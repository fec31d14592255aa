import TZ.SQLite

/-!
# The SQL text of a statement

The wrapper passes SQLite a text, and what SQLite does is decided by how it
reads that text. This module is the fragment of the SQL grammar the three
methods write – `CREATE TABLE IF NOT EXISTS`, `INSERT INTO … VALUES` and
`SELECT … FROM … [WHERE …] [ORDER BY …]` – as a lexer and a parser, and the
proof that a text built by the wrapper from plain identifiers is read as the
statement it was built for.

Words are compared with the keywords of the grammar without regard to case,
as SQLite compares them, and an identifier is a word that does not begin
with a digit or a dollar sign and is not a keyword.

The fragment is larger than what the wrapper writes. Blanks may stand anywhere, the
constraints of a column may come in any order, keywords may be in any case. A parser
that knew only the texts that are written would prove nothing when it reads them; this
one could read something else, and the theorems say that it does not.

The proof is in two steps, and each has a notion that composes. A text *lexes* as some
tokens whatever follows it, under a condition on the first character that follows
(`Lexes`, `LexesFree`): pieces are put together by concatenation as in the source, and
the condition is what keeps two words from running together. Then the parser is run on
the tokens, part by part of the grammar. The loops of the wrapper, with their flag for
the first element, are met in the first step only.
-/

/-- **A statement**, as the grammar gives it. The placeholders of an
`INSERT` are counted apart from its columns. -/
inductive Statement where
  /-- `CREATE TABLE IF NOT EXISTS`. -/
  | createTable (table : String) (columns : List TableColumn)
  /-- `INSERT INTO … VALUES`. -/
  | insert (table : String) (columns : List String) (placeholders : ℕ)
  /-- `SELECT … FROM`. -/
  | select (columns : List String) (table : String)
      (where_ : Option (String × ComparisonType))
      (orderBy : Option OrderByClause)
  deriving DecidableEq

namespace SqlText

/-! ## Words

All that is known about names is decided here: which characters, which first
character, and which words are taken. -/

/-- The keywords of SQLite. -/
def keywords : List String :=
  ["ABORT", "ACTION", "ADD", "AFTER", "ALL", "ALTER", "ALWAYS", "ANALYZE",
    "AND", "AS", "ASC", "ATTACH", "AUTOINCREMENT", "BEFORE", "BEGIN",
    "BETWEEN", "BY", "CASCADE", "CASE", "CAST", "CHECK", "COLLATE", "COLUMN",
    "COMMIT", "CONFLICT", "CONSTRAINT", "CREATE", "CROSS", "CURRENT",
    "CURRENT_DATE", "CURRENT_TIME", "CURRENT_TIMESTAMP", "DATABASE",
    "DEFAULT", "DEFERRABLE", "DEFERRED", "DELETE", "DESC", "DETACH",
    "DISTINCT", "DO", "DROP", "EACH", "ELSE", "END", "ESCAPE", "EXCEPT",
    "EXCLUDE", "EXCLUSIVE", "EXISTS", "EXPLAIN", "FAIL", "FILTER", "FIRST",
    "FOLLOWING", "FOR", "FOREIGN", "FROM", "FULL", "GENERATED", "GLOB",
    "GROUP", "GROUPS", "HAVING", "IF", "IGNORE", "IMMEDIATE", "IN", "INDEX",
    "INDEXED", "INITIALLY", "INNER", "INSERT", "INSTEAD", "INTERSECT",
    "INTO", "IS", "ISNULL", "JOIN", "KEY", "LAST", "LEFT", "LIKE", "LIMIT",
    "MATCH", "MATERIALIZED", "NATURAL", "NO", "NOT", "NOTHING", "NOTNULL",
    "NULL", "NULLS", "OF", "OFFSET", "ON", "OR", "ORDER", "OTHERS", "OUTER",
    "OVER", "PARTITION", "PLAN", "PRAGMA", "PRECEDING", "PRIMARY", "QUERY",
    "RAISE", "RANGE", "RECURSIVE", "REFERENCES", "REGEXP", "REINDEX",
    "RELEASE", "RENAME", "REPLACE", "RESTRICT", "RETURNING", "RIGHT",
    "ROLLBACK", "ROW", "ROWS", "SAVEPOINT", "SELECT", "SET", "TABLE", "TEMP",
    "TEMPORARY", "THEN", "TIES", "TO", "TRANSACTION", "TRIGGER", "UNBOUNDED",
    "UNION", "UNIQUE", "UPDATE", "USING", "VACUUM", "VALUES", "VIEW",
    "VIRTUAL", "WHEN", "WHERE", "WINDOW", "WITH", "WITHOUT"]

/-- Words are compared without regard to case.

SQLite folds only ASCII letters, and so does `Char.toUpper`. -/
def sameWord (v w : String) : Bool :=
  v.toList.map Char.toUpper == w.toList.map Char.toUpper

@[simp] theorem sameWord_self (w : String) : sameWord w w = true := by
  simp [sameWord]

/-- A character of a word.

Characters beyond ASCII belong to words, as every byte of them does in SQLite. -/
def isIdChar (c : Char) : Bool :=
  c.isAlphanum || c == '_' || c == '$' || 0x80 ≤ c.toNat

/-- A word that may name a table or a column. -/
def isIdentifier (w : String) : Bool :=
  (match w.toList with
    | [] => false
    | c :: _ => !c.isDigit && c != '$')
  && !keywords.any (sameWord w)

/-- **A plain identifier**: a word of the grammar that names a table or a
column without quoting.

The wrapper adds no quotes, so this is what a name has to be for the text to
mean what it says. -/
def Plain (w : String) : Prop :=
  (∀ c ∈ w.toList, isIdChar c = true) ∧ isIdentifier w = true

-- a word is gone through, not the type of all characters
instance (w : String) : Decidable (Plain w) :=
  @instDecidableAnd _ _ (List.decidableBAll _ _) inferInstance

/-! ## The lexer

Comments, strings and numbers are not in the fragment: a text that has one is not
read. Values are not in the text either, they are bound. -/

/-- A token: a word, or one character that is neither of a word nor
space. -/
inductive Token where
  /-- A maximal run of word characters. -/
  | word (w : String)
  /-- Any other character. -/
  | punct (c : Char)
  deriving DecidableEq

/-- The word collected so far, in reverse, as a token. -/
def flush (acc : List Char) (ts : List Token) : List Token :=
  match acc with
  | [] => ts
  | acc => .word (String.ofList acc.reverse) :: ts

/-- The lexer, with the characters of the current word in reverse. -/
def lex : List Char → List Char → List Token
  | acc, [] => flush acc []
  | acc, c :: cs =>
    if isIdChar c then lex (c :: acc) cs
    else flush acc (if c.isWhitespace then lex [] cs else .punct c :: lex [] cs)

/-! ## The parser

One function for each part of the grammar, each returning what it has read and the
tokens that are left. Where SQLite would accept more, such as a type name of two
words, the function fails. -/

/-- A given keyword. -/
def keyword (k : String) : List Token → Option (List Token)
  | .word w :: ts => if sameWord w k then some ts else none
  | _ => none

/-- A sequence of keywords. -/
def keywordList : List String → List Token → Option (List Token)
  | [], ts => some ts
  | k :: ks, ts => (keyword k ts).bind (keywordList ks)

/-- A given character. -/
def punct (c : Char) : List Token → Option (List Token)
  | .punct d :: ts => if d = c then some ts else none
  | _ => none

/-- An identifier. -/
def identifier : List Token → Option (String × List Token)
  | .word w :: ts => if isIdentifier w then some (w, ts) else none
  | _ => none

/-- Identifiers separated by commas. -/
def identifiers : List Token → Option (List String × List Token)
  | .word w :: .punct ',' :: ts =>
    if isIdentifier w then
      (identifiers ts).map (fun r => (w :: r.1, r.2))
    else none
  | .word w :: ts => if isIdentifier w then some ([w], ts) else none
  | _ => none

/-- Placeholders separated by commas, counted. -/
def placeholders : List Token → Option (ℕ × List Token)
  | .punct '?' :: .punct ',' :: ts =>
    (placeholders ts).map (fun r => (r.1 + 1, r.2))
  | .punct '?' :: ts => some (1, ts)
  | _ => none

/-- A type name. -/
def typeName (w : String) : Option ColumnType :=
  if sameWord w "INTEGER" then some .CT_INTEGER
  else if sameWord w "REAL" then some .CT_REAL
  else if sameWord w "TEXT" then some .CT_TEXT
  else none

/-- A column with no constraint. -/
def plainColumn (name : String) (type : ColumnType) : TableColumn :=
  { name := name, type := type, notNull := false }

/-- The constraints of the column `col`, then the further columns of a
`CREATE TABLE`, up to the closing parenthesis.

The constraints of one column and the columns after it are one recursion,
because only the next token tells which of the two comes. -/
def columnRest (col : TableColumn) : List Token → Option (List TableColumn × List Token)
  | .punct ')' :: ts => some ([col], ts)
  | .punct ',' :: .word name :: .word type :: ts =>
    if isIdentifier name then
      (typeName type).bind fun t =>
        (columnRest (plainColumn name t) ts).map (fun r => (col :: r.1, r.2))
    else none
  | .word w :: ts =>
    if sameWord w "UNIQUE" then columnRest { col with unique := true } ts
    else match ts with
      | .word v :: ts =>
        if sameWord w "PRIMARY" && sameWord v "KEY" then
          columnRest { col with primaryKey := true } ts
        else if sameWord w "NOT" && sameWord v "NULL" then
          columnRest { col with notNull := true } ts
        else none
      | _ => none
  | _ => none

/-- The columns of a `CREATE TABLE`, with the closing parenthesis. -/
def columnDefs : List Token → Option (List TableColumn × List Token)
  | .word name :: .word type :: ts =>
    if isIdentifier name then
      (typeName type).bind fun t => columnRest (plainColumn name t) ts
    else none
  | _ => none

/-- A comparison operator. -/
def comparison : List Token → Option (ComparisonType × List Token)
  | .punct '<' :: ts => some (.CT_LESSER, ts)
  | .punct '>' :: ts => some (.CT_GREATER, ts)
  | .punct '=' :: ts => some (.CT_EQUAL, ts)
  | _ => none

/-- A direction of sorting. -/
def direction : List Token → Option (SortingOrder × List Token)
  | .word w :: ts =>
    if sameWord w "ASC" then some (.SO_ASC, ts)
    else if sameWord w "DESC" then some (.SO_DESC, ts)
    else none
  | _ => none

/-- An optional `WHERE col op ?`. -/
def whereClause (ts : List Token) :
    Option (Option (String × ComparisonType) × List Token) :=
  match keyword "WHERE" ts with
  | none => some (none, ts)
  | some ts => do
    let (column, ts) ← identifier ts
    let (op, ts) ← comparison ts
    let ts ← punct '?' ts
    some (some (column, op), ts)

/-- An optional `ORDER BY col ASC|DESC`. -/
def orderByClause (ts : List Token) : Option (Option OrderByClause × List Token) :=
  match keywordList ["ORDER", "BY"] ts with
  | none => some (none, ts)
  | some ts => do
    let (column, ts) ← identifier ts
    let (order, ts) ← direction ts
    some (some ⟨column, order⟩, ts)

/-- A `CREATE TABLE IF NOT EXISTS` after its keywords. -/
def createTableRest (ts : List Token) : Option (Statement × List Token) := do
  let (table, ts) ← identifier ts
  let ts ← punct '(' ts
  let (columns, ts) ← columnDefs ts
  some (.createTable table columns, ts)

/-- An `INSERT INTO` after its keywords. -/
def insertRest (ts : List Token) : Option (Statement × List Token) := do
  let (table, ts) ← identifier ts
  let ts ← punct '(' ts
  let (columns, ts) ← identifiers ts
  let ts ← punct ')' ts
  let ts ← keyword "VALUES" ts
  let ts ← punct '(' ts
  let (n, ts) ← placeholders ts
  let ts ← punct ')' ts
  some (.insert table columns n, ts)

/-- A `SELECT` after its keyword. -/
def selectRest (ts : List Token) : Option (Statement × List Token) := do
  let (columns, ts) ← identifiers ts
  let ts ← keyword "FROM" ts
  let (table, ts) ← identifier ts
  let (where_, ts) ← whereClause ts
  let (orderBy, ts) ← orderByClause ts
  some (.select columns table where_ orderBy, ts)

/-- One statement, up to its semicolon.

The first words decide. -/
def statement (ts : List Token) : Option (Statement × List Token) :=
  match keywordList ["CREATE", "TABLE", "IF", "NOT", "EXISTS"] ts with
  | some ts => createTableRest ts
  | none =>
    match keywordList ["INSERT", "INTO"] ts with
    | some ts => insertRest ts
    | none => (keyword "SELECT" ts).bind selectRest

/-- **The reading of a text that is exactly one statement.**

There must be a semicolon and nothing after it. Of several statements
`sqlite3_prepare_v2` would compile the first, so a text that is more than one
is not read here. -/
def parse (sql : String) : Option Statement :=
  match statement (lex [] sql.toList) with
  | some (stmt, [.punct ';']) => some stmt
  | _ => none

/-! ## What the lexer makes of a text

The lexer is a function of the whole text, and the wrapper puts the text together from
pieces. These notions say what a piece contributes, independently of what follows. -/

/-- The text lexes as `ts` when something that ends a word follows.

The condition on what follows is the one under which a word that ends the
piece is not continued. -/
def Lexes (s : String) (ts : List Token) : Prop :=
  ∀ c rest, isIdChar c = false →
    lex [] (s.toList ++ c :: rest) = ts ++ lex [] (c :: rest)

/-- The text ends where no word is open: it lexes as `ts` whatever
follows. -/
def LexesFree (s : String) (ts : List Token) : Prop :=
  ∀ rest, lex [] (s.toList ++ rest) = ts ++ lex [] rest

/-- The text begins with a character that ends a word. -/
def Stops (s : String) : Prop := ∃ c ∈ s.toList.head?, isIdChar c = false

instance (s : String) : Decidable (Stops s) :=
  Option.decidableExistsMem (p := fun c => isIdChar c = false) s.toList.head?

theorem LexesFree.lexes {a : String} {ta : List Token} (ha : LexesFree a ta) :
    Lexes a ta := fun c rest _ => ha (c :: rest)

theorem LexesFree.free {a b : String} {ta tb : List Token}
    (ha : LexesFree a ta) (hb : LexesFree b tb) :
    LexesFree (a ++ b) (ta ++ tb) := by
  intro rest
  rw [String.toList_append, List.append_assoc, ha, hb, List.append_assoc]

theorem LexesFree.append {a b : String} {ta tb : List Token}
    (ha : LexesFree a ta) (hb : Lexes b tb) : Lexes (a ++ b) (ta ++ tb) := by
  intro c rest hc
  rw [String.toList_append, List.append_assoc, ha, hb c rest hc,
    List.append_assoc]

/-- A text that ends in a word, and then one that ends it. -/
theorem Lexes.free {a b : String} {ta tb : List Token} (ha : Lexes a ta)
    (hb : LexesFree b tb) (hs : Stops b) : LexesFree (a ++ b) (ta ++ tb) := by
  intro rest
  obtain ⟨c, hmem, hc⟩ := hs
  have hb' := hb rest
  cases hl : b.toList with
  | nil => rw [hl] at hmem; cases hmem
  | cons d ds =>
    rw [hl] at hmem hb'
    cases hmem
    rw [List.cons_append] at hb'
    rw [String.toList_append, hl, List.append_assoc, List.cons_append,
      ha _ _ hc, hb', List.append_assoc]

/-- A text that ends in a word, and then one that ends it and may itself end
in a word.

All uses in the wrapper are of this form: a name, and then a piece of fixed
text that begins with a blank or a parenthesis. -/
theorem Lexes.append {a b : String} {ta tb : List Token} (ha : Lexes a ta)
    (hb : Lexes b tb) (hs : Stops b) : Lexes (a ++ b) (ta ++ tb) := by
  intro e rest he
  obtain ⟨c, hmem, hc⟩ := hs
  have hb' := hb e rest he
  cases hl : b.toList with
  | nil => rw [hl] at hmem; cases hmem
  | cons d ds =>
    rw [hl] at hmem hb'
    cases hmem
    rw [List.cons_append] at hb'
    rw [String.toList_append, hl, List.append_assoc, List.cons_append,
      ha _ _ hc, hb', List.append_assoc]

/-- An optional suffix. -/
theorem Lexes.optional {a b : String} {ta tb : List Token} (ha : Lexes a ta)
    (hb : Lexes b tb) (hs : Stops b) (p : Bool) :
    Lexes (a ++ if p then b else "") (ta ++ if p then tb else []) := by
  cases p with
  | true => exact ha.append hb hs
  | false =>
    show Lexes (a ++ "") (ta ++ [])
    rwa [String.append_empty, List.append_nil]

theorem lex_append_word (w acc rest : List Char)
    (h : ∀ c ∈ w, isIdChar c = true) :
    lex acc (w ++ rest) = lex (w.reverse ++ acc) rest := by
  induction w generalizing acc with
  | nil => rfl
  | cons c w ih =>
    rw [List.cons_append, lex, if_pos (h c List.mem_cons_self),
      ih _ (fun d hd => h d (List.mem_cons_of_mem c hd)),
      List.reverse_cons, List.append_assoc, List.singleton_append]

/-- A character that is not of a word ends the word before it. -/
theorem lex_stop {c : Char} (hc : isIdChar c = false) (acc rest : List Char) :
    lex acc (c :: rest) = flush acc (lex [] (c :: rest)) := by
  have hc' : ¬ isIdChar c = true := by rw [hc]; exact Bool.false_ne_true
  rw [lex, if_neg hc', lex, if_neg hc']
  rfl

/-- A text of word characters, one at least. -/
def IsWord (w : String) : Prop :=
  w.toList ≠ [] ∧ ∀ c ∈ w.toList, isIdChar c = true

instance (w : String) : Decidable (IsWord w) :=
  @instDecidableAnd _ _ inferInstance (List.decidableBAll _ _)

theorem Plain.isWord {w : String} (h : Plain w) : IsWord w := by
  refine ⟨fun hnil => ?_, h.1⟩
  have hw := h.2
  rw [isIdentifier, hnil] at hw
  cases hw

/-- **A word lexes as one token.**

Names and keywords are lexed alike; which of them a word is, is a matter of
the parser. -/
theorem lexes_word {w : String} (h : IsWord w) : Lexes w [.word w] := by
  intro c rest hc
  rw [lex_append_word _ _ _ h.2, List.append_nil, lex_stop hc]
  cases hr : w.toList.reverse with
  | nil => exact absurd (List.reverse_eq_nil_iff.mp hr) h.1
  | cons d ds =>
    have hw : String.ofList (d :: ds).reverse = w := by
      rw [← hr, List.reverse_reverse, String.ofList_toList]
    show Token.word (String.ofList (d :: ds).reverse) :: _ = _
    rw [hw, List.singleton_append]

/-! ## The loops of the wrapper

The loops are the part of the wrapper that works for any number of columns, and the
part that would be wrong by a comma. -/

open SQLite

/-- The loop with the `first` flag puts a comma before every piece but the
first. -/
theorem appendList_cons (query piece : String) (pieces : List String) :
    appendList query (piece :: pieces)
      = pieces.foldl (fun query p => query ++ ", " ++ p) (query ++ piece) := by
  have hrest : ∀ (l : List String) (q : String),
      (l.foldl (fun (st : Bool × String) piece =>
        (false, (if st.1 then st.2 else st.2 ++ ", ") ++ piece)) (false, q)).2
        = l.foldl (fun query p => query ++ ", " ++ p) q := by
    intro l
    induction l with
    | nil => exact fun _ => rfl
    | cons p l ih => exact fun q => ih _
  exact hrest pieces _

/-- **A list of pieces lexes piece by piece**, with a comma before every
piece but the first. -/
theorem lexes_appendList {query : String} {tq : List Token}
    (hq : LexesFree query tq) {α : Type} (text : α → String)
    (tok : α → List Token) (x : α) (xs : List α)
    (h : ∀ y ∈ x :: xs, Lexes (text y) (tok y)) :
    Lexes (appendList query ((x :: xs).map text))
      (tq ++ tok x ++ xs.flatMap (fun y => .punct ',' :: tok y)) := by
  obtain ⟨hx, hxs⟩ := List.forall_mem_cons.mp h
  rw [List.map_cons, appendList_cons]
  have hacc : Lexes (query ++ text x) (tq ++ tok x) := hq.append hx
  revert hacc
  generalize query ++ text x = q
  generalize tq ++ tok x = t
  induction xs generalizing q t with
  | nil =>
    intro hacc
    rw [List.flatMap_nil, List.append_nil]
    exact hacc
  | cons y ys ih =>
    intro hacc
    obtain ⟨hy, hys⟩ := List.forall_mem_cons.mp hxs
    have hcomma : LexesFree (q ++ ", ") (t ++ [.punct ',']) :=
      hacc.free (fun _ => rfl) (by decide)
    have hstep := ih (List.forall_mem_cons.mpr ⟨hx, hys⟩) hys _ _
      (hcomma.append hy)
    rw [List.flatMap_cons, ← List.append_assoc]
    rwa [List.append_assoc t, List.singleton_append] at hstep

/-- The tokens of `n + 1` placeholders. -/
def placeholderTokens (n : ℕ) : List Token :=
  .punct '?' :: (List.replicate n [Token.punct ',', .punct '?']).flatten

/-- The placeholder loop puts a comma before every placeholder but the
first. -/
theorem appendPlaceholders_succ (query : String) (n : ℕ) :
    appendPlaceholders query (n + 1)
      = (if n ≠ 0 then appendPlaceholders query n ++ ", "
          else appendPlaceholders query n) ++ "?" := by
  unfold appendPlaceholders
  rw [List.range_succ, List.foldl_append]
  rfl

/-- **The placeholders lex as placeholders.** -/
theorem lexes_appendPlaceholders {query : String} {tq : List Token}
    (hq : LexesFree query tq) (n : ℕ) :
    LexesFree (appendPlaceholders query (n + 1))
      (tq ++ placeholderTokens n) := by
  induction n with
  | zero =>
    rw [appendPlaceholders_succ]
    exact hq.free (fun _ => rfl)
  | succ n ih =>
    rw [appendPlaceholders_succ, if_pos (Nat.succ_ne_zero n),
      String.append_assoc]
    have hlast : LexesFree (", " ++ "?") [.punct ',', .punct '?'] :=
      fun _ => rfl
    have htok : placeholderTokens (n + 1)
        = placeholderTokens n ++ [.punct ',', .punct '?'] := by
      unfold placeholderTokens
      rw [List.replicate_succ', List.flatten_append, List.flatten_singleton,
        List.cons_append]
    rw [htok, ← List.append_assoc]
    exact ih.free hlast

/-- The tokens of the constraints of a column. -/
def constraintTokens (c : TableColumn) : List Token :=
  (if c.primaryKey then [.word "PRIMARY", .word "KEY"] else [])
    ++ ((if c.unique then [.word "UNIQUE"] else [])
      ++ if c.notNull then [.word "NOT", .word "NULL"] else [])

/-- The tokens of a column of a `CREATE TABLE`. -/
def columnTokens (c : TableColumn) : List Token :=
  .word c.name :: .word (typeStr c.type) :: constraintTokens c

/-- **A column lexes as its name, its type and its constraints.** -/
theorem lexes_columnDefText {c : TableColumn} (h : Plain c.name) :
    Lexes (columnDefText c) (columnTokens c) := by
  have htype : IsWord (typeStr c.type) := by
    cases c.type <;> decide
  have hname : LexesFree (c.name ++ " ") ([.word c.name] ++ []) :=
    (lexes_word h.isWord).free (fun _ => rfl) (by decide)
  have hpk : Lexes " PRIMARY KEY" [.word "PRIMARY", .word "KEY"] := by
    rw [show " PRIMARY KEY" = " PRIMARY " ++ "KEY" from rfl]
    exact LexesFree.append (show LexesFree " PRIMARY " [.word "PRIMARY"] from fun _ => rfl)
      (lexes_word (show IsWord "KEY" by decide))
  have hunique : Lexes " UNIQUE" [.word "UNIQUE"] := by
    rw [show " UNIQUE" = " " ++ "UNIQUE" from rfl]
    exact LexesFree.append (show LexesFree " " [] from fun _ => rfl)
      (lexes_word (show IsWord "UNIQUE" by decide))
  have hnotNull : Lexes " NOT NULL" [.word "NOT", .word "NULL"] := by
    rw [show " NOT NULL" = " NOT " ++ "NULL" from rfl]
    exact LexesFree.append (show LexesFree " NOT " [.word "NOT"] from fun _ => rfl)
      (lexes_word (show IsWord "NULL" by decide))
  have hall := (((hname.append (lexes_word htype)).optional hpk (by decide)
    c.primaryKey).optional hunique (by decide) c.unique).optional hnotNull
    (by decide) c.notNull
  unfold columnDefText columnTokens constraintTokens
  simpa only [List.append_assoc, List.singleton_append, List.nil_append,
    List.cons_append] using hall

/-! ## What the parser makes of the tokens -/

/-- The tokens do not go on with a comma. -/
def NoComma (ts : List Token) : Prop := ∀ rest, ts ≠ .punct ',' :: rest

theorem identifiers_tokens (w : String) (ws : List String) (rest : List Token)
    (h : ∀ x ∈ w :: ws, Plain x) (hrest : NoComma rest) :
    identifiers (.word w :: ws.flatMap (fun y => .punct ',' :: [.word y]) ++ rest)
      = some (w :: ws, rest) := by
  induction ws generalizing w with
  | nil =>
    have hw := (h w List.mem_cons_self).2
    rw [List.flatMap_nil, List.singleton_append]
    cases rest with
    | nil => simp [identifiers, hw]
    | cons t ts =>
      unfold identifiers
      split
      · rename_i heq
        cases heq
        exact absurd rfl (hrest _)
      · rename_i heq
        cases heq
        rw [if_pos hw]
      · rename_i hne
        exact (hne _ _ rfl).elim
  | cons y ys ih =>
    have hw := (h w List.mem_cons_self).2
    have hys := ih y (fun x hx => h x (List.mem_cons_of_mem w hx))
    rw [List.flatMap_cons]
    simp only [List.cons_append, List.nil_append] at hys ⊢
    rw [identifiers, if_pos hw, hys]
    rfl

theorem placeholders_tokens (n : ℕ) (rest : List Token) (hrest : NoComma rest) :
    placeholders (placeholderTokens n ++ rest) = some (n + 1, rest) := by
  unfold placeholderTokens
  induction n with
  | zero =>
    cases rest with
    | nil => rfl
    | cons t ts =>
      show placeholders (.punct '?' :: t :: ts) = some (1, t :: ts)
      unfold placeholders
      split
      · rename_i heq
        cases heq
        exact absurd rfl (hrest _)
      · rename_i heq
        cases heq
        rfl
      · rename_i hne
        exact (hne _ rfl).elim
  | succ n ih =>
    rw [List.replicate_succ, List.flatten_cons]
    simp only [List.cons_append, List.nil_append] at ih ⊢
    rw [placeholders, ih]
    rfl

theorem typeName_typeStr (t : ColumnType) : typeName (typeStr t) = some t := by
  cases t <;> decide

/-- The constraints of a column are read into the column. -/
theorem columnRest_constraintTokens (c : TableColumn) (rest : List Token)
    (hrest : ∃ p ts, rest = .punct p :: ts) :
    columnRest (plainColumn c.name c.type) (constraintTokens c ++ rest)
      = columnRest c rest := by
  obtain ⟨p, ts, rfl⟩ := hrest
  obtain ⟨name, type, primaryKey, unique, notNull⟩ := c
  cases primaryKey <;> cases unique <;> cases notNull <;> rfl

theorem columnRest_tokens (c : TableColumn) (cs : List TableColumn)
    (rest : List Token) (h : ∀ x ∈ cs, Plain x.name) :
    columnRest c (cs.flatMap (fun y => .punct ',' :: columnTokens y)
        ++ .punct ')' :: rest)
      = some (c :: cs, rest) := by
  induction cs generalizing c with
  | nil => rfl
  | cons y ys ih =>
    obtain ⟨hy, hys⟩ := List.forall_mem_cons.mp h
    have hnext : ∃ p ts, ys.flatMap (fun y => .punct ',' :: columnTokens y)
        ++ Token.punct ')' :: rest = .punct p :: ts := by
      cases ys with
      | nil => exact ⟨_, _, rfl⟩
      | cons z zs => exact ⟨_, _, rfl⟩
    rw [List.flatMap_cons, columnTokens]
    simp only [List.cons_append, List.append_assoc]
    rw [columnRest, if_pos hy.2, typeName_typeStr, Option.bind_some,
      columnRest_constraintTokens y _ hnext, ih y hys]
    rfl

theorem columnDefs_tokens (c : TableColumn) (cs : List TableColumn)
    (rest : List Token) (h : ∀ x ∈ c :: cs, Plain x.name) :
    columnDefs (columnTokens c ++ cs.flatMap (fun y => .punct ',' :: columnTokens y)
        ++ .punct ')' :: rest)
      = some (c :: cs, rest) := by
  obtain ⟨hc, hcs⟩ := List.forall_mem_cons.mp h
  have hnext : ∃ p ts, cs.flatMap (fun y => .punct ',' :: columnTokens y)
      ++ Token.punct ')' :: rest = .punct p :: ts := by
    cases cs with
    | nil => exact ⟨_, _, rfl⟩
    | cons z zs => exact ⟨_, _, rfl⟩
  rw [columnTokens]
  simp only [List.cons_append, List.append_assoc]
  rw [columnDefs, if_pos hc.2, typeName_typeStr, Option.bind_some,
    columnRest_constraintTokens c _ hnext, columnRest_tokens c cs rest hcs]

/-! ## The text the wrapper builds is the statement it means -/

variable {F : Type}

/-- **The text of `createTable` is read as its table and its columns.** -/
theorem parse_createTableQuery {tableName : String} {c : TableColumn}
    {cs : List TableColumn} (ht : Plain tableName)
    (hc : ∀ x ∈ c :: cs, Plain x.name) :
    parse (createTableQuery tableName (c :: cs))
      = some (.createTable tableName (c :: cs)) := by
  have hhead : LexesFree ("CREATE TABLE IF NOT EXISTS " ++ tableName ++ "(")
      ([.word "CREATE", .word "TABLE", .word "IF", .word "NOT", .word "EXISTS"]
        ++ [.word tableName] ++ [.punct '(']) :=
    (LexesFree.append (fun _ => rfl) (lexes_word ht.isWord)).free (fun _ => rfl)
      (by decide)
  have hlex := (lexes_appendList hhead columnDefText columnTokens c cs
    (fun y hy => lexes_columnDefText (hc y hy))).free
    (show LexesFree ");" [.punct ')', .punct ';'] from fun _ => rfl) (by decide) []
  rw [List.append_nil] at hlex
  have hcols := columnDefs_tokens c cs [.punct ';'] hc
  unfold parse createTableQuery
  rw [hlex]
  simp only [List.cons_append, List.nil_append, List.append_assoc, lex, flush,
    List.append_nil] at hcols ⊢
  simp only [statement, keywordList, keyword, sameWord_self, if_true,
    Option.bind_some, createTableRest, identifier, ht.2, Option.bind_eq_bind,
    punct, hcols]

/-- **The text of `insertOne` is read as its table, its columns in order, and
one placeholder for each value.** -/
theorem parse_insertQuery {tableName : String} {v : TableValue F}
    {vs : List (TableValue F)} (ht : Plain tableName)
    (hv : ∀ x ∈ v :: vs, Plain x.columnName) :
    parse (insertQuery tableName (v :: vs))
      = some (.insert tableName ((v :: vs).map TableValue.columnName)
        (v :: vs).length) := by
  have hhead : LexesFree ("INSERT INTO " ++ tableName ++ "(")
      ([.word "INSERT", .word "INTO"] ++ [.word tableName] ++ [.punct '(']) :=
    (LexesFree.append (fun _ => rfl) (lexes_word ht.isWord)).free (fun _ => rfl)
      (by decide)
  have hcols := (lexes_appendList hhead TableValue.columnName
    (fun y => [.word y.columnName]) v vs
    (fun y hy => lexes_word (hv y hy).isWord)).free
    (show LexesFree ") VALUES(" [.punct ')', .word "VALUES", .punct '(']
      from fun _ => rfl) (by decide)
  have hlex := ((lexes_appendPlaceholders hcols vs.length).free
    (show LexesFree ");" [.punct ')', .punct ';'] from fun _ => rfl)) []
  rw [List.append_nil] at hlex
  have hids := identifiers_tokens v.columnName (vs.map TableValue.columnName)
    (.punct ')' :: .word "VALUES" :: .punct '('
      :: (placeholderTokens vs.length ++ [.punct ')', .punct ';']))
    (by
      intro x hx
      rw [← List.map_cons] at hx
      obtain ⟨y, hy, rfl⟩ := List.mem_map.mp hx
      exact hv y hy)
    (fun _ h => by cases h)
  have hph := placeholders_tokens vs.length [.punct ')', .punct ';']
    (fun _ h => by cases h)
  rw [List.flatMap_map] at hids
  unfold parse insertQuery
  rw [List.length_cons, hlex]
  simp only [List.cons_append, List.nil_append, List.append_assoc, lex, flush,
    List.append_nil] at hids ⊢
  have hcreate : keywordList ["CREATE", "TABLE", "IF", "NOT", "EXISTS"]
      (.word "INSERT" :: .word "INTO" :: .word tableName :: .punct '('
        :: .word v.columnName
        :: (vs.flatMap (fun y => [.punct ',', .word y.columnName])
          ++ .punct ')' :: .word "VALUES" :: .punct '('
            :: (placeholderTokens vs.length ++ [.punct ')', .punct ';'])))
      = none := rfl
  rw [statement, hcreate]
  simp only [keywordList, keyword, sameWord_self, if_true, Option.bind_some,
    insertRest, identifier, ht.2, Option.bind_eq_bind, punct, hids, hph,
    List.map_cons]

/-- The condition of a WHERE clause, as the grammar gives it. -/
def WhereClause.condition (w : WhereClause F) : String × ComparisonType :=
  (w.tableValue.columnName, w.type)

/-- The character of a comparison. -/
def comparisonChar : ComparisonType → Char
  | .CT_LESSER => '<'
  | .CT_GREATER => '>'
  | .CT_EQUAL => '='

/-- The tokens of an optional WHERE clause. -/
def whereTokens : Option (WhereClause F) → List Token
  | none => []
  | some w => [.word "WHERE", .word w.tableValue.columnName,
      .punct (comparisonChar w.type), .punct '?']

/-- The tokens of an optional ORDER BY clause. -/
def orderTokens : Option OrderByClause → List Token
  | none => []
  | some o => [.word "ORDER", .word "BY", .word o.columnName,
      .word (orderText o.order)]

theorem lexes_comparison (t : ComparisonType) :
    LexesFree (" " ++ comparisonText t ++ " ?")
        [.punct (comparisonChar t), .punct '?']
      ∧ Stops (" " ++ comparisonText t ++ " ?") := by
  cases t with
  | CT_LESSER => exact ⟨fun _ => rfl, by decide⟩
  | CT_GREATER => exact ⟨fun _ => rfl, by decide⟩
  | CT_EQUAL => exact ⟨fun _ => rfl, by decide⟩

theorem lexes_where {q : String} {tq : List Token} (hq : Lexes q tq)
    {w : Option (WhereClause F)}
    (hw : ∀ x ∈ w, Plain x.tableValue.columnName) :
    Lexes (q ++ whereText w) (tq ++ whereTokens w) := by
  cases w with
  | none =>
    show Lexes (q ++ "") (tq ++ [])
    rwa [String.append_empty, List.append_nil]
  | some w =>
    have hcol := lexes_word (hw w rfl).isWord
    have hwhere := hq.free
      (show LexesFree " WHERE " [.word "WHERE"] from fun _ => rfl) (by decide)
    obtain ⟨hlex, hstops⟩ := lexes_comparison w.type
    have hall := ((hwhere.append hcol).free hlex hstops).lexes
    simpa only [whereText, whereTokens, String.append_assoc, List.append_assoc,
      List.cons_append, List.nil_append] using hall

theorem lexes_orderBy {q : String} {tq : List Token} (hq : Lexes q tq)
    {o : Option OrderByClause} (ho : ∀ x ∈ o, Plain x.columnName) :
    Lexes (q ++ orderByText o) (tq ++ orderTokens o) := by
  cases o with
  | none =>
    show Lexes (q ++ "") (tq ++ [])
    rwa [String.append_empty, List.append_nil]
  | some o =>
    have hcol := lexes_word (ho o rfl).isWord
    have horder := hq.free
      (show LexesFree " ORDER BY " [.word "ORDER", .word "BY"] from fun _ => rfl)
      (by decide)
    have hdir : IsWord (orderText o.order) := by
      cases o.order <;> decide
    have hall := (((horder.append hcol).free
      (show LexesFree " " [] from fun _ => rfl) (by decide)).append
      (lexes_word hdir))
    simpa only [orderByText, orderTokens, String.append_assoc, List.append_assoc,
      List.cons_append, List.nil_append] using hall

theorem whereClause_tokens {w : Option (WhereClause F)} {o : Option OrderByClause}
    (hw : ∀ x ∈ w, Plain x.tableValue.columnName) :
    whereClause (whereTokens w ++ (orderTokens o ++ [.punct ';']))
      = some (w.map WhereClause.condition, orderTokens o ++ [.punct ';']) := by
  cases w with
  | none => cases o <;> rfl
  | some w =>
    have hcol := (hw w rfl).2
    obtain ⟨⟨column, value⟩, op⟩ := w
    cases op <;>
      simp [whereClause, whereTokens, comparisonChar, keyword, identifier, hcol, comparison, punct,
        WhereClause.condition]

theorem orderByClause_tokens {o : Option OrderByClause}
    (ho : ∀ x ∈ o, Plain x.columnName) :
    orderByClause (orderTokens o ++ [.punct ';']) = some (o, [.punct ';']) := by
  cases o with
  | none => rfl
  | some o =>
    have hcol := (ho o rfl).2
    have hdir : direction [.word (orderText o.order), .punct ';']
        = some (o.order, [.punct ';']) := by
      cases o.order <;> rfl
    simp [orderByClause, orderTokens, keywordList, keyword, identifier, hcol, hdir]

/-- **The text of `selectMany` is read as its columns in order, its table,
and its clauses.**

Whichever of the two clauses are there. The comparison and the direction are
read back as the enumerators they were written for. -/
theorem parse_selectQuery {tableName : String} {c : TableColumn}
    {cs : List TableColumn} {w : Option (WhereClause F)}
    {o : Option OrderByClause} (ht : Plain tableName)
    (hc : ∀ x ∈ c :: cs, Plain x.name)
    (hw : ∀ x ∈ w, Plain x.tableValue.columnName)
    (ho : ∀ x ∈ o, Plain x.columnName) :
    parse (selectQuery tableName (c :: cs) w o)
      = some (.select ((c :: cs).map TableColumn.name) tableName
        (w.map WhereClause.condition) o) := by
  have hhead : LexesFree "SELECT " [.word "SELECT"] := fun _ => rfl
  have hfrom := ((lexes_appendList hhead TableColumn.name
    (fun y => [.word y.name]) c cs
    (fun y hy => lexes_word (hc y hy).isWord)).free
    (show LexesFree " FROM " [.word "FROM"] from fun _ => rfl) (by decide)).append
    (lexes_word ht.isWord)
  have hlex := ((lexes_orderBy (lexes_where hfrom hw) ho).free
    (show LexesFree ";" [.punct ';'] from fun _ => rfl) (by decide)) []
  rw [List.append_nil] at hlex
  have hids := identifiers_tokens c.name (cs.map TableColumn.name)
    (.word "FROM" :: .word tableName
      :: (whereTokens w ++ (orderTokens o ++ [.punct ';'])))
    (by
      intro x hx
      rw [← List.map_cons] at hx
      obtain ⟨y, hy, rfl⟩ := List.mem_map.mp hx
      exact hc y hy)
    (fun _ h => by cases h)
  rw [List.flatMap_map] at hids
  unfold parse selectQuery
  rw [hlex]
  simp only [List.cons_append, List.nil_append, List.append_assoc, lex, flush,
    List.append_nil] at hids ⊢
  have hnot : ∀ ts, keywordList ["CREATE", "TABLE", "IF", "NOT", "EXISTS"]
      (.word "SELECT" :: ts) = none
      ∧ keywordList ["INSERT", "INTO"] (.word "SELECT" :: ts) = none :=
    fun _ => ⟨rfl, rfl⟩
  rw [statement, (hnot _).1, (hnot _).2]
  simp only [keyword, sameWord_self, if_true, Option.bind_some, selectRest,
    identifier, ht.2, Option.bind_eq_bind, hids, whereClause_tokens hw,
    orderByClause_tokens ho, List.map_cons]

end SqlText
