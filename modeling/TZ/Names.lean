import Mathlib.Data.List.Pairwise
import TZ.SqlText

/-!
# The names of a table that there is

A name that SQLite has read from a text is a plain identifier: it is a word of
the lexer, and the parser has made sure that it is no keyword
(`createTable_plain`). Names are compared without regard to case, and a name
that is the same as a plain identifier is one itself (`Plain.of_sameWord`). So
whoever names the columns of a table that `CREATE TABLE` has made has named
them with plain identifiers.

This matters because the wrapper writes names into a text without quoting them. A name
with a blank or a parenthesis in it would be another statement, and one that spells a
keyword would be none; the caller of the wrapper is nowhere warned. One could ask for
plain names wherever a statement is made. Then nothing would be known of a table whose
columns somebody else has named, and the round trip of `TZ.SqlText` would be true only
by assumption.

So the assumption is derived here from the one thing that is certain about a table that
exists: some `CREATE TABLE` was read from a text and made it. The way back is not a
matter of inspecting one name, because the caller need not spell a name as the table
does. SQLite compares names up to the case of ASCII letters, and only those, so a name
that compares equal has the same characters up to case, hence no blank and no digit
where the other had none, and it is a keyword exactly if the other is.
-/

namespace SqlText

/-! ## Names without regard to case

Comparing without case is an equivalence, and in a table the names are distinct with
respect to it. So a name finds a column or finds none, and it does not matter in which
order the columns stand; nothing else about names is used when a statement is run. -/

theorem sameWord_iff {v w : String} :
    sameWord v w = true ↔ v.toList.map Char.toUpper = w.toList.map Char.toUpper :=
  beq_iff_eq

theorem sameWord_symm {v w : String} (h : sameWord v w = true) : sameWord w v = true :=
  sameWord_iff.mpr (sameWord_iff.mp h).symm

theorem sameWord_trans {u v w : String} (h : sameWord u v = true) (h' : sameWord v w = true) :
    sameWord u w = true :=
  sameWord_iff.mpr ((sameWord_iff.mp h).trans (sameWord_iff.mp h'))

theorem sameWord_comm (v w : String) : sameWord v w = sameWord w v :=
  Bool.eq_iff_iff.mpr ⟨sameWord_symm, sameWord_symm⟩

/-- Names that are the same are the same as the same names.

This lets a name be replaced in a lookup by the one the table has. -/
theorem sameWord_congr {v w : String} (h : sameWord v w = true) (u : String) :
    sameWord u v = sameWord u w :=
  Bool.eq_iff_iff.mpr ⟨fun h' => sameWord_trans h' h, fun h' => sameWord_trans h' (sameWord_symm h)⟩

/-- **The members of a list have distinct names.**

Two columns that differ only in case would be found by the same names, so they
are not distinct. SQLite turns such a `CREATE TABLE` down. -/
def Distinct {α : Type} (name : α → String) (l : List α) : Prop :=
  l.Pairwise fun a b => sameWord (name a) (name b) = false

namespace Distinct

variable {α : Type} {name : α → String} {l l' : List α} {a b : α} {w : String}

theorem eq_of_sameWord (h : Distinct name l) (ha : a ∈ l) (hb : b ∈ l)
    (hab : sameWord (name a) (name b) = true) : a = b := by
  have hsymm : Std.Symm fun a b => sameWord (name a) (name b) = false :=
    ⟨fun _ _ h => (sameWord_comm _ _).trans h⟩
  by_contra hne
  rw [List.Pairwise.forall h ha hb hne] at hab
  cases hab

theorem perm (h : Distinct name l) (hl : l.Perm l') : Distinct name l' :=
  (hl.pairwise_iff fun {_ _} h => (sameWord_comm _ _).trans h).mp h

/-- **A name finds the member that has it**, wherever it stands.

`List.find?` returns the first that fits. With distinct names there is only
one, so what is found is known without knowing what stands before it. -/
theorem find?_eq_some_iff (h : Distinct name l) :
    l.find? (fun a => sameWord (name a) w) = some a ↔ a ∈ l ∧ sameWord (name a) w = true := by
  have hfound : ∀ b, l.find? (fun a => sameWord (name a) w) = some b →
      sameWord (name b) w = true := fun b hb =>
    List.find?_some (p := fun a => sameWord (name a) w) hb
  refine ⟨fun hfind => ⟨List.mem_of_find?_eq_some hfind, hfound a hfind⟩, ?_⟩
  rintro ⟨ha, haw⟩
  cases hfind : l.find? (fun a => sameWord (name a) w) with
  | none => exact absurd haw (List.find?_eq_none.mp hfind a ha)
  | some b =>
    have hbw := hfound b hfind
    exact congrArg some (h.eq_of_sameWord (List.mem_of_find?_eq_some hfind) ha
      (sameWord_trans hbw (sameWord_symm haw)))

/-- What a name finds does not depend on the order. -/
theorem find?_perm (h : Distinct name l) (hl : l.Perm l') :
    l.find? (fun a => sameWord (name a) w) = l'.find? (fun a => sameWord (name a) w) := by
  ext a
  rw [h.find?_eq_some_iff, (h.perm hl).find?_eq_some_iff,
    hl.mem_iff]

end Distinct

/-! ASCII letters and digits, by their numbers. -/

theorem isUpper_iff {c : Char} :
    c.isUpper = true ↔ 65 ≤ c.val.toNat ∧ c.val.toNat ≤ 90 :=
  show decide (c.val ≥ 'A'.val ∧ c.val ≤ 'Z'.val) = true ↔ _ by
    rw [decide_eq_true_eq, ge_iff_le, UInt32.le_iff_toNat_le, UInt32.le_iff_toNat_le]
    rfl

theorem isLower_iff {c : Char} :
    c.isLower = true ↔ 97 ≤ c.val.toNat ∧ c.val.toNat ≤ 122 :=
  show (decide (c.val ≥ 'a'.val) && decide (c.val ≤ 'z'.val)) = true ↔ _ by
    rw [Bool.and_eq_true, decide_eq_true_eq, decide_eq_true_eq, ge_iff_le,
      UInt32.le_iff_toNat_le, UInt32.le_iff_toNat_le]
    rfl

theorem isDigit_iff {c : Char} :
    c.isDigit = true ↔ 48 ≤ c.val.toNat ∧ c.val.toNat ≤ 57 :=
  show (decide (c.val ≥ '0'.val) && decide (c.val ≤ '9'.val)) = true ↔ _ by
    rw [Bool.and_eq_true, decide_eq_true_eq, decide_eq_true_eq, ge_iff_le,
      UInt32.le_iff_toNat_le, UInt32.le_iff_toNat_le]
    rfl

/-- Only a letter has another upper case.

Everything about case below is one of these two: nothing has changed, or a
letter has become another letter. -/
theorem toUpper_cases (c : Char) :
    c.toUpper = c ∨ (c.isLower = true ∧ c.toUpper.isUpper = true) := by
  by_cases h : 'a'.val ≤ c.val ∧ c.val ≤ 'z'.val
  · have hval : c.toUpper.val.toNat = (c.val + ('A'.val - 'a'.val)).toNat := by
      unfold Char.toUpper
      rw [dif_pos h]
    have hdiff : ('A'.val - 'a'.val).toNat = 2 ^ 32 - 32 := rfl
    rw [UInt32.toNat_add, hdiff] at hval
    rw [UInt32.le_iff_toNat_le, UInt32.le_iff_toNat_le] at h
    have hlower := isLower_iff.mpr h
    have hrange := isLower_iff.mp hlower
    refine Or.inr ⟨hlower, isUpper_iff.mpr ?_⟩
    omega
  · refine Or.inl ?_
    unfold Char.toUpper
    rw [dif_neg h]

/-- A letter is no digit. -/
theorem isDigit_of_isAlpha {c : Char} (h : c.isUpper = true ∨ c.isLower = true) :
    c.isDigit = false := by
  rw [isUpper_iff, isLower_iff] at h
  rw [← Bool.not_eq_true, isDigit_iff]
  omega

/-- Whether a character is one of a word does not depend on its case.

So the lexer cuts two texts that differ in case at the same places. -/
theorem isIdChar_toUpper (c : Char) : isIdChar c.toUpper = isIdChar c := by
  obtain h | ⟨hl, hu⟩ := toUpper_cases c
  · rw [h]
  · have hletter : ∀ d : Char, d.isUpper = true ∨ d.isLower = true → isIdChar d = true := by
      intro d hd
      have halpha : d.isAlphanum = true := by
        show ((d.isUpper || d.isLower) || d.isDigit) = true
        rw [Bool.or_eq_true_iff.mpr hd, Bool.true_or]
      rw [isIdChar, halpha, Bool.true_or, Bool.true_or, Bool.true_or]
    rw [hletter c (Or.inr hl), hletter _ (Or.inl hu)]

/-- Whether a character may begin an identifier does not depend on its case.

The first character has a condition of its own, because a word that begins
with a digit is a number for SQLite, and one that begins with `$` a parameter. -/
theorem begins_toUpper (c : Char) :
    (!c.toUpper.isDigit && c.toUpper != '$') = (!c.isDigit && c != '$') := by
  obtain h | ⟨hl, hu⟩ := toUpper_cases c
  · rw [h]
  · have hletter : ∀ d : Char, d.isUpper = true ∨ d.isLower = true →
        (!d.isDigit && d != '$') = true := by
      intro d hd
      have hne : d ≠ '$' := by
        rintro rfl
        exact absurd hd (by decide)
      rw [isDigit_of_isAlpha hd, bne_iff_ne.mpr hne]
      rfl
    rw [hletter c (Or.inr hl), hletter _ (Or.inl hu)]

/-- **A name that is the same as a plain identifier is one.**

Character by character for the two conditions on characters. That it is no
keyword either follows at once, since keywords are compared in the same way. -/
theorem Plain.of_sameWord {v w : String} (hw : Plain w) (h : sameWord v w = true) : Plain v := by
  have hmap := sameWord_iff.mp h
  obtain ⟨hchars, hident⟩ := hw
  refine ⟨fun c hc => ?_, ?_⟩
  · have hc' : c.toUpper ∈ w.toList.map Char.toUpper := hmap ▸ List.mem_map_of_mem hc
    obtain ⟨d, hd, hcd⟩ := List.mem_map.mp hc'
    rw [← isIdChar_toUpper, ← hcd, isIdChar_toUpper]
    exact hchars d hd
  · unfold isIdentifier at hident ⊢
    have hkeywords : keywords.any (sameWord v) = keywords.any (sameWord w) := by
      refine congrArg (List.any keywords) (funext fun k => ?_)
      rw [sameWord_comm v, sameWord_comm w, sameWord_congr h]
    rw [hkeywords]
    rw [Bool.and_eq_true] at hident ⊢
    refine ⟨?_, hident.2⟩
    cases hv : v.toList with
    | nil =>
      rw [hv] at hmap
      rw [List.map_eq_nil_iff.mp hmap.symm] at hident
      exact hident.1
    | cons c cs =>
      cases hw : w.toList with
      | nil =>
        rw [hv, hw] at hmap
        cases hmap
      | cons d ds =>
        rw [hv, hw, List.map_cons, List.map_cons] at hmap
        rw [hw] at hident
        obtain ⟨hcd, -⟩ := List.cons.inj hmap
        show (!c.isDigit && c != '$') = true
        rw [← begins_toUpper, hcd, begins_toUpper]
        exact hident.1

/-! ## What is read is plain

Two facts together make an identifier plain: the lexer only makes words of identifier
characters, and the parser takes a word for a name only if it is no keyword and begins
as a name may. The first is a property of the whole list of tokens, so it has to be
carried through the grammar, every part of which leaves tokens that were there. -/

/-- The words of tokens are words.

This is the invariant of the grammar. It is about all tokens still to be read,
because any of them may become a name. -/
def Words (ts : List Token) : Prop :=
  ∀ w, Token.word w ∈ ts → ∀ c ∈ w.toList, isIdChar c = true

theorem words_nil : Words [] := fun _ hw => absurd hw List.not_mem_nil

theorem Words.of_subset {ts ts' : List Token} (h : Words ts) (hsub : ts' ⊆ ts) : Words ts' :=
  fun w hw => h w (hsub hw)

theorem Words.tail {t : Token} {ts : List Token} (h : Words (t :: ts)) : Words ts :=
  h.of_subset (List.subset_cons_self t ts)

theorem words_flush {acc : List Char} {ts : List Token} (hacc : ∀ c ∈ acc, isIdChar c = true)
    (hts : Words ts) : Words (flush acc ts) := by
  cases acc with
  | nil => exact hts
  | cons a acc =>
    intro w hw
    rcases List.mem_cons.mp hw with hw | hw
    · cases hw
      intro c hc
      rw [String.toList_ofList, List.mem_reverse] at hc
      exact hacc c hc
    · exact hts w hw

/-- **The words of the lexer are words.**

The induction follows the lexer, which has a word it is in the middle of: that
one has to consist of identifier characters already. -/
theorem words_lex {acc cs : List Char} (hacc : ∀ c ∈ acc, isIdChar c = true) :
    Words (lex acc cs) := by
  induction cs generalizing acc with
  | nil => exact words_flush hacc words_nil
  | cons c cs ih =>
    rw [lex]
    split_ifs with hc hspace
    · exact ih (List.forall_mem_cons.mpr ⟨hc, hacc⟩)
    · exact words_flush hacc (ih (List.forall_mem_nil _))
    · refine words_flush hacc fun w hw => ?_
      rcases List.mem_cons.mp hw with hw | hw
      · cases hw
      · exact ih (List.forall_mem_nil _) w hw

/-! Each part of the grammar leaves tokens that were there. -/

theorem keyword_subset {k : String} {ts ts' : List Token} (h : keyword k ts = some ts') :
    ts' ⊆ ts := by
  cases ts with
  | nil => cases h
  | cons t ts =>
    cases t with
    | punct c => cases h
    | word w =>
      unfold keyword at h
      dsimp only at h
      split_ifs at h
      cases h
      exact List.subset_cons_self _ _

theorem keywordList_subset {ks : List String} {ts ts' : List Token}
    (h : keywordList ks ts = some ts') : ts' ⊆ ts := by
  induction ks generalizing ts with
  | nil =>
    cases h
    exact List.Subset.refl _
  | cons k ks ih =>
    obtain ⟨ts₁, h₁, h₂⟩ := Option.bind_eq_some_iff.mp h
    exact List.Subset.trans (ih h₂) (keyword_subset h₁)

theorem punct_subset {c : Char} {ts ts' : List Token} (h : punct c ts = some ts') :
    ts' ⊆ ts := by
  cases ts with
  | nil => cases h
  | cons t ts =>
    cases t with
    | word w => cases h
    | punct d =>
      unfold punct at h
      dsimp only at h
      split_ifs at h
      cases h
      exact List.subset_cons_self _ _

theorem identifier_plain {w : String} {ts ts' : List Token} (h : identifier ts = some (w, ts'))
    (hts : Words ts) : Plain w ∧ ts' ⊆ ts := by
  cases ts with
  | nil => cases h
  | cons t ts =>
    cases t with
    | punct c => cases h
    | word v =>
      unfold identifier at h
      dsimp only at h
      split_ifs at h with hident
      cases h
      exact ⟨⟨hts w List.mem_cons_self, hident⟩, List.subset_cons_self _ _⟩

/-- The names of the further columns are plain.

By the recursion of the parser. A constraint changes the column that is being
read but not its name, and a comma begins a new one, with a name that was just
looked at. -/
theorem columnRest_plain {col : TableColumn} {ts ts' : List Token} {cols : List TableColumn}
    (h : columnRest col ts = some (cols, ts')) (hcol : Plain col.name) (hts : Words ts) :
    ∀ c ∈ cols, Plain c.name := by
  fun_induction columnRest col ts generalizing cols ts' with
  | case1 col ts =>
    cases h
    exact List.forall_mem_singleton.mpr hcol
  | case2 col name type ts hident ih =>
    obtain ⟨t, -, h⟩ := Option.bind_eq_some_iff.mp h
    obtain ⟨⟨cols', ts''⟩, hrest, heq⟩ := Option.map_eq_some_iff.mp h
    cases heq
    have hname : Plain name :=
      ⟨hts name (List.mem_cons_of_mem _ List.mem_cons_self), hident⟩
    exact List.forall_mem_cons.mpr ⟨hcol, ih t hrest hname hts.tail.tail.tail⟩
  | case4 col w ts _ ih => exact ih h hcol hts.tail
  | case5 col w _ v ts _ ih => exact ih h hcol hts.tail.tail
  | case6 col w _ v ts _ _ ih => exact ih h hcol hts.tail.tail
  | _ => cases h

theorem columnDefs_plain {ts ts' : List Token} {cols : List TableColumn}
    (h : columnDefs ts = some (cols, ts')) (hts : Words ts) : ∀ c ∈ cols, Plain c.name := by
  unfold columnDefs at h
  split at h
  · rename_i name type ts
    split_ifs at h with hident
    obtain ⟨t, -, hrest⟩ := Option.bind_eq_some_iff.mp h
    exact columnRest_plain hrest ⟨hts name List.mem_cons_self, hident⟩ hts.tail.tail
  · cases h

/-! No other statement makes a table. -/

theorem insertRest_ne_createTable {table : String} {columns : List TableColumn}
    {ts ts' : List Token} : insertRest ts ≠ some (.createTable table columns, ts') := by
  intro h
  unfold insertRest at h
  obtain ⟨⟨_, _⟩, -, h⟩ := Option.bind_eq_some_iff.mp h
  obtain ⟨_, -, h⟩ := Option.bind_eq_some_iff.mp h
  obtain ⟨⟨_, _⟩, -, h⟩ := Option.bind_eq_some_iff.mp h
  obtain ⟨_, -, h⟩ := Option.bind_eq_some_iff.mp h
  obtain ⟨_, -, h⟩ := Option.bind_eq_some_iff.mp h
  obtain ⟨_, -, h⟩ := Option.bind_eq_some_iff.mp h
  obtain ⟨⟨_, _⟩, -, h⟩ := Option.bind_eq_some_iff.mp h
  obtain ⟨_, -, h⟩ := Option.bind_eq_some_iff.mp h
  cases h

theorem selectRest_ne_createTable {table : String} {columns : List TableColumn}
    {ts ts' : List Token} : selectRest ts ≠ some (.createTable table columns, ts') := by
  intro h
  unfold selectRest at h
  obtain ⟨⟨_, _⟩, -, h⟩ := Option.bind_eq_some_iff.mp h
  obtain ⟨_, -, h⟩ := Option.bind_eq_some_iff.mp h
  obtain ⟨⟨_, _⟩, -, h⟩ := Option.bind_eq_some_iff.mp h
  obtain ⟨⟨_, _⟩, -, h⟩ := Option.bind_eq_some_iff.mp h
  obtain ⟨⟨_, _⟩, -, h⟩ := Option.bind_eq_some_iff.mp h
  cases h

/-- **The names of a table are plain**: those of a `CREATE TABLE` that SQLite has
read.

The statement is the last piece of the round trip: whatever text made a table,
the names of the table could have been written by the wrapper and would be
read back. -/
theorem createTable_plain {sql table : String} {columns : List TableColumn}
    (h : parse sql = some (.createTable table columns)) :
    Plain table ∧ ∀ c ∈ columns, Plain c.name := by
  have hwords : Words (lex [] sql.toList) := words_lex (List.forall_mem_nil _)
  have hstmt : ∃ rest, statement (lex [] sql.toList)
      = some (.createTable table columns, rest) := by
    unfold parse at h
    split at h
    · rename_i stmt heq
      cases h
      exact ⟨_, heq⟩
    · cases h
  obtain ⟨rest, hstmt⟩ := hstmt
  unfold statement at hstmt
  cases hcreate : keywordList ["CREATE", "TABLE", "IF", "NOT", "EXISTS"] (lex [] sql.toList) with
  | some ts =>
    rw [hcreate] at hstmt
    have hts := hwords.of_subset (keywordList_subset hcreate)
    unfold createTableRest at hstmt
    obtain ⟨⟨name, ts₁⟩, hname, hstmt⟩ := Option.bind_eq_some_iff.mp hstmt
    obtain ⟨ts₂, hpunct, hstmt⟩ := Option.bind_eq_some_iff.mp hstmt
    obtain ⟨⟨cols, ts₃⟩, hcols, hstmt⟩ := Option.bind_eq_some_iff.mp hstmt
    cases hstmt
    obtain ⟨hplain, hsub⟩ := identifier_plain hname hts
    exact ⟨hplain, columnDefs_plain hcols
      ((hts.of_subset hsub).of_subset (punct_subset hpunct))⟩
  | none =>
    rw [hcreate] at hstmt
    dsimp only at hstmt
    split at hstmt
    · exact absurd hstmt insertRest_ne_createTable
    · obtain ⟨ts, -, hselect⟩ := Option.bind_eq_some_iff.mp hstmt
      exact absurd hselect selectRest_ne_createTable

end SqlText
