import Mathlib.Algebra.Order.BigOperators.Group.List
import TZ.Wire

/-!
# The protobuf runtime

A class that `protoc` generates parses and serialises its fields with the
functions of a runtime library. The library is a parameter here
(`Protobuf.Runtime`), under the names the generated code calls it by, and the
loop that every generated `_InternalParse` is, an instance of one definition
(`Protobuf.Runtime.parseFields`).

What is relied on in the library is stated apart: that reading takes bytes away
(`Runtime.Consumes`), so that the loop ends, and that what was written is read
back (`Runtime.Lawful`). Nothing is said about input that nobody has written;
a runtime that does what the documentation says there too is given at the end
(`Runtime.reference`).

Modelling the library would be a development of its own, and the statements do not
depend on it. They depend on a contract: what the functions do with bytes that were
written by their counterparts, and that they do not make a loop run forever. The
contract is a structure of laws over a type of streams that is left open, so that
buffers, limits and patched pointers stay inside the library. The laws are not empty:
`Runtime.reference` satisfies them.

The library is meant to be usable for other classes than those of this repository. A
generated `_InternalParse` is a loop over a `switch`; the loop is one definition here,
and a class is given by its `switch`. What is proved of the loop from the properties of
a `switch` – that it ends, that it keeps a property of the message, that it reads what
was written – is then proved of every class.
-/

namespace Protobuf

/-- What `ParseContext::Done` answers. -/
inductive Done (S : Type) where
  /-- There is more of the message. -/
  | more (s : S)
  /-- The message has ended. -/
  | finished (s : S)
  /-- The message has ended in the middle of a field. -/
  | failed

/-- **The functions of the runtime that generated code calls.** A `Stream` is a
`ParseContext` with the pointer into its buffer; where a function may return a
null pointer, there may be no stream. -/
structure Runtime (F : Type) where
  /-- A `ParseContext` and a pointer. -/
  Stream : Type
  /-- The `ParseContext` of an array of bytes. -/
  start : List UInt8 → Stream
  /-- `ctx.EndedAtLimit()`. -/
  EndedAtLimit : Stream → Bool
  /-- `ctx->Done(&ptr)`. -/
  Done : Stream → Done Stream
  /-- `ReadTag(ptr, &tag)`, which sets `tag` to 0 when it returns null. -/
  ReadTag : Stream → Option (ℕ × Stream)
  /-- `ReadVarint64(&ptr)`. -/
  ReadVarint64 : Stream → ℕ × Option Stream
  /-- `InlineGreedyStringParser(str, ptr, ctx)`: what `*str` is afterwards. -/
  InlineGreedyStringParser : List UInt8 → Stream → List UInt8 × Option Stream
  /-- `VerifyUTF8(str, …)`. -/
  VerifyUTF8 : List UInt8 → Bool
  /-- `UnalignedLoad<double>(ptr); ptr += sizeof(double)`, which checks
  nothing. -/
  UnalignedLoad : Stream → F × Stream
  /-- `ctx->ReadSizeAndPushLimitAndDepth(ptr, &old)`. -/
  PushLimit : Stream → Option Stream
  /-- `ctx->PopLimit(old)`. -/
  PopLimit : Stream → Option Stream
  /-- `UnknownFieldParse(tag, …, ptr, ctx)`. -/
  UnknownFieldParse : ℕ → Stream → Option Stream
  /-- `ctx->SetLastTag(tag)`. -/
  SetLastTag : ℕ → Stream → Stream
  /-- `ctx->DataAvailable(ptr)`. -/
  DataAvailable : Stream → Bool
  /-- `ExpectTag<tag>(ptr)`. -/
  ExpectTag : ℕ → Stream → Bool
  /-- `ptr += 1`. -/
  Advance : Stream → Stream
  /-- `stream->WriteStringMaybeAliased(n, str, target)`: what it writes. -/
  WriteStringMaybeAliased : ℕ → List UInt8 → List UInt8
  /-- `WireFormatLite::WriteDoubleToArray(n, x, target)`. -/
  WriteDoubleToArray : ℕ → F → List UInt8
  /-- `WireFormatLite::InternalWriteMessage(n, message, target, stream)`, given
  what the message is serialised to. -/
  InternalWriteMessage : ℕ → List UInt8 → List UInt8

/-- **What the `switch` of a generated loop does** with a field. -/
inductive Field (M S : Type) where
  /-- `goto handle_unusual`. -/
  | unusual
  /-- `continue`. -/
  | next (msg : M) (s : S)
  /-- `goto failure`. -/
  | failure (msg : M)

namespace Runtime

variable {F M : Type} (R : Runtime F)

/-! ## The loop

The code generator writes the same loop for every class. The helpers below are what it
writes for a field of a given kind; the order of assignment and check differs between
kinds, and is kept, since it decides what a message that was turned down contains. -/

/-- **The loop of a generated `_InternalParse`**, given its `switch`: the message
it leaves, and the pointer it returns. `fuel` bounds the number of rounds. -/
def parseFields (field : ℕ → ℕ → M → R.Stream → Field M R.Stream) :
    ℕ → M → R.Stream → M × Option R.Stream
  | 0, msg, _ => (msg, none)
  | fuel + 1, msg, s =>
    match R.Done s with
    | .failed => (msg, none)
    | .finished s => (msg, some s)
    | .more s =>
      match R.ReadTag s with
      | none => (msg, none)
      | some (tag, s) =>
        match field fuel tag msg s with
        | .next msg s => parseFields field fuel msg s
        | .failure msg => (msg, none)
        | .unusual =>
          -- `handle_unusual`: the end of a group ends the message
          if tag = 0 ∨ tag % 8 = 4 then (msg, some (R.SetLastTag tag s))
          else
            match R.UnknownFieldParse tag s with
            | none => (msg, none)
            | some s => parseFields field fuel msg s

/-- A field of type `string`. -/
def stringField (set : List UInt8 → M) (old : List UInt8) (s : R.Stream) :
    Field M R.Stream :=
  let (str, ptr) := R.InlineGreedyStringParser old s
  if R.VerifyUTF8 str then
    match ptr with
    | some s => .next (set str) s
    | none => .failure (set str)
  else .failure (set str)

/-- A field of type `int64`, which is assigned before the pointer is checked. -/
def int64Field (set : ℕ → M) (s : R.Stream) : Field M R.Stream :=
  match R.ReadVarint64 s with
  | (val, some s) => .next (set val) s
  | (val, none) => .failure (set val)

/-- A field of an enumeration, which is set after the pointer is checked. -/
def enumField (msg : M) (set : ℕ → M) (s : R.Stream) : Field M R.Stream :=
  match R.ReadVarint64 s with
  | (val, some s) => .next (set val) s
  | (_, none) => .failure msg

/-- A field of type `double`. -/
def doubleField (set : F → M) (s : R.Stream) : Field M R.Stream :=
  .next (set (R.UnalignedLoad s).1) (R.UnalignedLoad s).2

/-- `ctx->ParseMessage(msg, ptr)`, given the `_InternalParse` of the message. -/
def ParseMessage {N : Type} (InternalParse : N → R.Stream → N × Option R.Stream) (msg : N)
    (s : R.Stream) : N × Option R.Stream :=
  match R.PushLimit s with
  | none => (msg, none)
  | some s =>
    match InternalParse msg s with
    | (msg, none) => (msg, none)
    | (msg, some s) => (msg, R.PopLimit s)

/-- A field that is a message. -/
def messageField {N : Type} (set : N → M) (parsed : N × Option R.Stream) :
    Field M R.Stream :=
  match parsed with
  | (msg, some s) => .next (set msg) s
  | (msg, none) => .failure (set msg)

/-- The `do … while` loop over a repeated field of messages: one more message is
parsed as long as the next byte is the tag of the field. -/
def repeated {N : Type} (InternalParse : ℕ → N → R.Stream → N × Option R.Stream) (tag : ℕ)
    (empty : N) : ℕ → List N → R.Stream → List N × Option R.Stream
  | 0, msgs, _ => (msgs, none)
  | fuel + 1, msgs, s =>
    match R.ParseMessage (InternalParse fuel) empty s with
    | (msg, none) => (msgs ++ [msg], none)
    | (msg, some s) =>
      if !R.DataAvailable s then (msgs ++ [msg], some s)
      else if R.ExpectTag tag s then
        repeated InternalParse tag empty fuel (msgs ++ [msg]) (R.Advance s)
      else (msgs ++ [msg], some s)

/-- **`ParseFromString`**, given the `_InternalParse` of the class: whether it
succeeded, and the message it leaves. -/
def ParseFromString (InternalParse : ℕ → M → R.Stream → M × Option R.Stream) (empty : M)
    (data : List UInt8) : Bool × M :=
  match InternalParse (data.length + 1) empty (R.start data) with
  | (msg, none) => (false, msg)
  | (msg, some s) => (R.EndedAtLimit s, msg)

/-! ## What a field that is read was

If the loop goes on after a field, then the field was read. These are the inversions
that the proofs about accepted messages go by. -/

section Next

variable {R} {s s' : R.Stream} {msg msg' : M}

theorem stringField_next {set : List UInt8 → M} {old : List UInt8}
    (h : R.stringField set old s = .next msg s') :
    ∃ str, R.VerifyUTF8 str = true ∧ R.InlineGreedyStringParser old s = (str, some s')
      ∧ msg = set str := by
  unfold stringField at h
  rcases hread : R.InlineGreedyStringParser old s with ⟨str, _ | s₁⟩
  · simp only [hread] at h
    split_ifs at h
  · simp only [hread] at h
    split_ifs at h with hstr
    cases h
    exact ⟨str, hstr, rfl, rfl⟩

theorem int64Field_next {set : ℕ → M} (h : R.int64Field set s = .next msg s') :
    ∃ val, R.ReadVarint64 s = (val, some s') ∧ msg = set val := by
  unfold int64Field at h
  split at h
  · rename_i hread
    cases h
    exact ⟨_, hread, rfl⟩
  · cases h

theorem enumField_next {set : ℕ → M} (h : R.enumField msg set s = .next msg' s') :
    ∃ val, R.ReadVarint64 s = (val, some s') ∧ msg' = set val := by
  unfold enumField at h
  split at h
  · rename_i hread
    cases h
    exact ⟨_, hread, rfl⟩
  · cases h

theorem messageField_next {N : Type} {set : N → M} {parsed : N × Option R.Stream}
    (h : R.messageField set parsed = .next msg s') : parsed.2 = some s' ∧ msg = set parsed.1 := by
  obtain ⟨m, _ | s⟩ := parsed
  · cases h
  · cases h
    exact ⟨rfl, rfl⟩

theorem parseMessage_some {N : Type} {InternalParse : N → R.Stream → N × Option R.Stream}
    {empty : N} (h : (R.ParseMessage InternalParse empty s).2 = some s') :
    ∃ s₁, R.PushLimit s = some s₁ ∧ (InternalParse empty s₁).2 ≠ none
      ∧ (R.ParseMessage InternalParse empty s).1 = (InternalParse empty s₁).1 := by
  unfold ParseMessage at h ⊢
  cases hpush : R.PushLimit s with
  | none =>
    rw [hpush] at h
    cases h
  | some s₁ =>
    rcases hparse : InternalParse empty s₁ with ⟨m, _ | s₂⟩
    · simp only [hpush, hparse] at h
      cases h
    · simp only [hparse]
      exact ⟨s₁, rfl, by rw [hparse]; exact Option.some_ne_none _, by rw [hparse]⟩

theorem parseFromString_true {parse : ℕ → M → R.Stream → M × Option R.Stream} {empty : M}
    {data : List UInt8} (h : (R.ParseFromString parse empty data).1 = true) :
    (parse (data.length + 1) empty (R.start data)).2 ≠ none
      ∧ (R.ParseFromString parse empty data).2
        = (parse (data.length + 1) empty (R.start data)).1 := by
  unfold ParseFromString at h ⊢
  rcases hparse : parse (data.length + 1) empty (R.start data) with ⟨m, _ | s⟩
  · simp only [hparse] at h
    cases h
  · exact ⟨Option.some_ne_none _, rfl⟩

end Next

/-! ## The loop ends

The loop of the source has no bound. In the model it has fuel, and this section is the
reason why that is no restriction: with more fuel than there are bytes the result is
always the same. -/

/-- **Reading takes bytes away**: `left` counts the bytes between the pointer and
the end of the buffer. -/
structure Consumes (left : R.Stream → ℕ) : Prop where
  /-- At the start, at most the whole buffer is left. -/
  start : ∀ data, left (R.start data) ≤ data.length
  /-- Asking whether the loop is done takes nothing back. -/
  more : ∀ {s s'}, R.Done s = .more s' → left s' ≤ left s
  /-- The same when the answer is that it is. -/
  finished : ∀ {s s'}, R.Done s = .finished s' → left s' ≤ left s
  /-- A tag takes a byte at least. -/
  tag : ∀ {s tag s'}, R.ReadTag s = some (tag, s') → left s' < left s
  /-- A string takes nothing back. -/
  string : ∀ {old s s'}, (R.InlineGreedyStringParser old s).2 = some s' → left s' ≤ left s
  /-- Nor does a varint. -/
  varint : ∀ {s s'}, (R.ReadVarint64 s).2 = some s' → left s' ≤ left s
  /-- Nor does a double. -/
  load : ∀ s, left (R.UnalignedLoad s).2 ≤ left s
  /-- The size of a message takes a byte at least. -/
  push : ∀ {s s'}, R.PushLimit s = some s' → left s' < left s
  /-- Leaving a message takes nothing back. -/
  pop : ∀ {s s'}, R.PopLimit s = some s' → left s' ≤ left s
  /-- Nor does an unknown field. -/
  unknown : ∀ {tag s s'}, R.UnknownFieldParse tag s = some s' → left s' ≤ left s
  /-- Nor does remembering the tag a loop ended with. -/
  last : ∀ tag s, left (R.SetLastTag tag s) ≤ left s
  /-- The tag of the next element takes a byte at least. -/
  advance : ∀ {tag s}, R.DataAvailable s = true → R.ExpectTag tag s = true →
    left (R.Advance s) < left s

section Fuel

variable {R} {left : R.Stream → ℕ}

/-- A parser that does not depend on its fuel, if there is enough of it, and
gives no bytes back. -/
def Settled (left : R.Stream → ℕ) (parse : ℕ → M → R.Stream → M × Option R.Stream) : Prop :=
  ∀ fuel fuel' msg s, left s < fuel → left s < fuel' →
    parse fuel msg s = parse fuel' msg s
      ∧ ∀ s', (parse fuel msg s).2 = some s' → left s' ≤ left s

/-- The same of the `switch` of a loop. -/
def SettledField (left : R.Stream → ℕ)
    (field : ℕ → ℕ → M → R.Stream → Field M R.Stream) : Prop :=
  ∀ fuel fuel' tag msg s, left s < fuel → left s < fuel' →
    field fuel tag msg s = field fuel' tag msg s
      ∧ ∀ msg' s', field fuel tag msg s = .next msg' s' → left s' ≤ left s

/-- **The loop ends**: with more fuel than there are bytes, it does not depend on
the fuel.

By induction on the fuel: a round reads a tag, which is one byte at least, so
the bytes that are left stay fewer than the rounds that are left. -/
theorem Consumes.parseFields (hR : R.Consumes left)
    {field : ℕ → ℕ → M → R.Stream → Field M R.Stream} (hfield : SettledField left field) :
    Settled left (R.parseFields field) := by
  intro fuel
  induction fuel with
  | zero => exact fun _ _ _ h => absurd h (Nat.not_lt_zero _)
  | succ fuel ih =>
    intro fuel' msg s h h'
    obtain ⟨fuel', rfl⟩ := Nat.exists_eq_succ_of_ne_zero (Nat.ne_zero_of_lt h')
    rw [Runtime.parseFields, Runtime.parseFields]
    cases hdone : R.Done s with
    | failed => exact ⟨rfl, nofun⟩
    | finished s₁ =>
      refine ⟨rfl, fun s' hs' => ?_⟩
      cases hs'
      exact hR.finished hdone
    | more s₁ =>
      have h₁ := hR.more hdone
      cases htag : R.ReadTag s₁ with
      | none =>
        dsimp only
        rw [htag]
        exact ⟨rfl, nofun⟩
      | some r =>
        obtain ⟨tag, s₂⟩ := r
        have h₂ := hR.tag htag
        obtain ⟨heq, hnext⟩ := hfield fuel fuel' tag msg s₂ (by omega) (by omega)
        simp only [htag, ← heq]
        cases hf : field fuel tag msg s₂ with
        | failure msg' => exact ⟨rfl, nofun⟩
        | next msg' s₃ =>
          have h₃ := hnext msg' s₃ hf
          obtain ⟨hsame, hleft⟩ := ih fuel' msg' s₃ (by omega) (by omega)
          exact ⟨hsame, fun s' hs' => (hleft s' hs').trans (by omega)⟩
        | unusual =>
          dsimp only
          split_ifs
          · refine ⟨rfl, fun s' hs' => ?_⟩
            cases hs'
            exact (hR.last tag s₂).trans (by omega)
          · cases hunknown : R.UnknownFieldParse tag s₂ with
            | none => exact ⟨rfl, nofun⟩
            | some s₃ =>
              have h₃ := hR.unknown hunknown
              obtain ⟨hsame, hleft⟩ := ih fuel' msg s₃ (by omega) (by omega)
              exact ⟨hsame, fun s' hs' => (hleft s' hs').trans (by omega)⟩

theorem Consumes.stringField (hR : R.Consumes left) {set : List UInt8 → M}
    {old : List UInt8} {s s' : R.Stream} {msg : M} (h : R.stringField set old s = .next msg s') :
    left s' ≤ left s := by
  obtain ⟨str, -, hread, -⟩ := stringField_next h
  exact hR.string (congrArg Prod.snd hread)

theorem Consumes.int64Field (hR : R.Consumes left) {set : ℕ → M} {s s' : R.Stream} {msg : M}
    (h : R.int64Field set s = .next msg s') : left s' ≤ left s := by
  obtain ⟨val, hread, -⟩ := int64Field_next h
  exact hR.varint (congrArg Prod.snd hread)

theorem Consumes.enumField (hR : R.Consumes left) {set : ℕ → M} {s s' : R.Stream} {msg msg' : M}
    (h : R.enumField msg set s = .next msg' s') : left s' ≤ left s := by
  obtain ⟨val, hread, -⟩ := enumField_next h
  exact hR.varint (congrArg Prod.snd hread)

theorem Consumes.doubleField (hR : R.Consumes left) {set : F → M} {s s' : R.Stream} {msg : M}
    (h : R.doubleField set s = .next msg s') : left s' ≤ left s := by
  cases h
  exact hR.load s

/-- A message in a message. -/
theorem Consumes.parseMessage (hR : R.Consumes left) {N : Type}
    {parse : ℕ → N → R.Stream → N × Option R.Stream} (hparse : Settled left parse)
    {fuel fuel' : ℕ} (msg : N) {s : R.Stream} (h : left s ≤ fuel) (h' : left s ≤ fuel') :
    R.ParseMessage (parse fuel) msg s = R.ParseMessage (parse fuel') msg s
      ∧ ∀ s', (R.ParseMessage (parse fuel) msg s).2 = some s' → left s' < left s := by
  unfold ParseMessage
  cases hpush : R.PushLimit s with
  | none => exact ⟨rfl, nofun⟩
  | some s₁ =>
    have h₁ := hR.push hpush
    obtain ⟨heq, hleft⟩ := hparse fuel fuel' msg s₁ (by omega) (by omega)
    rcases hparsed : parse fuel msg s₁ with ⟨msg', _ | s₂⟩
    · simp only [← heq, hparsed]
      exact ⟨trivial, nofun⟩
    · simp only [← heq, hparsed]
      have h₂ := hleft s₂ (congrArg Prod.snd hparsed)
      refine ⟨trivial, fun s' hs' => ?_⟩
      have h₃ := hR.pop hs'
      omega

/-- Messages one after another. -/
theorem Consumes.repeated (hR : R.Consumes left) {N : Type}
    {parse : ℕ → N → R.Stream → N × Option R.Stream} (hparse : Settled left parse) (tag : ℕ)
    (empty : N) {fuel fuel' : ℕ} {msgs : List N} {s : R.Stream} (h : left s < fuel)
    (h' : left s < fuel') :
    R.repeated parse tag empty fuel msgs s = R.repeated parse tag empty fuel' msgs s
      ∧ ∀ s', (R.repeated parse tag empty fuel msgs s).2 = some s' → left s' ≤ left s := by
  induction fuel generalizing fuel' msgs s with
  | zero => exact absurd h (Nat.not_lt_zero _)
  | succ fuel ih =>
    obtain ⟨fuel', rfl⟩ := Nat.exists_eq_succ_of_ne_zero (Nat.ne_zero_of_lt h')
    rw [Runtime.repeated, Runtime.repeated]
    obtain ⟨heq, hleft⟩ := hR.parseMessage hparse empty (Nat.lt_succ_iff.mp h)
      (Nat.lt_succ_iff.mp h')
    rcases hparsed : R.ParseMessage (parse fuel) empty s with ⟨msg, _ | s₁⟩
    · simp only [← heq, hparsed]
      exact ⟨trivial, nofun⟩
    · simp only [← heq, hparsed]
      have h₁ := hleft s₁ (congrArg Prod.snd hparsed)
      have hstop : ∀ s', some s₁ = some s' → left s' ≤ left s := by
        rintro s' hs'
        cases hs'
        exact h₁.le
      split_ifs with havail hexpect
      · exact ⟨rfl, hstop⟩
      · have h₂ := hR.advance (by simpa using havail) hexpect
        have hrest := @ih fuel' (msgs ++ [msg]) (R.Advance s₁) (by omega) (by omega)
        exact ⟨hrest.1, fun s' hs' => (hrest.2 s' hs').trans (by omega)⟩
      · exact ⟨rfl, hstop⟩

/-- **A message is parsed to its end**: more fuel than `ParseFromString` has
makes no difference. -/
theorem Consumes.parseFromString (hR : R.Consumes left)
    {parse : ℕ → M → R.Stream → M × Option R.Stream} (hparse : Settled left parse) (empty : M)
    {data : List UInt8} {fuel : ℕ} (h : data.length < fuel) :
    parse fuel empty (R.start data) = parse (data.length + 1) empty (R.start data) :=
  (hparse fuel _ empty _ ((hR.start data).trans_lt h)
    ((hR.start data).trans_lt (Nat.lt_succ_self _))).1

end Fuel

/-- **What every field keeps the loop keeps**, if it succeeds.

Only on success: a field that fails may have stored what it has read, and that
is why a message that was turned down has to be looked at separately. -/
theorem parseFields_keeps {R : Runtime F} {field : ℕ → ℕ → M → R.Stream → Field M R.Stream}
    {P : M → Prop}
    (hfield : ∀ fuel tag msg s msg' s', field fuel tag msg s = .next msg' s' → P msg → P msg')
    {fuel : ℕ} {msg : M} {s : R.Stream} (hmsg : P msg)
    (h : (R.parseFields field fuel msg s).2 ≠ none) : P (R.parseFields field fuel msg s).1 := by
  induction fuel generalizing msg s with
  | zero => exact absurd rfl h
  | succ fuel ih =>
    rw [parseFields] at h ⊢
    cases hdone : R.Done s with
    | failed => exact hmsg
    | finished s₁ => exact hmsg
    | more s₁ =>
      rw [hdone] at h
      rcases htag : R.ReadTag s₁ with _ | ⟨tag, s₂⟩
      · simp only [htag]
        exact hmsg
      · simp only [htag] at h ⊢
        cases hf : field fuel tag msg s₂ with
        | failure msg' =>
          rw [hf] at h
          exact absurd rfl h
        | next msg' s₃ =>
          rw [hf] at h
          exact ih (hfield fuel tag msg s₂ msg' s₃ hf hmsg) h
        | unusual =>
          rw [hf] at h
          dsimp only at h ⊢
          split_ifs at h ⊢
          · exact hmsg
          · cases hunknown : R.UnknownFieldParse tag s₂ with
            | none => exact hmsg
            | some s₃ =>
              rw [hunknown] at h
              exact ih hmsg h

/-! ## What was written is read back

The laws speak of a stack of frames, one for each message that encloses the pointer,
each with the bytes that are left in it. This is how a parser sees nested messages,
and it lets a law about a nested message be stated without its surroundings. -/

/-- **What was written is read back.** `At s frames` says that `frames` is what
is left of the message under way, of the message around it, and so on;
`double` gives the bytes of a double; and no string and no message is longer
than `maxSize`. -/
structure Lawful (At : R.Stream → List (List UInt8) → Prop) (double : F → List UInt8)
    (maxSize : ℕ) : Prop where
  /-- A buffer is the message under way. -/
  start : ∀ data, At (R.start data) [data]
  /-- Parsing has ended where nothing is left. -/
  ended : ∀ {s}, At s [[]] → R.EndedAtLimit s = true
  /-- So has the loop of a message. -/
  finished : ∀ {s outer}, At s ([] :: outer) →
    ∃ s', R.Done s = .finished s' ∧ At s' ([] :: outer)
  /-- It has not where a byte is left. -/
  more : ∀ {s b bs outer}, At s ((b :: bs) :: outer) →
    ∃ s', R.Done s = .more s' ∧ At s' ((b :: bs) :: outer)
  /-- A tag of one byte is that byte. -/
  tag : ∀ {s} {b : UInt8} {bs outer}, b < 0x80 → At s ((b :: bs) :: outer) →
    ∃ s', R.ReadTag s = some (b.toNat, s') ∧ At s' (bs :: outer)
  /-- A string is its length and its bytes. -/
  string : ∀ {s str rest outer} (old), str.length ≤ maxSize →
    At s ((Wire.varint str.length ++ (str ++ rest)) :: outer) →
    ∃ s', R.InlineGreedyStringParser old s = (str, some s') ∧ At s' (rest :: outer)
  /-- A double is its bytes. -/
  load : ∀ {s x rest outer}, At s ((double x ++ rest) :: outer) →
    ∃ s', R.UnalignedLoad s = (x, s') ∧ At s' (rest :: outer)
  /-- A message is its length and its bytes; a hundred may be nested. -/
  push : ∀ {s body rest outer}, body.length ≤ maxSize → outer.length < 100 →
    At s ((Wire.varint body.length ++ (body ++ rest)) :: outer) →
    ∃ s', R.PushLimit s = some s' ∧ At s' (body :: rest :: outer)
  /-- After it comes the rest of the message around it. -/
  pop : ∀ {s rest outer}, At s ([] :: rest :: outer) →
    ∃ s', R.PopLimit s = some s' ∧ At s' (rest :: outer)
  /-- Where nothing is left there is no next tag. -/
  unavailable : ∀ {s outer}, At s ([] :: outer) → R.DataAvailable s = false
  /-- The next tag is the next byte. -/
  expect : ∀ {s} {b : UInt8} {bs outer} (tag), At s ((b :: bs) :: outer) →
    R.DataAvailable s = true → R.ExpectTag tag s = decide (b.toNat = tag)
  /-- It is skipped. -/
  advance : ∀ {s b bs outer}, At s ((b :: bs) :: outer) → At (R.Advance s) (bs :: outer)
  /-- A string is written as it is read. -/
  writeString : ∀ n str, R.WriteStringMaybeAliased n str
    = (8 * n + 2).toUInt8 :: (Wire.varint str.length ++ str)
  /-- So is a double. -/
  writeDouble : ∀ n x, R.WriteDoubleToArray n x = (8 * n + 1).toUInt8 :: double x
  /-- So is a message. -/
  writeMessage : ∀ n body, R.InternalWriteMessage n body
    = (8 * n + 2).toUInt8 :: (Wire.varint body.length ++ body)
  /-- An empty string is well-formed. -/
  verify_nil : R.VerifyUTF8 [] = true
  /-- A string that is well-formed is so up to its first NUL byte. -/
  verify_cut : ∀ {str}, R.VerifyUTF8 str = true →
    R.VerifyUTF8 (str.takeWhile fun b => b ≠ 0) = true

section Lawful

variable {R} {At : R.Stream → List (List UInt8) → Prop} {double : F → List UInt8} {maxSize : ℕ}
  {field : ℕ → ℕ → M → R.Stream → Field M R.Stream} {fuel : ℕ} {msg : M} {s : R.Stream}
  {outer : List (List UInt8)}

/-- The loop ends with the message. -/
theorem Lawful.parse_nil (hR : R.Lawful At double maxSize) (hs : At s ([] :: outer)) :
    ∃ s', R.parseFields field (fuel + 1) msg s = (msg, some s') ∧ At s' ([] :: outer) := by
  obtain ⟨s', hdone, hs'⟩ := hR.finished hs
  rw [parseFields, hdone]
  exact ⟨s', rfl, hs'⟩

/-- The loop hands the next field to its `switch`. -/
theorem Lawful.parse_cons (hR : R.Lawful At double maxSize) {b : UInt8} (hb : b < 0x80)
    {bs : List UInt8} (hs : At s ((b :: bs) :: outer)) :
    ∃ s', At s' (bs :: outer) ∧ R.parseFields field (fuel + 1) msg s
      = match field fuel b.toNat msg s' with
        | .next msg s => R.parseFields field fuel msg s
        | .failure msg => (msg, none)
        | .unusual =>
          if b.toNat = 0 ∨ b.toNat % 8 = 4 then (msg, some (R.SetLastTag b.toNat s'))
          else
            match R.UnknownFieldParse b.toNat s' with
            | none => (msg, none)
            | some s => R.parseFields field fuel msg s := by
  obtain ⟨s₁, hdone, hs₁⟩ := hR.more hs
  obtain ⟨s₂, htag, hs₂⟩ := hR.tag hb hs₁
  refine ⟨s₂, hs₂, ?_⟩
  rw [parseFields, hdone]
  dsimp only
  rw [htag]

/-- A string that was written is read back, if it is well-formed. -/
theorem Lawful.read_string (hR : R.Lawful At double maxSize) {str rest : List UInt8}
    (hstr : R.VerifyUTF8 str = true) (hlen : str.length ≤ maxSize)
    (hs : At s ((Wire.varint str.length ++ (str ++ rest)) :: outer)) (set : List UInt8 → M)
    (old : List UInt8) :
    ∃ s', R.stringField set old s = .next (set str) s' ∧ At s' (rest :: outer) := by
  obtain ⟨s', hread, hs'⟩ := hR.string old hlen hs
  refine ⟨s', ?_, hs'⟩
  rw [stringField, hread]
  exact if_pos hstr

/-- A string that is not well-formed is read, and then the loop fails. -/
theorem Lawful.reject_string (hR : R.Lawful At double maxSize) {str rest : List UInt8}
    (hstr : R.VerifyUTF8 str = false) (hlen : str.length ≤ maxSize)
    (hs : At s ((Wire.varint str.length ++ (str ++ rest)) :: outer)) (set : List UInt8 → M)
    (old : List UInt8) : R.stringField set old s = .failure (set str) := by
  obtain ⟨s', hread, -⟩ := hR.string old hlen hs
  rw [stringField, hread]
  exact if_neg (Bool.eq_false_iff.mp hstr)

/-- A double that was written is read back. -/
theorem Lawful.read_double (hR : R.Lawful At double maxSize) {x : F} {rest : List UInt8}
    (hs : At s ((double x ++ rest) :: outer)) (set : F → M) :
    ∃ s', R.doubleField set s = .next (set x) s' ∧ At s' (rest :: outer) := by
  obtain ⟨s', hload, hs'⟩ := hR.load hs
  exact ⟨s', by rw [doubleField, hload], hs'⟩

section Message

variable {N : Type} {parse : N → R.Stream → N × Option R.Stream} {body rest : List UInt8}

/-- A message that was written into a message is read back, if its class reads it
back. -/
theorem Lawful.read_message (hR : R.Lawful At double maxSize) (hlen : body.length ≤ maxSize)
    (hdepth : outer.length < 100)
    (hs : At s ((Wire.varint body.length ++ (body ++ rest)) :: outer)) {msg msg' : N}
    (hparse : ∀ s, At s (body :: rest :: outer) →
      ∃ s', parse msg s = (msg', some s') ∧ At s' ([] :: rest :: outer)) :
    ∃ s', R.ParseMessage parse msg s = (msg', some s') ∧ At s' (rest :: outer) := by
  obtain ⟨s₁, hpush, hs₁⟩ := hR.push hlen hdepth hs
  obtain ⟨s₂, hmsg, hs₂⟩ := hparse s₁ hs₁
  obtain ⟨s₃, hpop, hs₃⟩ := hR.pop hs₂
  refine ⟨s₃, ?_, hs₃⟩
  unfold ParseMessage
  rw [hpush]
  dsimp only
  rw [hmsg]
  exact congrArg (Prod.mk msg') hpop

/-- A message that its class turns down is turned down in a message. -/
theorem Lawful.reject_message (hR : R.Lawful At double maxSize) (hlen : body.length ≤ maxSize)
    (hdepth : outer.length < 100)
    (hs : At s ((Wire.varint body.length ++ (body ++ rest)) :: outer)) {msg : N}
    (hparse : ∀ s, At s (body :: rest :: outer) → (parse msg s).2 = none) :
    (R.ParseMessage parse msg s).2 = none := by
  obtain ⟨s₁, hpush, hs₁⟩ := hR.push hlen hdepth hs
  unfold ParseMessage
  rw [hpush]
  have hnone := hparse s₁ hs₁
  rcases hmsg : parse msg s₁ with ⟨msg', _ | s₂⟩
  · simp only [hmsg]
  · rw [hmsg] at hnone
    cases hnone

end Message

/-- **What a loop makes of some bytes**: it goes on with those that follow, with
the message changed by `step`.

It is a property of bytes and a change of the message. Such properties compose
by appending (`Reads.append`), and that is how a message is read field by
field. -/
def Reads (R : Runtime F) (At : R.Stream → List (List UInt8) → Prop)
    (field : ℕ → ℕ → M → R.Stream → Field M R.Stream) (bytes : List UInt8) (step : M → M) :
    Prop :=
  ∀ fuel msg s rest outer, (bytes ++ rest).length < fuel → At s ((bytes ++ rest) :: outer) →
    ∃ fuel' s', rest.length < fuel' ∧ At s' (rest :: outer)
      ∧ R.parseFields field fuel msg s = R.parseFields field fuel' (step msg) s'

theorem Reads.nil : R.Reads At field [] id :=
  fun fuel _ s _ _ hlen hs => ⟨fuel, s, hlen, hs, rfl⟩

theorem Reads.append {bytes bytes' : List UInt8} {step step' : M → M}
    (h : R.Reads At field bytes step) (h' : R.Reads At field bytes' step') :
    R.Reads At field (bytes ++ bytes') (step' ∘ step) := by
  intro fuel msg s rest outer hlen hs
  rw [List.append_assoc] at hlen hs
  obtain ⟨fuel₁, s₁, hlen₁, hs₁, hrun₁⟩ := h fuel msg s _ outer hlen hs
  obtain ⟨fuel₂, s₂, hlen₂, hs₂, hrun₂⟩ := h' fuel₁ (step msg) s₁ rest outer hlen₁ hs₁
  exact ⟨fuel₂, s₂, hlen₂, hs₂, hrun₁.trans hrun₂⟩

/-- A field that its `switch` reads. -/
theorem Lawful.reads_field (hR : R.Lawful At double maxSize) {b : UInt8} (hb : b < 0x80)
    {payload : List UInt8} {step : M → M}
    (hfield : ∀ fuel msg s rest outer, At s ((payload ++ rest) :: outer) →
      ∃ s', field fuel b.toNat msg s = .next (step msg) s' ∧ At s' (rest :: outer)) :
    R.Reads At field (b :: payload) step := by
  intro fuel msg s rest outer hlen hs
  obtain ⟨fuel, rfl⟩ := Nat.exists_eq_succ_of_ne_zero (Nat.ne_zero_of_lt hlen)
  obtain ⟨s₁, hs₁, hrun⟩ := hR.parse_cons hb hs
  obtain ⟨s₂, hnext, hs₂⟩ := hfield fuel msg s₁ rest outer hs₁
  refine ⟨fuel, s₂, ?_, hs₂, ?_⟩
  · rw [List.cons_append, List.length_cons, Nat.succ_lt_succ_iff, List.length_append] at hlen
    exact (Nat.le_add_left _ _).trans_lt hlen
  · rw [hrun, hnext]

/-- A field that its `switch` turns down. -/
theorem Lawful.fails_field (hR : R.Lawful At double maxSize) {b : UInt8} (hb : b < 0x80)
    {bs : List UInt8} (hs : At s ((b :: bs) :: outer))
    (hfield : ∀ fuel s, At s (bs :: outer) → ∃ msg', field fuel b.toNat msg s = .failure msg') :
    (R.parseFields field fuel msg s).2 = none := by
  cases fuel with
  | zero => rfl
  | succ fuel =>
    obtain ⟨s₁, hs₁, hrun⟩ := hR.parse_cons hb hs
    obtain ⟨msg', hfailure⟩ := hfield fuel s₁ hs₁
    rw [hrun, hfailure]

/-- **A message is read to its end.**

The end of the message is the end of its frame. -/
theorem Lawful.parse_reads (hR : R.Lawful At double maxSize) {bytes : List UInt8}
    {step : M → M} (h : R.Reads At field bytes step) (hlen : bytes.length < fuel)
    (hs : At s (bytes :: outer)) :
    ∃ s', R.parseFields field fuel msg s = (step msg, some s') ∧ At s' ([] :: outer) := by
  rw [← List.append_nil bytes] at hlen hs
  obtain ⟨fuel', s₁, hlen₁, hs₁, hrun⟩ := h fuel msg s [] outer hlen hs
  obtain ⟨fuel', rfl⟩ := Nat.exists_eq_succ_of_ne_zero (Nat.ne_zero_of_lt hlen₁)
  rw [hrun]
  exact hR.parse_nil hs₁

end Lawful

end Runtime

/-! ## A runtime

For the laws to be about something. It reads from a list of bytes and keeps the limits
as a list of numbers; unknown fields and groups are skipped as the wire format
prescribes. -/

namespace Reference

/-- A `ParseContext` with its pointer. -/
structure Stream where
  /-- What is left of the message under way. -/
  current : List UInt8
  /-- What will be left of those around it, unless one is longer than the one
  around it. -/
  outer : List (Option (List UInt8))
  /-- Whether the pointer is past the end. -/
  overrun : Bool
  /-- The tag the loop ended with. -/
  lastTag : Option ℕ

/-- The bytes are read from here on. -/
def Stream.at (s : Stream) (rest : List UInt8) : Stream := { s with current := rest }

/-- No string and no message is longer than this. -/
def maxSize : ℕ := 2 ^ 31 - 17

/-- `ReadSize`. -/
def readSize (s : Stream) : Option (ℕ × Stream) :=
  match Wire.readVarint 5 s.current with
  | some (n, rest) => if n ≤ maxSize then some (n, s.at rest) else none
  | none => none

/-- The pointer is moved without a check. -/
def skip (n : ℕ) (s : Stream) : Stream :=
  { s with current := s.current.drop n, overrun := s.overrun || s.current.length < n }

/-- `ctx->Done(&ptr)`. -/
def done (s : Stream) : Done Stream :=
  if s.overrun then .failed
  else match s.current with
    | [] => .finished s
    | _ :: _ => .more s

/-- `ReadTag(ptr, &tag)`. -/
def readTag (s : Stream) : Option (ℕ × Stream) :=
  (Wire.readVarint 5 s.current).map fun r => (r.1 % 2 ^ 32, s.at r.2)

/-- `ReadVarint64(&ptr)`. -/
def readVarint64 (s : Stream) : ℕ × Option Stream :=
  match Wire.readVarint 10 s.current with
  | some (n, rest) => (n % 2 ^ 64, some (s.at rest))
  | none => (0, none)

/-- `InlineGreedyStringParser(str, ptr, ctx)`. -/
def readString (old : List UInt8) (s : Stream) : List UInt8 × Option Stream :=
  match readSize s with
  | none => (old, none)
  | some (n, s) =>
    if n ≤ s.current.length then (s.current.take n, some (s.at (s.current.drop n)))
    else (s.current, none)

/-- `ctx->ReadSizeAndPushLimitAndDepth(ptr, &old)`. -/
def pushLimit (s : Stream) : Option Stream :=
  match readSize s with
  | none => none
  | some (n, s) =>
    if 100 ≤ s.outer.length then none
    else if n ≤ s.current.length then
      some { s with current := s.current.take n, outer := some (s.current.drop n) :: s.outer }
    else some { s with outer := none :: s.outer }

/-- `ctx->PopLimit(old)`. -/
def popLimit (s : Stream) : Option Stream :=
  match s.lastTag, s.outer with
  | none, some rest :: outer => some { s with current := rest, outer := outer }
  | _, _ => none

/-- An unknown field that is no group. -/
def skipValue (tag : ℕ) (s : Stream) : Option Stream :=
  match tag % 8 with
  | 0 => (readVarint64 s).2
  | 1 => some (skip 8 s)
  | 2 => (readString [] s).2
  | 5 => some (skip 4 s)
  | _ => none

/-- The fields of unknown groups, up to the ends of the groups. -/
def skipGroups : ℕ → List ℕ → Stream → Option Stream
  | _, [], s => some s
  | 0, _ :: _, _ => none
  | fuel + 1, group :: groups, s =>
    match done s with
    | .more s =>
      match readTag s with
      | none => none
      | some (tag, s) =>
        if tag = 8 * group + 4 then skipGroups fuel groups s
        else if tag / 8 = 0 then none
        else if tag % 8 = 3 then skipGroups fuel (tag / 8 :: group :: groups) s
        else
          match skipValue tag s with
          | none => none
          | some s => skipGroups fuel (group :: groups) s
    | _ => none

/-- `UnknownFieldParse(tag, …, ptr, ctx)`. -/
def skipField (tag : ℕ) (s : Stream) : Option Stream :=
  if tag / 8 = 0 then none
  else if tag % 8 = 3 then skipGroups (s.current.length + 1) [tag / 8] s
  else skipValue tag s

end Reference

/-- **A runtime that does what the documentation says**, for doubles given by
their bits. -/
def Runtime.reference {F : Type} (bits : F → ℕ) (ofBits : ℕ → F) : Runtime F where
  Stream := Reference.Stream
  start data := ⟨data, [], false, none⟩
  EndedAtLimit s := s.lastTag.isNone
  Done := Reference.done
  ReadTag := Reference.readTag
  ReadVarint64 := Reference.readVarint64
  InlineGreedyStringParser := Reference.readString
  VerifyUTF8 := Wire.utf8
  UnalignedLoad s := (ofBits (Wire.readFixed (s.current.take 8)), Reference.skip 8 s)
  PushLimit := Reference.pushLimit
  PopLimit := Reference.popLimit
  UnknownFieldParse := Reference.skipField
  SetLastTag tag s := { s with lastTag := some tag }
  DataAvailable s := !s.current.isEmpty
  ExpectTag tag s := s.current.head?.map UInt8.toNat == some tag
  Advance s := s.at s.current.tail
  WriteStringMaybeAliased n str := (8 * n + 2).toUInt8 :: (Wire.varint str.length ++ str)
  WriteDoubleToArray n x := (8 * n + 1).toUInt8 :: Wire.fixed 8 (bits x)
  InternalWriteMessage n body := (8 * n + 2).toUInt8 :: (Wire.varint body.length ++ body)

namespace Reference

/-- A stream is in the middle of messages, each of which ends within the one
around it. -/
def At (s : Stream) (frames : List (List UInt8)) : Prop :=
  ∃ current outer, frames = current :: outer ∧ s = ⟨current, outer.map some, false, none⟩

theorem readSize_varint {n : ℕ} (hn : n ≤ maxSize) {s : Stream} {rest : List UInt8}
    (hs : s.current = Wire.varint n ++ rest) : readSize s = some (n, s.at rest) := by
  have hlt : n < 128 ^ (4 + 1) := hn.trans_lt (by decide)
  rw [readSize, hs, Wire.readVarint_varint hlt]
  exact if_pos hn

/-- **It reads back what it writes**, if doubles are their bits. -/
theorem lawful {F : Type} {bits : F → ℕ} {ofBits : ℕ → F} (hbits : ∀ x, ofBits (bits x) = x)
    (hlt : ∀ x, bits x < 2 ^ 64) :
    (Runtime.reference bits ofBits).Lawful At (fun x => Wire.fixed 8 (bits x)) maxSize where
  start data := ⟨data, [], rfl, rfl⟩
  ended := by
    rintro s ⟨current, outer, hframes, rfl⟩
    rfl
  finished := by
    rintro s outer ⟨_, _, hframes, rfl⟩
    cases hframes
    exact ⟨_, rfl, [], outer, rfl, rfl⟩
  more := by
    rintro s b bs outer ⟨_, _, hframes, rfl⟩
    cases hframes
    exact ⟨_, rfl, b :: bs, outer, rfl, rfl⟩
  tag := by
    rintro s b bs outer hb ⟨_, _, hframes, rfl⟩
    cases hframes
    have hb : b.toNat < 128 := UInt8.lt_iff_toNat_lt.mp hb
    refine ⟨⟨bs, outer.map some, false, none⟩, ?_, bs, outer, rfl, rfl⟩
    show (Wire.readVarint 5 (b :: bs)).map _ = _
    rw [Wire.readVarint, if_pos hb]
    show some (b.toNat % 2 ^ 32, _) = _
    rw [Nat.mod_eq_of_lt (hb.trans (by decide))]
    rfl
  string := by
    rintro s str rest outer old hlen ⟨_, _, hframes, rfl⟩
    cases hframes
    refine ⟨⟨rest, outer.map some, false, none⟩, ?_, rest, outer, rfl, rfl⟩
    show readString old _ = _
    rw [readString, readSize_varint hlen rfl]
    show (if str.length ≤ (str ++ rest).length then _ else _) = _
    rw [if_pos (by simp)]
    show ((str ++ rest).take str.length, some (Stream.at _ ((str ++ rest).drop str.length))) = _
    rw [List.take_left, List.drop_left]
    rfl
  load := by
    rintro s x rest outer ⟨_, _, hframes, rfl⟩
    cases hframes
    have htake : (Wire.fixed 8 (bits x) ++ rest).take 8 = Wire.fixed 8 (bits x) :=
      List.take_left' (Wire.length_fixed 8 _)
    have hdrop : (Wire.fixed 8 (bits x) ++ rest).drop 8 = rest :=
      List.drop_left' (Wire.length_fixed 8 _)
    have hlen : ¬ (Wire.fixed 8 (bits x) ++ rest).length < 8 := by simp
    refine ⟨⟨rest, outer.map some, false, none⟩, ?_, rest, outer, rfl, rfl⟩
    show (ofBits (Wire.readFixed ((Wire.fixed 8 (bits x) ++ rest).take 8)), skip 8 _) = _
    rw [htake, Wire.readFixed_fixed ((hlt x).trans_eq (show 2 ^ 64 = 256 ^ 8 by decide)), hbits,
      skip]
    simp only [hdrop, decide_eq_false hlen, Bool.or_self]
    rfl
  push := by
    rintro s body rest outer hlen hdepth ⟨_, _, hframes, rfl⟩
    cases hframes
    refine ⟨⟨body, some rest :: outer.map some, false, none⟩, ?_, body, rest :: outer, rfl, rfl⟩
    show pushLimit _ = _
    rw [pushLimit, readSize_varint hlen rfl]
    show (if 100 ≤ (outer.map some).length then none else _) = _
    rw [if_neg (by simpa using hdepth)]
    show (if body.length ≤ (body ++ rest).length then _ else _) = _
    rw [if_pos (by simp)]
    show some (Stream.mk ((body ++ rest).take body.length)
      (some ((body ++ rest).drop body.length) :: outer.map some) false none) = _
    rw [List.take_left, List.drop_left]
    rfl
  pop := by
    rintro s rest outer ⟨_, _, hframes, rfl⟩
    cases hframes
    exact ⟨⟨rest, outer.map some, false, none⟩, rfl, rest, outer, rfl, rfl⟩
  unavailable := by
    rintro s outer ⟨_, _, hframes, rfl⟩
    cases hframes
    rfl
  expect := by
    rintro s b bs outer tag ⟨_, _, hframes, rfl⟩ -
    cases hframes
    show (some b.toNat == some tag) = decide (b.toNat = tag)
    rw [Option.some_beq_some]
    rfl
  advance := by
    rintro s b bs outer ⟨_, _, hframes, rfl⟩
    cases hframes
    exact ⟨bs, outer, rfl, rfl⟩
  writeString _ _ := rfl
  writeDouble _ _ := rfl
  writeMessage _ _ := rfl
  verify_nil := rfl
  verify_cut := Wire.utf8_takeWhile

/-- The bytes that are left. -/
def left (s : Stream) : ℕ :=
  s.current.length + (s.outer.map fun frame => (frame.getD []).length).sum

theorem left_at {s : Stream} {rest : List UInt8} (h : rest.length ≤ s.current.length) :
    left (s.at rest) ≤ left s :=
  Nat.add_le_add_right h _

theorem left_skip (n : ℕ) (s : Stream) : left (skip n s) ≤ left s :=
  Nat.add_le_add_right (List.length_drop .. |>.trans_le (Nat.sub_le _ _)) _

theorem left_readSize {s s' : Stream} {n : ℕ} (h : readSize s = some (n, s')) :
    left s' < left s := by
  unfold readSize at h
  split at h
  · rename_i hread
    split_ifs at h
    cases h
    exact Nat.add_lt_add_right (Wire.readVarint_length hread) _
  · cases h

theorem left_readTag {s s' : Stream} {tag : ℕ} (h : readTag s = some (tag, s')) :
    left s' < left s := by
  obtain ⟨r, hread, hr⟩ := Option.map_eq_some_iff.mp h
  cases hr
  exact Nat.add_lt_add_right (Wire.readVarint_length hread) _

theorem left_readVarint64 {s s' : Stream} (h : (readVarint64 s).2 = some s') :
    left s' ≤ left s := by
  unfold readVarint64 at h
  split at h
  · rename_i hread
    cases h
    exact left_at (Wire.readVarint_length hread).le
  · cases h

theorem left_readString {old : List UInt8} {s s' : Stream}
    (h : (readString old s).2 = some s') : left s' ≤ left s := by
  unfold readString at h
  split at h
  · cases h
  · rename_i n s₁ hsize
    split_ifs at h
    cases h
    exact (left_at (List.length_drop .. |>.trans_le (Nat.sub_le _ _))).trans
      (left_readSize hsize).le

theorem left_skipValue {tag : ℕ} {s s' : Stream} (h : skipValue tag s = some s') :
    left s' ≤ left s := by
  unfold skipValue at h
  split at h
  · exact left_readVarint64 h
  · cases h
    exact left_skip 8 s
  · exact left_readString h
  · cases h
    exact left_skip 4 s
  · cases h

theorem done_more {s s' : Stream} (h : done s = .more s') : s' = s := by
  unfold done at h
  split_ifs at h
  split at h <;> cases h
  rfl

theorem left_skipGroups {fuel : ℕ} {groups : List ℕ} {s s' : Stream}
    (h : skipGroups fuel groups s = some s') : left s' ≤ left s := by
  induction fuel generalizing groups s with
  | zero =>
    cases groups with
    | nil =>
      cases h
      exact le_rfl
    | cons group groups => cases h
  | succ fuel ih =>
    cases groups with
    | nil =>
      cases h
      exact le_rfl
    | cons group groups =>
      rw [skipGroups] at h
      split at h
      · rename_i s₁ hdone
        rw [done_more hdone] at h
        split at h
        · cases h
        · rename_i tag s₂ htag
          have h₂ := (left_readTag htag).le
          split_ifs at h
          · exact (ih h).trans h₂
          · exact (ih h).trans h₂
          · split at h
            · cases h
            · rename_i s₃ hvalue
              exact (ih h).trans ((left_skipValue hvalue).trans h₂)
      · cases h

/-- **It takes bytes away.**

The pointer moves forward in every function, except where nothing is read. -/
theorem consumes {F : Type} (bits : F → ℕ) (ofBits : ℕ → F) :
    (Runtime.reference bits ofBits).Consumes left where
  start data := (Nat.add_zero _).le
  more h := (done_more h ▸ le_rfl : left _ ≤ left _)
  finished {s s'} h := by
    have h : done s = .finished s' := h
    unfold done at h
    split_ifs at h
    split at h <;> cases h
    exact le_rfl
  tag := left_readTag
  string := left_readString
  varint := left_readVarint64
  load := left_skip 8
  push {s s'} h := by
    have h : pushLimit s = some s' := h
    unfold pushLimit at h
    split at h
    · cases h
    · rename_i n s₁ hsize
      have h₁ := left_readSize hsize
      split_ifs at h
      · cases h
        refine lt_of_le_of_lt (le_of_eq ?_) h₁
        show (s₁.current.take n).length + ((s₁.current.drop n).length + _) = _
        rw [← Nat.add_assoc, ← List.length_append, List.take_append_drop]
        rfl
      · cases h
        refine lt_of_le_of_lt (le_of_eq ?_) h₁
        show s₁.current.length + (0 + _) = _
        rw [Nat.zero_add]
        rfl
  pop {s s'} h := by
    have h : popLimit s = some s' := h
    unfold popLimit at h
    split at h
    · rename_i rest outer _ houter
      cases h
      show rest.length + _ ≤ s.current.length + _
      rw [houter]
      exact Nat.le_add_left _ _
    · cases h
  unknown {tag s s'} h := by
    have h : skipField tag s = some s' := h
    unfold skipField at h
    split_ifs at h
    · exact left_skipGroups h
    · exact left_skipValue h
  last _ _ := le_rfl
  advance {tag s} havail _ := by
    have havail : (!s.current.isEmpty) = true := havail
    show s.current.tail.length + _ < s.current.length + _
    refine Nat.add_lt_add_right ?_ _
    cases hcurrent : s.current with
    | nil =>
      rw [hcurrent] at havail
      cases havail
    | cons b bs => exact Nat.lt_succ_self _

end Reference

end Protobuf
