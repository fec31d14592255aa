import TZ.Rejected

/-!
# What the client reads of a reply

A reply is serialised by the server and parsed by the client, with classes
generated from the same description. Every entry comes back in its place with
its `uuid` and its figures – as long as every `uuid` is UTF-8, which the
serialiser only reports and the parser insists on: one that is not makes the
client's `ParseFromString` fail (`ServerStatistic.parse_serialize_iff`).

A message that the server's own parser accepts has a well-formed `uuid`, and
so has what is left of it at its first NUL byte. Only a message that was
turned down and handled all the same can bring another into the database
(`replies_read`).

The asymmetry is in the runtime and not in this program: writing a string that is not
UTF-8 logs an error and writes it, reading one fails. Two programs that use the same
description therefore do not agree on all messages, and the set on which they do is an
invariant of everything that can get into the database. This is why half of the module
is about serialising and the other half about runs of the server.

For the first half a reply cannot be taken as a whole, since the parser has two loops,
one inside the other: the inner one reads entries as long as there are bytes in the
buffer and the next tag is the same, the outer one goes on from there. Where the inner
loop stops depends on how the bytes have been cut into buffers. So what it does is
stated with the place where it stops left open (`ServerStatistic.repeated_serialize`),
and the outer loop is shown to come to the same whatever that was.

For the second half, the property of a uuid is a parameter. That every uuid in the
database has it is kept by any server whose messages bring in no other; which uuids are
well-formed comes in only at the end.
-/

open Protobuf

variable {F : Type} [Double F]

/-! ## An entry on the wire

The runtime is a parameter, with the laws of `TZ.Protobuf` as a hypothesis: what was
written is read back, and a string that is not UTF-8 is not. The generated code is
what is modelled, field by field. -/

namespace ServerStatistic

/-- A figure that has been over the wire: a zero, of either sign, comes back as
the default.

The serialiser compares with zero and not with the bits of the default, so of
the two zeros neither is written. -/
def received (x : F) : F := if Double.isZero x then Double.zero else x

/-- An entry that has been over the wire. -/
def Statistic.received (msg : Statistic F) : Statistic F where
  uuid := msg.uuid
  x1 := ServerStatistic.received msg.x1
  y1 := ServerStatistic.received msg.y1
  x5 := ServerStatistic.received msg.x5
  y5 := ServerStatistic.received msg.y5

variable {R : Runtime F} {At : R.Stream → List (List UInt8) → Prop} {double : F → List UInt8}
  {maxSize : ℕ}

section Lawful

variable (hR : R.Lawful At double maxSize)
include hR

/-- A double is read into its field, unless it was left out.

The four figures have the same code with another number, so the lemma has the
tag and the field as parameters. It is about a field that may be absent from
the message, which leaves the figure as it was. -/
theorem reads_double {M : Type} (field : ℕ → ℕ → M → R.Stream → Field M R.Stream) {n : ℕ}
    {b : UInt8} (hb : b < 0x80) (hn : Nat.toUInt8 (8 * n + 1) = b) (figure : M → F)
    (put : F → M → M) (hput : ∀ msg, put (figure msg) msg = msg)
    (hfield : ∀ fuel msg s, field fuel b.toNat msg s = R.doubleField (fun x => put x msg) s)
    (x : F) :
    R.Reads At field (writeDouble R n x)
      fun msg => put (if Double.isZero x then figure msg else x) msg := by
  unfold writeDouble
  split_ifs
  · simp only [hput]
    exact Runtime.Reads.nil
  · rw [hR.writeDouble, hn]
    refine hR.reads_field hb fun fuel msg s rest outer hs => ?_
    rw [hfield]
    exact hR.read_double hs _

omit [Double F] in
/-- A `uuid` is read into the first field, unless it was left out.

The same for the text, which both kinds of messages have. -/
theorem reads_uuid {M : Type} (field : ℕ → ℕ → M → R.Stream → Field M R.Stream)
    (text : M → Bytes) (put : Bytes → M → M) (hput : ∀ msg, put (text msg) msg = msg)
    (hfield : ∀ fuel msg s,
      field fuel 10 msg s = R.stringField (fun uuid => put uuid msg) (text msg) s)
    {uuid : Bytes} (huuid : R.VerifyUTF8 uuid = true) (hlen : uuid.length ≤ maxSize) :
    R.Reads At field (if uuid.isEmpty then [] else R.WriteStringMaybeAliased 1 uuid)
      fun msg => put (if uuid.isEmpty then text msg else uuid) msg := by
  split_ifs
  · simp only [hput]
    exact Runtime.Reads.nil
  · rw [hR.writeString]
    refine hR.reads_field (b := 10) (by decide) fun fuel msg s rest outer hs => ?_
    rw [List.append_assoc] at hs
    obtain ⟨s', hread, hs'⟩ := hR.read_string huuid hlen hs (fun uuid => put uuid msg) (text msg)
    exact ⟨s', (hfield fuel msg s).trans hread, hs'⟩

/-- **An entry is read back**, if its `uuid` is well-formed.

The fields are read one after the other from the front. The fuel is what
bounds the loop of the model; it is enough if it is more than the bytes there
are, since every round reads at least one. -/
theorem Statistic.parse_serialize {msg : Statistic F} (huuid : R.VerifyUTF8 msg.uuid = true)
    (hlen : msg.uuid.length ≤ maxSize) {fuel : ℕ}
    (hfuel : (msg.InternalSerialize R).length < fuel) {s : R.Stream}
    {outer : List (List UInt8)} (hs : At s (msg.InternalSerialize R :: outer)) :
    ∃ s', Statistic.InternalParse R fuel (Statistic.default F) s = (msg.received, some s')
      ∧ At s' ([] :: outer) := by
  have huuid := reads_uuid hR (Statistic.field R) Statistic.uuid
    (fun uuid msg => { msg with uuid := uuid }) (fun _ => rfl) (fun _ _ _ => rfl) huuid hlen
  have hx1 := reads_double hR (Statistic.field R) (n := 2) (b := 17) (by decide) rfl Statistic.x1
    (fun x msg => { msg with x1 := x }) (fun _ => rfl) (fun _ _ _ => rfl) msg.x1
  have hy1 := reads_double hR (Statistic.field R) (n := 3) (b := 25) (by decide) rfl Statistic.y1
    (fun y msg => { msg with y1 := y }) (fun _ => rfl) (fun _ _ _ => rfl) msg.y1
  have hx5 := reads_double hR (Statistic.field R) (n := 4) (b := 33) (by decide) rfl Statistic.x5
    (fun x msg => { msg with x5 := x }) (fun _ => rfl) (fun _ _ _ => rfl) msg.x5
  have hy5 := reads_double hR (Statistic.field R) (n := 5) (b := 41) (by decide) rfl Statistic.y5
    (fun y msg => { msg with y5 := y }) (fun _ => rfl) (fun _ _ _ => rfl) msg.y5
  obtain ⟨s', hparse, hs'⟩ := hR.parse_reads
    (huuid.append (hx1.append (hy1.append (hx5.append hy5)))) hfuel hs
  refine ⟨s', hparse.trans ?_, hs'⟩
  have hempty : (if msg.uuid.isEmpty then [] else msg.uuid) = msg.uuid := by
    cases msg.uuid <;> rfl
  show (({ msg.received with uuid := if msg.uuid.isEmpty then [] else msg.uuid } :
    Statistic F), some s') = _
  rw [hempty]
  rfl

/-- An entry whose `uuid` is not well-formed is turned down.

The uuid is the first field, so nothing of the entry has been read when it
fails. -/
theorem Statistic.parse_rejects {msg : Statistic F} (huuid : R.VerifyUTF8 msg.uuid = false)
    (hlen : msg.uuid.length ≤ maxSize) (fuel : ℕ) {s : R.Stream}
    {outer : List (List UInt8)} (hs : At s (msg.InternalSerialize R :: outer)) :
    (Statistic.InternalParse R fuel (Statistic.default F) s).2 = none := by
  have hempty : msg.uuid.isEmpty = false := by
    refine Bool.eq_false_iff.mpr fun h => ?_
    rw [List.isEmpty_iff.mp h, hR.verify_nil] at huuid
    cases huuid
  unfold Statistic.InternalSerialize at hs
  rw [hempty, if_neg Bool.false_ne_true, hR.writeString, List.cons_append,
    List.append_assoc] at hs
  exact hR.fails_field (b := 10) (by decide) hs fun fuel s hs =>
    ⟨_, hR.reject_string huuid hlen hs
      (fun uuid : Bytes => ({ Statistic.default F with uuid := uuid } : Statistic F)) []⟩

/-- A `uuid` is no longer than its entry. -/
theorem Statistic.length_uuid_le (msg : Statistic F) :
    msg.uuid.length ≤ (msg.InternalSerialize R).length := by
  unfold Statistic.InternalSerialize
  rw [hR.writeString, List.length_append]
  cases msg.uuid with
  | nil => exact Nat.zero_le _
  | cons b bs =>
    rw [List.isEmpty_cons, if_neg Bool.false_ne_true, List.length_cons,
      List.length_cons, List.length_append, List.length_cons]
    omega

/-! ## A list of entries on the wire

Every entry is preceded by its length, and the parser goes down into it by setting a
limit and comes up by taking it away (`outer` is what the limits further up have
left). The depth is limited as well, and one level is used here. -/

/-- An entry in a list is a tag, its length and its bytes. -/
theorem serialize_cons (e : Statistic F) (es : List (Statistic F)) :
    SerializeAsString R ⟨e :: es⟩
      = 10 :: (Wire.varint (e.InternalSerialize R).length
        ++ (e.InternalSerialize R ++ SerializeAsString R ⟨es⟩)) := by
  unfold SerializeAsString
  rw [List.flatMap_cons, hR.writeMessage, List.cons_append, List.append_assoc]
  rfl

/-- So it takes two bytes more than the entry. -/
theorem length_serialize_cons (e : Statistic F) (es : List (Statistic F)) :
    (e.InternalSerialize R).length + (SerializeAsString R ⟨es⟩).length + 2
      ≤ (SerializeAsString R ⟨e :: es⟩).length := by
  have hpos := Wire.length_varint_pos (e.InternalSerialize R).length
  rw [serialize_cons hR, List.length_cons, List.length_append, List.length_append]
  omega

omit hR in
/-- Some of the entries take no more than all of them. -/
theorem length_serialize_append (taken left : List (Statistic F)) :
    (SerializeAsString R ⟨left⟩).length ≤ (SerializeAsString R ⟨taken ++ left⟩).length := by
  unfold SerializeAsString
  rw [List.flatMap_append, List.length_append]
  exact Nat.le_add_left _ _

/-- One round of the inner loop: an entry that is not well-formed ends it. -/
theorem repeated_rejects {e : Statistic F} (hutf : R.VerifyUTF8 e.uuid = false)
    (hlen : (e.InternalSerialize R).length ≤ maxSize) {outer : List (List UInt8)}
    (hdepth : outer.length < 100) (fuel : ℕ) (msgs : List (Statistic F)) {s : R.Stream}
    {rest : Bytes} (hs : At s ((Wire.varint (e.InternalSerialize R).length
      ++ (e.InternalSerialize R ++ rest)) :: outer)) :
    (R.repeated (Statistic.InternalParse R) 10 (Statistic.default F) fuel msgs s).2
      = none := by
  cases fuel with
  | zero => rfl
  | succ fuel =>
    have hnone := hR.reject_message hlen hdepth hs fun s hs =>
      Statistic.parse_rejects hR hutf ((Statistic.length_uuid_le hR e).trans hlen) fuel hs
    rw [Runtime.repeated]
    rcases hmsg : R.ParseMessage (Statistic.InternalParse R fuel) (Statistic.default F) s
      with ⟨msg, _ | s₁⟩
    · rfl
    · rw [hmsg] at hnone
      cases hnone

/-- One that is well-formed is read, and the loop goes on if another follows. -/
theorem repeated_reads {e : Statistic F} (hutf : R.VerifyUTF8 e.uuid = true)
    (hlen : (e.InternalSerialize R).length ≤ maxSize) {outer : List (List UInt8)}
    (hdepth : outer.length < 100) {fuel : ℕ} (hfuel : (e.InternalSerialize R).length < fuel)
    (msgs : List (Statistic F)) {s : R.Stream} {rest : Bytes}
    (hs : At s ((Wire.varint (e.InternalSerialize R).length
      ++ (e.InternalSerialize R ++ rest)) :: outer)) :
    ∃ s', At s' (rest :: outer)
      ∧ R.repeated (Statistic.InternalParse R) 10 (Statistic.default F) (fuel + 1) msgs s
        = if !R.DataAvailable s' then (msgs ++ [e.received], some s')
          else if R.ExpectTag 10 s' then R.repeated (Statistic.InternalParse R) 10
            (Statistic.default F) fuel (msgs ++ [e.received]) (R.Advance s')
          else (msgs ++ [e.received], some s') := by
  obtain ⟨s', hmsg, hs'⟩ := hR.read_message hlen hdepth hs fun s hs =>
    Statistic.parse_serialize hR hutf ((Statistic.length_uuid_le hR e).trans hlen) hfuel hs
  refine ⟨s', hs', ?_⟩
  rw [Runtime.repeated, hmsg]

/-- **What the inner loop reads of a list of entries**: some of them, all of them
well-formed, or it meets one that is not. It may stop early, at the end of
what is in the buffer.

The induction is on the entries. In each round the first entry is read or
turned down; after it the loop goes on, or stops because the buffer is empty,
or because there is nothing left. -/
theorem repeated_serialize {outer : List (List UInt8)} (hdepth : outer.length < 100)
    {e : Statistic F} {es : List (Statistic F)}
    (hlen : ∀ x ∈ e :: es, (x.InternalSerialize R).length ≤ maxSize) {fuel : ℕ}
    (hfuel : (SerializeAsString R ⟨e :: es⟩).length ≤ fuel) (msgs : List (Statistic F))
    {s : R.Stream}
    (hs : At s ((Wire.varint (e.InternalSerialize R).length
      ++ (e.InternalSerialize R ++ SerializeAsString R ⟨es⟩)) :: outer)) :
    (∃ taken left s', e :: es = taken ++ left ∧ taken ≠ []
        ∧ (∀ x ∈ taken, R.VerifyUTF8 x.uuid = true)
        ∧ R.repeated (Statistic.InternalParse R) 10 (Statistic.default F) fuel msgs s
          = (msgs ++ taken.map Statistic.received, some s')
        ∧ At s' (SerializeAsString R ⟨left⟩ :: outer))
      ∨ ((∃ x ∈ e :: es, R.VerifyUTF8 x.uuid = false)
        ∧ (R.repeated (Statistic.InternalParse R) 10 (Statistic.default F) fuel msgs s).2
          = none) := by
  induction es generalizing e fuel msgs s with
  | nil =>
    have hsize := length_serialize_cons hR e []
    obtain ⟨fuel, rfl⟩ := Nat.exists_eq_succ_of_ne_zero (show fuel ≠ 0 by omega)
    have hbody := hlen e List.mem_cons_self
    cases hutf : R.VerifyUTF8 e.uuid with
    | false =>
      exact Or.inr ⟨⟨e, List.mem_cons_self, hutf⟩,
        repeated_rejects hR hutf hbody hdepth _ msgs hs⟩
    | true =>
      obtain ⟨s', hs', hrun⟩ := repeated_reads hR hutf hbody hdepth
        (show _ < fuel by omega) msgs hs
      refine Or.inl ⟨[e], [], s', rfl, List.cons_ne_nil _ _,
        fun x hx => (List.mem_singleton.mp hx) ▸ hutf, ?_, hs'⟩
      rw [hrun, hR.unavailable hs']
      rfl
  | cons e' es ih =>
    have hsize := length_serialize_cons hR e (e' :: es)
    obtain ⟨fuel, rfl⟩ := Nat.exists_eq_succ_of_ne_zero (show fuel ≠ 0 by omega)
    obtain ⟨hbody, hlen⟩ := List.forall_mem_cons.mp hlen
    cases hutf : R.VerifyUTF8 e.uuid with
    | false =>
      exact Or.inr ⟨⟨e, List.mem_cons_self, hutf⟩,
        repeated_rejects hR hutf hbody hdepth _ msgs hs⟩
    | true =>
      obtain ⟨s', hs', hrun⟩ := repeated_reads hR hutf hbody hdepth
        (show _ < fuel by omega) msgs hs
      rw [hrun]
      cases havail : R.DataAvailable s' with
      | false =>
        -- the rest is left to the outer loop
        exact Or.inl ⟨[e], e' :: es, s', rfl, List.cons_ne_nil _ _,
          fun x hx => (List.mem_singleton.mp hx) ▸ hutf, rfl, hs'⟩
      | true =>
        rw [serialize_cons hR] at hs'
        rw [hR.expect 10 hs' havail]
        rcases ih hlen (show _ ≤ fuel by omega) (msgs ++ [e.received]) (hR.advance hs') with
          ⟨taken, left, s₂, hsplit, -, htaken, hrest, hs₂⟩ | ⟨⟨x, hx, hxutf⟩, hnone⟩
        · refine Or.inl ⟨e :: taken, left, s₂, congrArg (e :: ·) hsplit, List.cons_ne_nil _ _,
            List.forall_mem_cons.mpr ⟨hutf, htaken⟩, ?_, hs₂⟩
          refine hrest.trans ?_
          rw [List.append_assoc]
          rfl
        · exact Or.inr ⟨⟨x, List.mem_cons_of_mem _ hx, hxutf⟩, hnone⟩

/-- **What the outer loop reads of a list of entries**: all of them, if all are
well-formed; and it fails if one is not.

The induction is on the length of the list, because a round of the outer loop
takes away as many entries as the inner loop has read, at least one. -/
theorem parse_entries {outer : List (List UInt8)} (hdepth : outer.length < 100)
    {es : List (Statistic F)} (hlen : ∀ x ∈ es, (x.InternalSerialize R).length ≤ maxSize)
    {fuel : ℕ} (hfuel : (SerializeAsString R ⟨es⟩).length < fuel) (msg : ServerStatistic F)
    {s : R.Stream} (hs : At s (SerializeAsString R ⟨es⟩ :: outer)) :
    ((∀ x ∈ es, R.VerifyUTF8 x.uuid = true) →
        ∃ s', InternalParse R fuel msg s = (⟨msg.client ++ es.map Statistic.received⟩, some s')
          ∧ At s' ([] :: outer))
      ∧ ((∃ x ∈ es, R.VerifyUTF8 x.uuid = false) → (InternalParse R fuel msg s).2 = none) := by
  induction hn : es.length using Nat.strong_induction_on generalizing es fuel msg s with
  | _ n ih =>
    obtain ⟨fuel, rfl⟩ := Nat.exists_eq_succ_of_ne_zero (Nat.ne_zero_of_lt hfuel)
    cases es with
    | nil =>
      obtain ⟨s', hs', hparse⟩ : ∃ s', At s' ([] :: outer)
          ∧ InternalParse R (fuel + 1) msg s = (msg, some s') := by
        obtain ⟨s', hparse, hs'⟩ := hR.parse_nil hs
        exact ⟨s', hs', hparse⟩
      refine ⟨fun _ => ⟨s', hparse.trans ?_, hs'⟩, ?_⟩
      · rw [List.map_nil, List.append_nil]
      · rintro ⟨x, hx, -⟩
        cases hx
    | cons e es =>
      have hsize := length_serialize_cons hR e es
      rw [serialize_cons hR] at hs
      obtain ⟨s₁, hs₁, hrun⟩ := hR.parse_cons (b := 10) (by decide) hs
      have hfield : field R fuel (UInt8.toNat 10) msg s₁
          = R.messageField (fun client => { msg with client := client })
            (R.repeated (Statistic.InternalParse R) 10 (Statistic.default F) fuel msg.client
              s₁) := rfl
      rw [InternalParse, hrun, hfield]
      rcases repeated_serialize hR hdepth hlen (Nat.lt_succ_iff.mp hfuel) msg.client hs₁ with
        ⟨taken, left, s₂, hsplit, htaken, hgood, hread, hs₂⟩ | ⟨hbad, hnone⟩
      · -- the outer loop goes on with what is left
        rw [hread]
        obtain ⟨x, taken, rfl⟩ := List.exists_cons_of_ne_nil htaken
        rw [hsplit] at hlen hfuel ⊢
        have hleft := length_serialize_append (R := R) taken left
        have hone := length_serialize_cons hR x (taken ++ left)
        have hlt : left.length < n := by
          rw [← hn, hsplit, List.cons_append, List.length_cons, List.length_append]
          omega
        rw [List.cons_append] at hfuel
        obtain ⟨hall, hnone⟩ := ih left.length hlt
          (fun y hy => hlen y (List.mem_append_right _ hy)) (show _ < fuel by omega)
          ⟨msg.client ++ (x :: taken).map Statistic.received⟩ hs₂ rfl
        refine ⟨fun hutf => ?_, fun ⟨y, hy, hutf⟩ => hnone ⟨y, ?_, hutf⟩⟩
        · obtain ⟨s₃, hparse, hs₃⟩ := hall fun y hy => hutf y (List.mem_append_right _ hy)
          refine ⟨s₃, ?_, hs₃⟩
          rw [List.map_append, ← List.append_assoc]
          exact hparse
        · refine (List.mem_append.mp hy).resolve_left fun hmem => ?_
          rw [hgood y hmem] at hutf
          cases hutf
      · refine ⟨fun hall => ?_, fun _ => ?_⟩
        · obtain ⟨x, hx, hutf⟩ := hbad
          rw [hall x hx] at hutf
          cases hutf
        · rcases hrepeated : R.repeated (Statistic.InternalParse R) 10 (Statistic.default F)
            fuel msg.client s₁ with ⟨msgs, _ | s₂⟩
          · rfl
          · rw [hrepeated] at hnone
            cases hnone

/-- An entry takes no more than a list it is in. -/
theorem length_serialize_le {e : Statistic F} {es : List (Statistic F)} (he : e ∈ es) :
    (e.InternalSerialize R).length ≤ (SerializeAsString R ⟨es⟩).length := by
  obtain ⟨before, after, rfl⟩ := List.append_of_mem he
  have hcons := length_serialize_cons hR e after
  exact le_trans (by omega) (length_serialize_append before (e :: after))

/-- A reply with a `uuid` that is not well-formed makes the client's
`ParseFromString` fail.

The client does not look at the result of the parse. It prints what has been
read until then, which is why a single uuid can cut off the report of
everybody. -/
theorem parse_serialize_fails {stats : ServerStatistic F}
    (hlen : (SerializeAsString R stats).length ≤ maxSize)
    (hbad : ∃ e ∈ stats.client, R.VerifyUTF8 e.uuid = false) :
    (ParseFromString R (SerializeAsString R stats)).1 = false := by
  obtain ⟨-, hnone⟩ := parse_entries hR (show ([] : List (List UInt8)).length < 100 by decide)
    (fun e he => (length_serialize_le hR he).trans hlen)
    (Nat.lt_succ_self _) {} (hR.start (SerializeAsString R stats))
  have hnone := hnone hbad
  unfold ParseFromString Runtime.ParseFromString
  rcases hparse : InternalParse R ((SerializeAsString R stats).length + 1) {}
    (R.start (SerializeAsString R stats)) with ⟨msg, _ | s⟩
  · rfl
  · rw [hparse] at hnone
    cases hnone

/-- **A reply is read back exactly when every `uuid` in it is well-formed**: then
the client has every entry in its place, with its `uuid` and its figures. If
one is not, the client's `ParseFromString` fails.

The direction from the left is what makes this an exact condition: there is no
reply with such a uuid that gets through by chance. -/
theorem parse_serialize_iff (stats : ServerStatistic F)
    (hlen : (SerializeAsString R stats).length ≤ maxSize) :
    ParseFromString R (SerializeAsString R stats)
        = (true, ⟨stats.client.map Statistic.received⟩)
      ↔ ∀ e ∈ stats.client, R.VerifyUTF8 e.uuid = true := by
  constructor
  · intro h e he
    refine Bool.of_not_eq_false fun hutf => ?_
    have hfails := parse_serialize_fails hR hlen ⟨e, he, hutf⟩
    rw [h] at hfails
    cases hfails
  · intro hutf
    obtain ⟨hall, -⟩ := parse_entries hR (show ([] : List (List UInt8)).length < 100 by decide)
      (fun e he => (length_serialize_le hR he).trans hlen)
      (Nat.lt_succ_self _) {} (hR.start (SerializeAsString R stats))
    obtain ⟨s', hparse, hs'⟩ := hall hutf
    unfold ParseFromString Runtime.ParseFromString
    rw [hparse]
    exact Prod.ext (hR.ended hs') rfl

end Lawful

end ServerStatistic

/-! ## The uuids of a server

A uuid comes in with an insert, is listed by a select, and goes out with a reply. The
conditions on calls and answers below say of each of these that the uuids have the
property, and a thread that gets only such answers makes only such calls. The store
closes the circle: it gives back what it was given. -/

open Server

section Uuids

/-- **What a call brings in or gives away**: the texts of an insert, as they are
bound, and the uuids of a reply satisfy `P`.

A bound text ends at its first NUL byte, so the property is asked of what
comes before it, and that is also what is stored. -/
def Bears (P : Bytes → Prop) : Cmd F → Prop
  | .insertOne _ values => ∀ v ∈ values, ∀ uuid, v.value = .string uuid → P (cstr uuid)
  | .write stats => ∀ e ∈ stats.client, P e.uuid
  | _ => True

/-- **What an answer lists**: the texts of its rows satisfy `P`. -/
def Delivers (P : Bytes → Prop) : (c : Cmd F) → c.Resp → Prop
  | .selectMany .., .ok rows => ∀ row ∈ rows, ∀ v ∈ row, ∀ uuid, v.value = .string uuid → P uuid
  | _, _ => True

/-- The message an answer delivers is one of `Received`.

Of the messages nothing can be proved, they are what the clients send. So what
they may be is a parameter, too. -/
def Hears (Received : Bytes → Prop) : (c : Cmd F) → c.Resp → Prop
  | .read, .ok buffer => Received buffer
  | _, _ => True

/-- Every client of a store has a uuid that satisfies `P`. -/
def Store.Uuids (P : Bytes → Prop) (s : Store F) : Prop := ∀ c ∈ s.clients, P c.uuid

variable {P Received : Bytes → Prop} {ParseFromString : Bytes → Bool × ClientPacket F}
  {E : Engine F} {faulty : Prop} {clock : Int → Prop}

omit [Double F] in
theorem Saving.CallOf.bears {data : ClientPacket.Data F} (hdata : P (cstr data.uuid))
    {c : Cmd F} (h : Saving.CallOf data c) : Bears P c := by
  cases h with
  | lookup => trivial
  | addClient =>
    intro v hv uuid huuid
    rw [List.mem_singleton.mp hv] at huuid
    cases huuid
    exact hdata
  | addPacket clientId =>
    intro v hv uuid huuid
    simp only [packetValues, List.mem_cons, List.not_mem_nil, or_false] at hv
    rcases hv with rfl | rfl | rfl | rfl <;> cases huuid

/-- **The entries that are collected have the uuids that were listed.**

The uuid of an entry is copied from the row that was listed, through a variant
and a vector; an answer of another form makes the code throw. -/
theorem collectStatistics_bears :
    (collectStatistics : ServerProg F (ServerStatistic F)).Conforms ReadCall
      (Delivers P) fun stats => ∀ e ∈ stats.client, P e.uuid := by
  have hclients : ∀ (interval1 interval2 : Int) (clients : List (List (TableValue F)))
      (stats : List (ServerStatistic.Statistic F)),
      (∀ row ∈ clients, ∀ v ∈ row, ∀ uuid, v.value = .string uuid → P uuid) →
      (∀ e ∈ stats, P e.uuid) →
      (collectClients interval1 interval2 clients stats).Conforms ReadCall
        (Delivers P) fun stats => ∀ e ∈ stats, P e.uuid := by
    intro interval1 interval2 clients
    induction clients with
    | nil => exact fun stats _ hstats => hstats
    | cons client clients ih =>
      intro stats hrows hstats
      obtain ⟨hrow, hrows⟩ := List.forall_mem_cons.mp hrows
      refine Prog.Conforms.bind (Q := fun _ => True) (.ofExcept fun _ _ => trivial)
        (fun clientId _ => ?_)
      refine Prog.Conforms.bind (Q := P) (.ofExcept fun uuid huuid => ?_) (fun uuid huuid => ?_)
      · -- the uuid of an entry is a text of the row
        unfold vectorAt at huuid
        cases hcell : client[1]? with
        | none =>
          rw [hcell] at huuid
          cases huuid
        | some v =>
          rw [hcell] at huuid
          have huuid : v.value.getString = .ok uuid := huuid
          refine hrow v (List.mem_of_getElem? hcell) uuid ?_
          cases hv : v.value with
          | string text =>
            rw [hv] at huuid
            exact congrArg DBVariants.string (Except.ok.inj huuid)
          | _ =>
            rw [hv] at huuid
            cases huuid
      · refine Prog.Conforms.bind (Q := fun _ => True)
          ⟨.listPackets clientId, fun r _ => .ofExcept fun _ _ => trivial⟩ (fun packets _ => ?_)
        refine Prog.Conforms.bind (Q := fun _ => True) (.ofExcept fun _ _ => trivial)
          (fun sums _ => ih _ hrows ?_)
        refine List.forall_mem_append.mpr ⟨hstats, fun e he => ?_⟩
        rw [Collecting.sums_entry_uuid (Option.mem_toList.mp he)]
        exact huuid
  refine Prog.Conforms.bind (Q := fun rows => ∀ row ∈ rows, ∀ v ∈ row, ∀ uuid,
      v.value = .string uuid → P uuid)
    ⟨.listClients, fun r hr => .ofExcept fun rows hrows => ?_⟩ (fun clients hrows => ?_)
  · rw [hrows] at hr
    exact hr
  refine Prog.Conforms.bind (Q := fun _ => True) ⟨.now, fun _ _ => trivial⟩
    (fun currentTime _ => ?_)
  exact Prog.Conforms.bind (hclients _ _ clients [] hrows (List.forall_mem_nil _))
    (fun stats hstats => hstats)

/-- **A thread brings in and gives away only such uuids**, if its messages do and
what it lists does.

The hypothesis is about the packet as it is left by the parser, whether it has
accepted the message or not, because the thread does not ask. -/
theorem clientThread_bears (hP : ∀ buffer, Received buffer →
      (ParseFromString buffer).2.type = ClientPacket.DATA →
      ∀ data, (ParseFromString buffer).2.data = some data → P (cstr data.uuid)) (n : ℕ) :
    (clientThread ParseFromString n).Conforms (fun c => ServerCall c ∧ Bears P c)
      (fun c r => Answered c r ∧ Delivers P c r ∧ Hears Received c r) (fun _ => True) := by
  have hhandle : ∀ buffer, Received buffer →
      (handleMessage ParseFromString buffer).Conforms (fun c => ServerCall c ∧ Bears P c)
        (fun c r => Answered c r ∧ Delivers P c r ∧ Hears Received c r) (fun _ => True) := by
    intro buffer hreceived
    unfold handleMessage handlePacket
    dsimp only
    split_ifs with hdata hstats
    · have hP := hP buffer hreceived hdata
      generalize (ParseFromString buffer).2 = packet at hP
      obtain ⟨type, data⟩ := packet
      cases data with
      | none => trivial
      | some data =>
        rw [Saving.saveClientPacket_eq]
        exact (Saving.Phase.calls data .looking).mono
          (fun c h => ⟨h.saveCall.serverCall, h.bears (hP data rfl)⟩) (fun _ _ h => h.1)
          (fun _ h => h)
    · have hreads : ∀ c : Cmd F, ReadCall c → ServerCall c ∧ Bears P c := by
        intro c hc
        refine ⟨hc.serverCall, ?_⟩
        cases hc <;> trivial
      exact (collectStatistics_bears.mono hreads (fun _ _ h => h.2.1) (fun _ h => h)).bind
        fun stats hstats => ⟨⟨.write stats, hstats⟩, fun r _ => .ofExcept fun _ _ => trivial⟩
    · trivial
  have hloop : (messageLoop ParseFromString n).Conforms (fun c => ServerCall c ∧ Bears P c)
      (fun c r => Answered c r ∧ Delivers P c r ∧ Hears Received c r) (fun _ => True) := by
    induction n with
    | zero => trivial
    | succ n ih =>
      refine ⟨⟨.needExit, trivial⟩, fun needExit _ => ?_⟩
      cases needExit with
      | true => trivial
      | false =>
        refine ⟨⟨.read, trivial⟩, fun r hr => ?_⟩
        cases r with
        | error ex => trivial
        | ok buffer => exact (hhandle buffer hr.2.2).bind fun _ _ => ih
  refine hloop.tryCatch fun ex => ?_
  cases ex <;> trivial

/-- **The database keeps the uuids it is given**, and gives them back.

This holds also when calls fail: a failed call adds nothing and lists nothing. -/
theorem storeHandler_bears :
    Steps.Keeps (fun s c r s' => storeHandler E faulty clock s c r s' ∧ Hears Received c r)
      (fun c => ServerCall c ∧ Bears P c)
      (fun c r => Answered c r ∧ Delivers P c r ∧ Hears Received c r)
      (Store.Uuids P) Store.Grows := by
  rintro s c r s' hs ⟨hcall, hbears⟩ ⟨hc, hreceived⟩
  have hanswered := (handler_store hcall hc).1
  have hgrows := storeHandler_grows hcall hc
  have hc : handler E faulty clock s.toDatabase c r s'.toDatabase := hc
  have hsame : s'.toDatabase = s.toDatabase → s'.Uuids P := by
    intro hd
    rw [Store.toDatabase_injective hd]
    exact hs
  cases hcall with
  | lookup uuid =>
    exact ⟨⟨hanswered, trivial, hreceived⟩, hsame (Store.handler_lookup hc).1, hgrows⟩
  | addClient uuid =>
    refine ⟨⟨hanswered, trivial, hreceived⟩, ?_, hgrows⟩
    obtain ⟨s'', hd, ⟨-, -, id, hcs, -⟩ | ⟨rfl, -, -⟩⟩ := Store.handler_addClient hc
    · rw [Store.toDatabase_injective hd]
      unfold Store.Uuids
      rw [hcs]
      refine List.forall_mem_append.mpr ⟨hs, fun c hc => ?_⟩
      rw [List.mem_singleton.mp hc]
      exact hbears _ List.mem_cons_self uuid rfl
    · exact hsame hd
  | addPacket clientId data =>
    refine ⟨⟨hanswered, trivial, hreceived⟩, ?_, hgrows⟩
    obtain ⟨s'', hd, ⟨-, -, -, id, hcs, -⟩ | ⟨rfl, -, -⟩⟩ := Store.handler_addPacket hc
    · rw [Store.toDatabase_injective hd]
      unfold Store.Uuids
      rw [hcs]
      exact hs
    · exact hsame hd
  | listClients =>
    obtain ⟨hd, hr⟩ := Store.handler_listClients hc
    refine ⟨⟨hanswered, ?_, hreceived⟩, hsame hd, hgrows⟩
    rcases hr with ⟨part, ⟨k, -, rfl, -⟩, rfl⟩ | ⟨-, what, rfl⟩
    · refine List.forall_mem_map.mpr fun c hc v hv uuid huuid => ?_
      have hmem := (s.listed_perm E).mem_iff.mp (List.mem_of_mem_take hc)
      rcases List.mem_pair.mp hv with rfl | rfl
      · cases huuid
      · cases huuid
        exact hs c hmem
    · trivial
  | listPackets clientId =>
    obtain ⟨hd, hr⟩ := Store.handler_listPackets hc
    refine ⟨⟨hanswered, ?_, hreceived⟩, hsame hd, hgrows⟩
    rcases hr with ⟨part, -, rfl⟩ | ⟨-, what, rfl⟩
    · refine List.forall_mem_map.mpr fun p _ v hv uuid huuid => ?_
      simp only [Store.packetRow, List.mem_cons, List.not_mem_nil, or_false] at hv
      rcases hv with rfl | rfl | rfl <;> cases huuid
    · trivial
  | now => exact ⟨⟨hanswered, trivial, hreceived⟩, hsame hc.2, hgrows⟩
  | needExit => exact ⟨⟨hanswered, trivial, hreceived⟩, hsame hc, hgrows⟩
  | read => exact ⟨⟨hanswered, trivial, hreceived⟩, hsame hc.2, hgrows⟩
  | write stats => exact ⟨⟨hanswered, trivial, hreceived⟩, hsame hc.2, hgrows⟩

end Uuids

/-! ## Replies that are read

The runs of a server over its life, from the first start: what is kept by the calls is
kept by the threads side by side, and by one process after another. -/

section Replies

variable {P Received : Bytes → Prop} {ParseFromString : Bytes → Bool × ClientPacket F}
  {E : Engine F} {faulty : Prop} {clock : Int → Prop}

/-- **In a run of a server whose messages all bear such uuids**, so do the replies
and the store that is left. -/
theorem interleaved_bears (hP : ∀ buffer, Received buffer →
      (ParseFromString buffer).2.type = ClientPacket.DATA →
      ∀ data, (ParseFromString buffer).2.data = some data → P (cstr data.uuid))
    {ι : Type} [DecidableEq ι] {messages : ι → ℕ} {s : Store F} (hs : s.Uuids P)
    {turns : List (Turn ι (Database F) (Cmd F) Cmd.Resp)} {left : ι → ServerProg F Unit}
    {d : Database F}
    (h : Interleaved (handler E faulty clock)
      (fun i => clientThread ParseFromString (messages i)) s.toDatabase turns left d)
    (hreceived : ∀ e ∈ turns, ∀ buffer, e.2.message = some buffer → Received buffer) :
    (∃ t : Store F, d = t.toDatabase ∧ t.Uuids P)
      ∧ ∀ e ∈ turns, ∀ stats, e.2.reply = some stats → ∀ entry ∈ stats.client, P entry.uuid := by
  obtain ⟨t, turns', rfl, rfl, hrun, -⟩ :=
    interleaved_grows (fun i => clientThread_conforms _ _) h
  have hhears : ∀ e ∈ turns', Hears Received e.2.cmd e.2.resp := by
    intro e he
    have hreceived := hreceived _ (List.mem_map_of_mem he)
    obtain ⟨i, pre, cmd, resp, post⟩ := e
    cases cmd with
    | read =>
      cases resp with
      | error ex => trivial
      | ok buffer => exact hreceived buffer rfl
    | _ => trivial
  obtain ⟨-, ht, -, hturns⟩ := (hrun.restrict hhears).invariant storeHandler_bears
    (fun i => clientThread_bears hP (messages i)) hs
  refine ⟨⟨t, rfl, ht⟩, List.forall_mem_map.mpr fun e he stats hreply => ?_⟩
  have hbears := (hturns e he).1.2
  obtain ⟨i, pre, cmd, resp, post⟩ := e
  cases cmd with
  | write stats' =>
    cases hreply
    exact hbears
  | _ => cases hreply

/-- Whatever happens to the server, its file keeps to such uuids.

The induction is on the processes the file has gone through. Setting the
tables up adds no client. -/
theorem Reached.uuids (hP : ∀ buffer, Received buffer →
      (ParseFromString buffer).2.type = ClientPacket.DATA →
      ∀ data, (ParseFromString buffer).2.data = some data → P (cstr data.uuid))
    {d : Database F} (h : Reached E ParseFromString Received d) :
    ∃ s : Store F, d.Holds s ∧ s.Uuids P := by
  induction h with
  | fresh => exact ⟨Store.empty, Or.inr ⟨rfl, Or.inl rfl⟩, List.forall_mem_nil _⟩
  | started _ hboot ih =>
    obtain ⟨s, hs, huuids⟩ := ih
    exact ⟨s, (construct_steps hs hboot).1, huuids⟩
  | served _ hboot hrun hreceived ih =>
    obtain ⟨s, hs, huuids⟩ := ih
    obtain rfl := (construct_steps hs hboot).2.1 rfl
    obtain ⟨⟨t, rfl, ht⟩, -⟩ := interleaved_bears hP huuids hrun hreceived
    exact ⟨t, Or.inl rfl, ht⟩

end Replies

variable {R : Runtime F} {At : R.Stream → List (List UInt8) → Prop} {double : F → List UInt8}
  {maxSize : ℕ}

/-- **A message that does no harm to the replies**: if it is turned down and
handled as a packet all the same, its `uuid`, up to its first NUL byte, is
well-formed.

This is a condition on one message and nothing else, so it can be checked at
the door. A message that is accepted satisfies it for free, so the condition
is about the messages that should not have been handled. -/
def ClientPacket.Fine (R : Runtime F) (buffer : Bytes) : Prop :=
  (ParseFromString R buffer).1 = false → (ParseFromString R buffer).2.type = DATA →
    ∀ data, (ParseFromString R buffer).2.data = some data → R.VerifyUTF8 (cstr data.uuid) = true

/-- A message that is accepted does none. -/
theorem ClientPacket.Fine.verified (hR : R.Lawful At double maxSize) {buffer : Bytes}
    (h : Fine R buffer) (htype : (ParseFromString R buffer).2.type = DATA)
    (data : ClientPacket.Data F) (hdata : (ParseFromString R buffer).2.data = some data) :
    R.VerifyUTF8 (cstr data.uuid) = true := by
  cases haccepted : (ParseFromString R buffer).1 with
  | false => exact h haccepted htype data hdata
  | true => exact hR.verify_cut (ParseFromString_verified hR.verify_nil haccepted data hdata)

/-- **The client sees the statistics the server computed** as long as every
message that any connection ever delivered was fine: then, over any number of
starts and whichever calls fail, every reply is read back, entry by entry. In
general a reply is read back exactly when every `uuid` in it is well-formed.

In the first part the condition is asked of all messages there have ever been,
in this run and before, because a uuid that has once been stored is in every
reply that lists its packets. The second part says of a single reply when it
is read; there the condition is exact. -/
theorem replies_read (hR : R.Lawful At double maxSize) (E : Engine F) :
    (∀ (d m d' : Database F) (boot : List (Event (Database F) (Cmd F) Cmd.Resp))
        (messages : ℕ → ℕ) (turns : List (Turn ℕ (Database F) (Cmd F) Cmd.Resp))
        (left : ℕ → ServerProg F Unit),
      Reached E (ClientPacket.ParseFromString R) (ClientPacket.Fine R) d →
      Steps (handler E True (fun _ => True)) Eq construct d boot (.ret ()) m →
      Interleaved (handler E True (fun _ => True))
        (fun i => clientThread (ClientPacket.ParseFromString R) (messages i)) m turns left d' →
      (∀ e ∈ turns, ∀ buffer, e.2.message = some buffer → ClientPacket.Fine R buffer) →
      ∀ e ∈ turns, ∀ stats, e.2.reply = some stats →
        (ServerStatistic.SerializeAsString R stats).length ≤ maxSize →
        ServerStatistic.ParseFromString R (ServerStatistic.SerializeAsString R stats)
          = (true, ⟨stats.client.map ServerStatistic.Statistic.received⟩))
    ∧ ∀ stats : ServerStatistic F,
      (ServerStatistic.SerializeAsString R stats).length ≤ maxSize →
      (ServerStatistic.ParseFromString R (ServerStatistic.SerializeAsString R stats)
          = (true, ⟨stats.client.map ServerStatistic.Statistic.received⟩)
        ↔ ∀ entry ∈ stats.client, R.VerifyUTF8 entry.uuid = true) := by
  refine ⟨?_, fun stats => ServerStatistic.parse_serialize_iff hR stats⟩
  intro d m d' boot messages turns left hd hboot hrun hfine e he stats hreply hlen
  have hP : ∀ buffer, ClientPacket.Fine R buffer →
      (ClientPacket.ParseFromString R buffer).2.type = ClientPacket.DATA →
      ∀ data, (ClientPacket.ParseFromString R buffer).2.data = some data →
        R.VerifyUTF8 (cstr data.uuid) = true :=
    fun buffer hbuffer htype data hdata => hbuffer.verified hR htype data hdata
  obtain ⟨s, hs, huuids⟩ := hd.uuids (P := fun uuid => R.VerifyUTF8 uuid = true) hP
  obtain rfl := (construct_steps hs hboot).2.1 rfl
  obtain ⟨-, hreplies⟩ := interleaved_bears (P := fun uuid => R.VerifyUTF8 uuid = true) hP
    huuids hrun hfine
  exact (ServerStatistic.parse_serialize_iff hR stats hlen).mpr (hreplies e he stats hreply)

/-! ## A client that is seen, and one that hides the others -/

/-- A number takes at most nine bytes. -/
theorem ServerStatistic.length_writeDouble_le (n : ℕ) (x : Binary64) :
    (writeDouble binary64 n x).length ≤ 9 := by
  unfold writeDouble
  split_ifs
  · exact Nat.zero_le 9
  · rw [binary64_lawful.writeDouble, List.length_cons, binary64Bytes, Wire.length_fixed]

/-- A reply with one entry is short, if its `uuid` is. -/
theorem ServerStatistic.length_serialize_short {entry : Statistic Binary64}
    (huuid : entry.uuid.length ≤ 48) :
    (SerializeAsString binary64 ⟨[entry]⟩).length ≤ Reference.maxSize := by
  have hvarint : ∀ n < 128, (Wire.varint n).length = 1 := by
    intro n hn
    rw [Wire.varint, if_pos hn]
    rfl
  have hbody : (entry.InternalSerialize binary64).length ≤ 86 := by
    have hx1 := length_writeDouble_le 2 entry.x1
    have hy1 := length_writeDouble_le 3 entry.y1
    have hx5 := length_writeDouble_le 4 entry.x5
    have hy5 := length_writeDouble_le 5 entry.y5
    unfold Statistic.InternalSerialize
    split_ifs
    · simp only [List.length_append, List.length_nil]
      omega
    · rw [binary64_lawful.writeString]
      simp only [List.length_append, List.length_cons,
        hvarint _ (show entry.uuid.length < 128 by omega)]
      omega
  rw [serialize_cons binary64_lawful, List.length_cons, List.length_append,
    List.length_append, hvarint _ (show _ < 128 by omega)]
  show 1 + ((entry.InternalSerialize binary64).length + 0) + 1 ≤ 2 ^ 31 - 17
  omega

theorem ServerStatistic.length_serialize_one {entry : Statistic Binary64} {b : UInt8}
    (huuid : entry.uuid = [b]) :
    (SerializeAsString binary64 ⟨[entry]⟩).length ≤ Reference.maxSize :=
  length_serialize_short (by rw [huuid, List.length_singleton]; decide)

theorem parse_requestBytes : ClientPacket.ParseFromString binary64 requestBytes
    = (true, ⟨ClientPacket.STATISTICS, none⟩) := by
  decide +kernel

/-- The 1st of January 2024, as `std::chrono::system_clock` shows it. -/
def recentTime : Int := 17040672000000000

/-- A message of that time, whose `uuid` is one byte. The timestamp comes before
the `uuid`, so it is there whatever the parser says of the `uuid`. -/
def recentBytes (b : UInt8) : Bytes :=
  [0x12, 12, 0x10, 0x80, 0x80, 0xad, 0x8a, 0xea, 0xcc, 0xa2, 0x1e, 0x0a, 1, b]

/-- What it says. -/
def recentData (b : UInt8) : ClientPacket.Data Binary64 := ⟨[b], recentTime, ⟨0⟩, ⟨0⟩⟩

theorem parse_recentBytes_accepted : ClientPacket.ParseFromString binary64 (recentBytes 0x61)
    = (true, ⟨ClientPacket.DATA, some (recentData 0x61)⟩) := by
  decide +kernel

theorem parse_recentBytes_rejected : ClientPacket.ParseFromString binary64 (recentBytes 0xff)
    = (false, ⟨ClientPacket.DATA, some (recentData 0xff)⟩) := by
  decide +kernel

/-- **One connection sends such a message and another a request**, at the time of
the message. The reply has one entry, with that `uuid`. -/
theorem exists_named_run {b : UInt8} {accepted : Bool} (hb : b ≠ 0)
    (hparse : ClientPacket.ParseFromString binary64 (recentBytes b)
      = (accepted, ⟨ClientPacket.DATA, some (recentData b)⟩)) :
    ∃ (turns : List (Turn ℕ (Database Binary64) (Cmd Binary64) Cmd.Resp))
      (left : ℕ → ServerProg Binary64 Unit) (d : Database Binary64)
      (entry : ServerStatistic.Statistic Binary64),
      Interleaved (handler (Engine.reference : Engine Binary64) False (fun n => n = recentTime))
          (fun _ => clientThread (ClientPacket.ParseFromString binary64) 1)
          Store.empty.toDatabase turns left d
        ∧ turns.filterMap (fun e => e.2.message) = [recentBytes b, requestBytes]
        ∧ turns.filterMap (fun e => e.2.reply) = [⟨[entry]⟩] ∧ entry.uuid = [b] := by
  have hnan : Double.isNaN (⟨0⟩ : Binary64) = false := by decide
  obtain ⟨telling, asking, t, clientId, packetId, htell, hask, -, hpackets, -, htold, hquiet,
    hasked, hreply⟩ := exists_told_run (Engine.reference : Engine Binary64) recentTime
      (congrArg Prod.snd hparse) (congrArg Prod.snd parse_requestBytes) hnan hnan
  obtain ⟨left, hrun, -, -⟩ : ∃ left, Interleaved (storeHandler (Engine.reference :
      Engine Binary64) False (fun n => n = recentTime))
      (fun _ : ℕ => clientThread (ClientPacket.ParseFromString binary64) 1) Store.empty
      (telling.map (Prod.mk 0) ++ asking.map (Prod.mk 1)) left t ∧ left 0 = .ret ()
        ∧ left 1 = .ret () := Interleaved.one_then_other zero_ne_one htell hask
  have hcut : cstr (recentData b).uuid = [b] := by simp [recentData, cstr, hb]
  -- the packet is in the windows that end when it was made
  obtain ⟨entry, hentry⟩ : ∃ entry, Collecting.entryOf recentTime [b] t.packets = some entry :=
    ⟨_, by rw [hpackets]; rfl⟩
  rw [hcut, hentry] at hreply
  refine ⟨_, left, _, entry, hrun.unlift, ?_, ?_, Collecting.sums_entry_uuid hentry⟩
  · simp [List.filterMap_map, Function.comp_def, htold, hasked]
  · simp [List.filterMap_map, Function.comp_def, hquiet, hreply]

/-- A client with a well-formed `uuid` is seen. -/
theorem replies_read_one :
    ∃ (turns : List (Turn ℕ (Database Binary64) (Cmd Binary64) Cmd.Resp))
      (left : ℕ → ServerProg Binary64 Unit) (d : Database Binary64)
      (stats : ServerStatistic Binary64),
      Interleaved (handler (Engine.reference : Engine Binary64) False (fun n => n = recentTime))
          (fun _ => clientThread (ClientPacket.ParseFromString binary64) 1)
          Store.empty.toDatabase turns left d
        ∧ turns.filterMap (fun e => e.2.message) = [recentBytes 0x61, requestBytes]
        ∧ turns.filterMap (fun e => e.2.reply) = [stats]
        ∧ stats.client.map ServerStatistic.Statistic.uuid = [[0x61]]
        ∧ ServerStatistic.ParseFromString binary64
            (ServerStatistic.SerializeAsString binary64 stats)
          = (true, ⟨stats.client.map ServerStatistic.Statistic.received⟩) := by
  obtain ⟨boot, hboot⟩ := exists_construct (Engine.reference : Engine Binary64) True
    (fun _ => True) (show Database.Holds [] Store.empty from Or.inr ⟨rfl, Or.inl rfl⟩)
  obtain ⟨turns, left, d, entry, hrun, hmessages, hreplies, huuid⟩ :=
    exists_named_run (by decide) parse_recentBytes_accepted
  obtain ⟨e, he, hreply⟩ := List.mem_filterMap.mp (hreplies ▸ List.mem_singleton_self _)
  refine ⟨turns, left, d, _, hrun, hmessages, hreplies, congrArg (fun uuid => [uuid]) huuid,
    (replies_read binary64_lawful Engine.reference).1 [] _ _ boot (fun _ => 1) _ _ .fresh hboot
      (hrun.mono fun _ _ _ _ => handler_mono False.elim fun _ _ => trivial) ?_ e he _ hreply
      (ServerStatistic.length_serialize_one huuid)⟩
  -- both messages are accepted
  intro e he bytes hbytes hrejected
  have hmem : bytes ∈ [recentBytes 0x61, requestBytes] :=
    hmessages ▸ List.mem_filterMap.mpr ⟨e, he, hbytes⟩
  rcases List.mem_pair.mp hmem with rfl | rfl
  · rw [parse_recentBytes_accepted] at hrejected
    cases hrejected
  · rw [parse_requestBytes] at hrejected
    cases hrejected

/-- **A message that is turned down hides every client.** A server that has just set
its tables up is sent a message whose `uuid` is not UTF-8, and then a request over
another connection, at the time the message says. The reply lists that `uuid`,
and the client's `ParseFromString` fails. -/
theorem reply_not_read :
    ∃ (boot : List (Event (Database Binary64) (Cmd Binary64) Cmd.Resp))
      (turns : List (Turn ℕ (Database Binary64) (Cmd Binary64) Cmd.Resp))
      (left : ℕ → ServerProg Binary64 Unit) (d : Database Binary64)
      (stats : ServerStatistic Binary64),
      Steps (handler (Engine.reference : Engine Binary64) False (fun n => n = recentTime)) Eq
          construct [] boot (.ret ()) Store.empty.toDatabase
        ∧ Interleaved (handler Engine.reference False (fun n => n = recentTime))
          (fun _ => clientThread (ClientPacket.ParseFromString binary64) 1)
          Store.empty.toDatabase turns left d
        ∧ turns.filterMap (fun e => e.2.message) = [recentBytes 0xff, requestBytes]
        ∧ turns.filterMap (fun e => e.2.reply) = [stats]
        ∧ stats.client.map ServerStatistic.Statistic.uuid = [[0xff]]
        ∧ (ServerStatistic.SerializeAsString binary64 stats).length ≤ Reference.maxSize
        ∧ (ServerStatistic.ParseFromString binary64
            (ServerStatistic.SerializeAsString binary64 stats)).1 = false := by
  obtain ⟨boot, hboot⟩ := exists_construct (Engine.reference : Engine Binary64) False
    (fun n => n = recentTime)
    (show Database.Holds [] Store.empty from Or.inr ⟨rfl, Or.inl rfl⟩)
  obtain ⟨turns, left, d, entry, hrun, hmessages, hreplies, huuid⟩ :=
    exists_named_run (by decide) parse_recentBytes_rejected
  have hlen := ServerStatistic.length_serialize_one huuid
  refine ⟨boot, turns, left, d, _, hboot, hrun, hmessages, hreplies,
    congrArg (fun uuid => [uuid]) huuid, hlen, ServerStatistic.parse_serialize_fails
      binary64_lawful hlen ⟨entry, List.mem_cons_self, ?_⟩⟩
  rw [huuid]
  decide
