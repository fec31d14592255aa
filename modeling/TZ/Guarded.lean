import TZ.Interaction

/-!
# Programs and the calls they have made

What a program may do next can depend on what it has done: a resource is
used only while it is held, and given back once. `Prog.Guarded` says so of a
program and the calls it has made before: each call is one that `may` be made
after those before it, and whatever the program ends with, result or
exception, satisfies a postcondition over all of its calls. The rules are
those of a Hoare logic whose state is the list of calls.

A run of a guarded program makes no call it may not make, wherever it is
stopped (`Steps.guarded`).
-/

variable {σ C E E' α β : Type} {R : C → Type}

/-- A call that was made, with its answer. -/
structure Call (C : Type) (R : C → Type) where
  /-- The command. -/
  cmd : C
  /-- Its answer. -/
  resp : R cmd

/-- The call of an event. -/
def Event.call (e : Event σ C R) : Call C R := ⟨e.cmd, e.resp⟩

namespace Prog

variable {may : List (Call C R) → C → Prop} {answers : (c : C) → R c → Prop}
  {P : Except E α → List (Call C R) → Prop} {past : List (Call C R)}

/-- **A program that minds its past**: as long as every answer it gets is one of
`answers`, every call it makes `may` be made after those before it, and it
ends as `Q` says. -/
def Guarded (may : List (Call C R) → C → Prop) (answers : (c : C) → R c → Prop)
    (Q : Except E α → List (Call C R) → Prop) : Prog C R E α → List (Call C R) → Prop
  | .ret a, past => Q (.ok a) past
  | .throw e, past => Q (.error e) past
  | .call c k, past => may past c
      ∧ ∀ r, answers c r → (k r).Guarded may answers Q (past ++ [⟨c, r⟩])

/-- A weaker postcondition is met as well. -/
theorem Guarded.mono {Q : Except E α → List (Call C R) → Prop} {p : Prog C R E α}
    (hp : p.Guarded may answers P past) (hQ : ∀ r past, P r past → Q r past) :
    p.Guarded may answers Q past := by
  induction p generalizing past with
  | ret a => exact hQ _ past hp
  | throw e => exact hQ _ past hp
  | call c k ih => exact ⟨hp.1, fun r hr => ih r (hp.2 r hr)⟩

/-- The second program of a sequence starts where the first has returned. -/
theorem Guarded.bind {Q : Except E β → List (Call C R) → Prop} {p : Prog C R E α}
    {f : α → Prog C R E β} (hp : p.Guarded may answers P past)
    (hok : ∀ a past, P (.ok a) past → (f a).Guarded may answers Q past)
    (herror : ∀ e past, P (.error e) past → Q (.error e) past) :
    (p.bind f).Guarded may answers Q past := by
  induction p generalizing past with
  | ret a => exact hok a past hp
  | throw e => exact herror e past hp
  | call c k ih => exact ⟨hp.1, fun r hr => ih r (hp.2 r hr)⟩

/-- The handler of a `try` block starts where its body has thrown. -/
theorem Guarded.tryCatch {Q : Except E' α → List (Call C R) → Prop} {p : Prog C R E α}
    {g : E → Prog C R E' α} (hp : p.Guarded may answers P past)
    (hok : ∀ a past, P (.ok a) past → Q (.ok a) past)
    (herror : ∀ e past, P (.error e) past → (g e).Guarded may answers Q past) :
    (p.tryCatch g).Guarded may answers Q past := by
  induction p generalizing past with
  | ret a => exact hok a past hp
  | throw e => exact herror e past hp
  | call c k ih => exact ⟨hp.1, fun r hr => ih r (hp.2 r hr)⟩

end Prog

/-- **A run of a guarded program makes no call it may not make**, and what is
left of the program is guarded by what it has done. -/
theorem Steps.guarded {H : Handler σ C R} {Rely : σ → σ → Prop} {p q : Prog C R E α}
    {s t : σ} {es : List (Event σ C R)} {may : List (Call C R) → C → Prop}
    {answers : (c : C) → R c → Prop} {Q : Except E α → List (Call C R) → Prop}
    {past : List (Call C R)} (h : Steps H Rely p s es q t)
    (hH : ∀ s c r s', H s c r s' → answers c r) (hp : p.Guarded may answers Q past) :
    (∀ before d after, es.map Event.call = before ++ d :: after → may (past ++ before) d.cmd)
      ∧ q.Guarded may answers Q (past ++ es.map Event.call) := by
  induction h generalizing past with
  | done hr =>
    refine ⟨fun before d after hsplit => ?_, ?_⟩
    · cases before <;> cases hsplit
    · rw [List.map_nil, List.append_nil]
      exact hp
  | own hr hc _ ih =>
    obtain ⟨hmay, hrest⟩ := hp
    obtain ⟨hes, hq⟩ := ih (hrest _ (hH _ _ _ _ hc))
    refine ⟨fun before d after hsplit => ?_, ?_⟩
    · cases before with
      | nil =>
        obtain ⟨rfl, -⟩ := List.cons.inj hsplit
        rw [List.append_nil]
        exact hmay
      | cons x before =>
        obtain ⟨rfl, htail⟩ := List.cons.inj hsplit
        have hd := hes before d after htail
        rwa [List.append_assoc] at hd
    · rw [List.append_assoc] at hq
      exact hq
