import TZ.Interaction

/-!
# Programs that follow an automaton

`Prog.Conforms` says which commands a program may issue at all. Often this
depends on what it has issued before: a handle is closed once, a thread is
joined after it was created, every message that is read has been paid for by a
look at a flag. An *automaton* remembers what matters of the past: its state
says which commands are allowed, and every answer moves it. A program follows
an automaton from a state if it only ever issues what is allowed, however it is
answered, and ends as it is supposed to.

As for `Conforms`, the rules go along the syntax (`Prog.Follows.bind`,
`Prog.Follows.tryCatch`), and what they yield is used one command at a time
(`Prog.Follows.step`).
-/

variable {S C E E' α β : Type} {R : C → Type}

/-- **A protocol with a memory.** -/
structure Automaton (S C : Type) (R : C → Type) where
  /-- Which commands may be issued. -/
  allows : S → C → Prop
  /-- How an answer moves the state. -/
  next : S → (c : C) → R c → S → Prop

namespace Prog

/-- **A program follows an automaton**: it issues what is allowed, and its
result, if it ends, is one of `Q` in the state it ends in. -/
def Follows (A : Automaton S C R) (Q : S → Except E α → Prop) : Prog C R E α → S → Prop
  | .ret a, s => Q s (.ok a)
  | .throw e, s => Q s (.error e)
  | .call c k, s => A.allows s c ∧ ∀ r s', A.next s c r s' → (k r).Follows A Q s'

namespace Follows

variable {A : Automaton S C R} {P : S → Except E α → Prop} {s s' : S}

/-- The rule for one command. -/
theorem step {c : C} {k : R c → Prog C R E α} {r : R c} (h : (Prog.call c k).Follows A P s)
    (hr : A.next s c r s') : (k r).Follows A P s' := h.2 r s' hr

/-- A program that ends well ends well in a wider sense. -/
theorem mono {P' : S → Except E α → Prop} (hP : ∀ s x, P s x → P' s x) {p : Prog C R E α}
    (h : p.Follows A P s) : p.Follows A P' s := by
  induction p generalizing s with
  | ret a => exact hP _ _ h
  | throw e => exact hP _ _ h
  | call c k ih => exact ⟨h.1, fun r s' hr => ih r (h.2 r s' hr)⟩

/-- The rule for sequencing. -/
theorem bind {Q : S → Except E β → Prop} {p : Prog C R E α} {f : α → Prog C R E β}
    (h : p.Follows A P s) (hf : ∀ s a, P s (.ok a) → (f a).Follows A Q s)
    (hthrow : ∀ s e, P s (.error e) → Q s (.error e)) : (p.bind f).Follows A Q s := by
  induction p generalizing s with
  | ret a => exact hf _ _ h
  | throw e => exact hthrow _ _ h
  | call c k ih => exact ⟨h.1, fun r s' hr => ih r (h.2 r s' hr)⟩

/-- The rule for `try` blocks. -/
theorem tryCatch {Q : S → Except E' α → Prop} {p : Prog C R E α} {g : E → Prog C R E' α}
    (h : p.Follows A P s) (hret : ∀ s a, P s (.ok a) → Q s (.ok a))
    (hg : ∀ s e, P s (.error e) → (g e).Follows A Q s) : (p.tryCatch g).Follows A Q s := by
  induction p generalizing s with
  | ret a => exact hret _ _ h
  | throw e => exact hg _ _ h
  | call c k ih => exact ⟨h.1, fun r s' hr => ih r (h.2 r s' hr)⟩

/-- The rule for a single command whose answer is a result or an exception. -/
theorem ofExcept {c : C} (hc : A.allows s c) {f : R c → Except E α}
    (h : ∀ r s', A.next s c r s' → P s' (f r)) :
    (Prog.call c fun r => .ofExcept (f r)).Follows A P s := by
  refine ⟨hc, fun r s' hr => ?_⟩
  have hP := h r s' hr
  show (Prog.ofExcept (f r)).Follows A P s'
  generalize f r = x at hP
  cases x with
  | ok a => exact hP
  | error e => exact hP

end Follows

end Prog
