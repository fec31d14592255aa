import Mathlib.Logic.Relation
import Mathlib.Tactic.Common

/-!
# Programs that talk to their surroundings

A program of this library is a tree: it returns, it throws, or it issues a
command and goes on with whatever the surroundings answer. Nothing in the
tree says what a command does; a *handler* does, and the same program is
read under several of them – a function when the surroundings are
deterministic (`Prog.run`), a relation when they are not (`Steps`).

`Steps` is where concurrency enters. Between two commands of a program the
state may be changed by others, and all a program is promised about such a
change is that it lies in a relation `Rely`. Taking `Rely` to be equality
gives the sequential reading, so a lemma proved about a program under
interference holds of its undisturbed runs as well.

The rules that follow are the ones a verification needs: how a run of
`bind` and of `tryCatch` splits, what an invariant of the handler says of a
whole run, and how a run over an abstract state is read off a run over a
concrete one.
-/

/-- **A program**: a tree of commands with their continuations. `R c` is the
type of the answers to the command `c`, and `E` the type of exceptions. -/
inductive Prog (C : Type) (R : C → Type) (E α : Type) where
  /-- The program returns. -/
  | ret (a : α) : Prog C R E α
  /-- The program ends by an exception. -/
  | throw (e : E) : Prog C R E α
  /-- The program issues a command and goes on with the answer. -/
  | call (c : C) (k : R c → Prog C R E α) : Prog C R E α

/-- One command carried out: the state it was issued in, the command, its
answer, and the state it left. -/
structure Event (σ C : Type) (R : C → Type) where
  /-- The state in which the command was issued. -/
  pre : σ
  /-- The command. -/
  cmd : C
  /-- Its answer. -/
  resp : R cmd
  /-- The state it left. -/
  post : σ

/-- What the surroundings may do: `H s c r s'` says that `c`, issued in `s`,
may be answered by `r` and leave `s'`. -/
abbrev Handler (σ C : Type) (R : C → Type) := σ → (c : C) → R c → σ → Prop

variable {σ τ C E E' α β : Type} {R : C → Type}

namespace Prog

/-- Sequencing. -/
def bind : Prog C R E α → (α → Prog C R E β) → Prog C R E β
  | .ret a, f => f a
  | .throw e, _ => .throw e
  | .call c k, f => .call c (fun r => (k r).bind f)

instance : Monad (Prog C R E) where
  pure := .ret
  bind := .bind

/-- The exception handler of a `try` block. -/
def tryCatch : Prog C R E α → (E → Prog C R E' α) → Prog C R E' α
  | .ret a, _ => .ret a
  | .throw e, g => g e
  | .call c k, g => .call c (fun r => (k r).tryCatch g)

/-- Issue a command and return its answer. -/
def perform (c : C) : Prog C R E (R c) := .call c .ret

/-- A result that is already there. -/
def ofExcept : Except E α → Prog C R E α
  | .ok a => .ret a
  | .error e => .throw e

@[simp] theorem pure_eq (a : α) : (pure a : Prog C R E α) = .ret a := rfl

@[simp] theorem bind_eq (p : Prog C R E α) (f : α → Prog C R E β) :
    (p >>= f) = p.bind f := rfl

@[simp] theorem ret_bind (a : α) (f : α → Prog C R E β) :
    (Prog.ret a).bind f = f a := rfl

@[simp] theorem throw_bind (e : E) (f : α → Prog C R E β) :
    (Prog.throw e).bind f = .throw e := rfl

@[simp] theorem call_bind (c : C) (k : R c → Prog C R E α)
    (f : α → Prog C R E β) :
    (Prog.call c k).bind f = .call c (fun r => (k r).bind f) := rfl

@[simp] theorem perform_bind (c : C) (f : R c → Prog C R E β) :
    (perform c).bind f = .call c f := rfl

@[simp] theorem ret_tryCatch (a : α) (g : E → Prog C R E' α) :
    (Prog.ret a : Prog C R E α).tryCatch g = .ret a := rfl

@[simp] theorem throw_tryCatch (e : E) (g : E → Prog C R E' α) :
    (Prog.throw e : Prog C R E α).tryCatch g = g e := rfl

@[simp] theorem call_tryCatch (c : C) (k : R c → Prog C R E α)
    (g : E → Prog C R E' α) :
    (Prog.call c k).tryCatch g = .call c (fun r => (k r).tryCatch g) := rfl

theorem bind_assoc {γ : Type} (p : Prog C R E α) (f : α → Prog C R E β)
    (g : β → Prog C R E γ) : (p.bind f).bind g = p.bind fun a => (f a).bind g := by
  induction p with
  | ret a => rfl
  | throw e => rfl
  | call c k ih => exact congrArg _ (funext fun r => ih r)

theorem bind_eq_ret_iff {p : Prog C R E α} {f : α → Prog C R E β} {b : β} :
    p.bind f = .ret b ↔ ∃ a, p = .ret a ∧ f a = .ret b := by
  cases p with
  | ret a => exact ⟨fun h => ⟨a, rfl, h⟩, fun ⟨_, ha, h⟩ => by cases ha; exact h⟩
  | throw e => exact ⟨nofun, nofun⟩
  | call c k => exact ⟨nofun, nofun⟩

theorem bind_eq_throw_iff {p : Prog C R E α} {f : α → Prog C R E β} {e : E} :
    p.bind f = .throw e ↔ p = .throw e ∨ ∃ a, p = .ret a ∧ f a = .throw e := by
  cases p with
  | ret a =>
    refine ⟨fun h => Or.inr ⟨a, rfl, h⟩, ?_⟩
    rintro (h | ⟨_, ha, h⟩)
    · cases h
    · cases ha
      exact h
  | throw e' => exact ⟨fun h => by cases h; exact Or.inl rfl, fun h => by simpa using h⟩
  | call c k => exact ⟨nofun, fun h => by simp at h⟩

/-- A sequence is about to issue a command if its first program is, or has
returned and the second is. -/
theorem bind_eq_call {p : Prog C R E α} {f : α → Prog C R E β} {c : C}
    {k : R c → Prog C R E β} (h : p.bind f = .call c k) :
    (∃ k', p = .call c k' ∧ k = fun r => (k' r).bind f) ∨ ∃ a, p = .ret a ∧ f a = .call c k := by
  cases p with
  | ret a => exact Or.inr ⟨a, rfl, h⟩
  | throw e => cases h
  | call c' k' =>
    cases h
    exact Or.inl ⟨k', rfl, rfl⟩

@[simp] theorem ofExcept_ok (a : α) :
    (ofExcept (.ok a) : Prog C R E α) = .ret a := rfl

@[simp] theorem ofExcept_error (e : E) :
    (ofExcept (.error e) : Prog C R E α) = .throw e := rfl

/-! ## Deterministic surroundings -/

/-- **The run of a program under a deterministic handler**: its result and
the state it leaves. -/
def run (h : (c : C) → σ → R c × σ) : Prog C R E α → σ → Except E α × σ
  | .ret a, s => (.ok a, s)
  | .throw e, s => (.error e, s)
  | .call c k, s => (k (h c s).1).run h (h c s).2

section Run

variable (h : (c : C) → σ → R c × σ)

@[simp] theorem run_ret (a : α) (s : σ) :
    (Prog.ret a : Prog C R E α).run h s = (.ok a, s) := rfl

@[simp] theorem run_throw (e : E) (s : σ) :
    (Prog.throw e : Prog C R E α).run h s = (.error e, s) := rfl

@[simp] theorem run_call (c : C) (k : R c → Prog C R E α) (s : σ) :
    (Prog.call c k).run h s = (k (h c s).1).run h (h c s).2 := rfl

/-- Sequencing runs the first program and, if it returned, the second. -/
theorem run_bind (p : Prog C R E α) (f : α → Prog C R E β) (s : σ) :
    (p.bind f).run h s
      = match (p.run h s).1 with
        | .ok a => (f a).run h (p.run h s).2
        | .error e => (.error e, (p.run h s).2) := by
  induction p generalizing s with
  | ret a => rfl
  | throw e => rfl
  | call c k ih => exact ih _ _

/-- A `try` block runs its body and, if it threw, the handler. -/
theorem run_tryCatch (p : Prog C R E α) (g : E → Prog C R E' α) (s : σ) :
    (p.tryCatch g).run h s
      = match (p.run h s).1 with
        | .ok a => (.ok a, (p.run h s).2)
        | .error e => (g e).run h (p.run h s).2 := by
  induction p generalizing s with
  | ret a => rfl
  | throw e => rfl
  | call c k ih => exact ih _ _

end Run

/-! ## Programs that keep to a protocol -/

/-- **A program conforms to a protocol** when, as long as every answer it
gets is one `post` allows, every command it issues is one `pre` allows and
every value it returns satisfies `Q`. -/
def Conforms (pre : C → Prop) (post : (c : C) → R c → Prop) (Q : α → Prop) :
    Prog C R E α → Prop
  | .ret a => Q a
  | .throw _ => True
  | .call c k => pre c ∧ ∀ r, post c r → (k r).Conforms pre post Q

section Conforms

variable {pre : C → Prop} {post : (c : C) → R c → Prop}
  {Q : α → Prop} {Q' : β → Prop}

/-- Sequencing conforms if both parts do. -/
theorem Conforms.bind {p : Prog C R E α} {f : α → Prog C R E β}
    (hp : p.Conforms pre post Q) (hf : ∀ a, Q a → (f a).Conforms pre post Q') :
    (p.bind f).Conforms pre post Q' := by
  induction p with
  | ret a => exact hf a hp
  | throw e => trivial
  | call c k ih => exact ⟨hp.1, fun r hr => ih r (hp.2 r hr)⟩

/-- A `try` block conforms if its body and its handler do. -/
theorem Conforms.tryCatch {p : Prog C R E α} {g : E → Prog C R E' α}
    (hp : p.Conforms pre post Q) (hg : ∀ e, (g e).Conforms pre post Q) :
    (p.tryCatch g).Conforms pre post Q := by
  induction p with
  | ret a => exact hp
  | throw e => exact hg e
  | call c k ih => exact ⟨hp.1, fun r hr => ih r (hp.2 r hr)⟩

/-- A program that conforms to a protocol conforms to a wider one. -/
theorem Conforms.mono {pre' : C → Prop} {post' : (c : C) → R c → Prop} {Q' : α → Prop}
    (hpre : ∀ c, pre c → pre' c) (hpost : ∀ c r, post' c r → post c r)
    (hQ : ∀ a, Q a → Q' a) {p : Prog C R E α} (hp : p.Conforms pre post Q) :
    p.Conforms pre' post' Q' := by
  induction p with
  | ret a => exact hQ a hp
  | throw e => trivial
  | call c k ih => exact ⟨hpre c hp.1, fun r hr => ih r (hp.2 r (hpost c r hr))⟩

/-- A result that is already there conforms if it may be returned. -/
theorem Conforms.ofExcept {x : Except E α} (hx : ∀ a, x = .ok a → Q a) :
    (Prog.ofExcept x : Prog C R E α).Conforms pre post Q := by
  cases x with
  | ok a => exact hx a rfl
  | error e => trivial

end Conforms

end Prog

/-! ## Runs under interference -/

/-- **A run of one program among others**: from `p` in `s` to `q` in `t`,
carrying out the listed commands. Before each command, and after the last,
others may have changed the state by `Rely`. -/
inductive Steps (H : Handler σ C R) (Rely : σ → σ → Prop) :
    Prog C R E α → σ → List (Event σ C R) → Prog C R E α → σ → Prop
  /-- No command is issued. -/
  | done {p : Prog C R E α} {s t : σ} (hr : Rely s t) :
      Steps H Rely p s [] p t
  /-- The program issues its next command. -/
  | own {c : C} {k : R c → Prog C R E α} {s s₁ s₂ t : σ} {r : R c}
      {es : List (Event σ C R)} {q : Prog C R E α}
      (hr : Rely s s₁) (h : H s₁ c r s₂) (rest : Steps H Rely (k r) s₂ es q t) :
      Steps H Rely (.call c k) s (⟨s₁, c, r, s₂⟩ :: es) q t

namespace Steps

variable {H H' : Handler σ C R} {Rely Rely' : σ → σ → Prop}
  {p q : Prog C R E α} {s t u : σ} {es es' : List (Event σ C R)}

/-- A run that starts with `Rely` is a run. -/
theorem rely_left [IsTrans σ Rely] (hr : Rely s t)
    (h : Steps H Rely p t es q u) : Steps H Rely p s es q u := by
  cases h with
  | done hr' => exact .done (IsTrans.trans _ _ _ hr hr')
  | own hr' hH rest => exact .own (IsTrans.trans _ _ _ hr hr') hH rest

/-- Runs compose. -/
theorem append [IsTrans σ Rely] {r : Prog C R E α}
    (h : Steps H Rely p s es q t) (h' : Steps H Rely q t es' r u) :
    Steps H Rely p s (es ++ es') r u := by
  induction h with
  | done hr => exact h'.rely_left hr
  | own hr hH _ ih => exact .own hr hH (ih h')

/-- One command is a run. -/
theorem one [Std.Refl Rely] {c : C} {k : R c → Prog C R E α} {r : R c} (h : H s c r t)
    (hk : k r = q) : Steps H Rely (.call c k) s [⟨s, c, r, t⟩] q t := by
  subst hk
  exact .own (Std.Refl.refl s) h (.done (Std.Refl.refl t))

/-- A larger handler and a weaker promise allow more runs. -/
theorem mono (hH : ∀ s c r s', H s c r s' → H' s c r s')
    (hR : ∀ s t, Rely s t → Rely' s t) (h : Steps H Rely p s es q t) :
    Steps H' Rely' p s es q t := by
  induction h with
  | done hr => exact .done (hR _ _ hr)
  | own hr h _ ih => exact .own (hR _ _ hr) (hH _ _ _ _ h) ih

/-- A program that has returned issues nothing. -/
theorem ret_inv {a : α} (h : Steps H Rely (.ret a) s es q t) :
    es = [] ∧ q = .ret a ∧ Rely s t := by
  cases h with
  | done hr => exact ⟨rfl, rfl, hr⟩

/-- A program that has thrown issues nothing. -/
theorem throw_inv {e : E} (h : Steps H Rely (.throw e) s es q t) :
    es = [] ∧ q = .throw e ∧ Rely s t := by
  cases h with
  | done hr => exact ⟨rfl, rfl, hr⟩

/-- A program about to issue a command is still there, or has issued it. -/
theorem call_inv {c : C} {k : R c → Prog C R E α}
    (h : Steps H Rely (.call c k) s es q t) :
    (es = [] ∧ q = .call c k ∧ Rely s t)
      ∨ ∃ s₁ r s₂ es', es = ⟨s₁, c, r, s₂⟩ :: es' ∧ Rely s s₁
        ∧ H s₁ c r s₂ ∧ Steps H Rely (k r) s₂ es' q t := by
  cases h with
  | done hr => exact Or.inl ⟨rfl, rfl, hr⟩
  | own hr hH rest => exact Or.inr ⟨_, _, _, _, rfl, hr, hH, rest⟩

/-- A run of the first program of a sequence is a run of the sequence. -/
theorem bind_left {f : α → Prog C R E β} (h : Steps H Rely p s es q t) :
    Steps H Rely (p.bind f) s es (q.bind f) t := by
  induction h with
  | done hr => exact .done hr
  | own hr hH _ ih => exact .own hr hH ih

/-- Runs of two programs are a run of their sequence. -/
theorem bind [IsTrans σ Rely] {f : α → Prog C R E β} {q : Prog C R E β} {a : α}
    (h : Steps H Rely p s es (.ret a) t) (h' : Steps H Rely (f a) t es' q u) :
    Steps H Rely (p.bind f) s (es ++ es') q u :=
  (h.bind_left (f := f)).append h'

/-- A run of the body of a `try` block is a run of the block. -/
theorem tryCatch {g : E → Prog C R E' α} (h : Steps H Rely p s es q t) :
    Steps H Rely (p.tryCatch g) s es (q.tryCatch g) t := by
  induction h with
  | done hr => exact .done hr
  | own hr hH _ ih => exact .own hr hH ih

/-- **A run of a sequence is inside the first program or past it.** -/
theorem bind_inv [Std.Refl Rely] {f : α → Prog C R E β} {q : Prog C R E β}
    (h : Steps H Rely (p.bind f) s es q t) :
    (∃ p', q = p'.bind f ∧ (∀ a, p' ≠ .ret a) ∧ Steps H Rely p s es p' t)
      ∨ ∃ a es₁ es₂ m, es = es₁ ++ es₂ ∧ Steps H Rely p s es₁ (.ret a) m
        ∧ Steps H Rely (f a) m es₂ q t := by
  induction p generalizing s es with
  | ret a => exact Or.inr ⟨a, [], es, s, rfl, .done (Std.Refl.refl s), h⟩
  | throw e =>
    obtain ⟨rfl, rfl, hr⟩ := throw_inv h
    exact Or.inl ⟨.throw e, rfl, nofun, .done hr⟩
  | call c k ih =>
    rw [Prog.call_bind] at h
    rcases call_inv h with ⟨rfl, rfl, hr⟩ | ⟨s₁, r, s₂, es', rfl, hr, hH, rest⟩
    · exact Or.inl ⟨.call c k, rfl, nofun, .done hr⟩
    · rcases ih r rest with ⟨p', rfl, hp', hp⟩ | ⟨a, es₁, es₂, m, rfl, hp, hf⟩
      · exact Or.inl ⟨p', rfl, hp', .own hr hH hp⟩
      · exact Or.inr ⟨a, _ :: es₁, es₂, m, rfl, .own hr hH hp, hf⟩

/-- A sequence that has returned has returned from both programs. -/
theorem bind_ret_inv [Std.Refl Rely] {f : α → Prog C R E β} {b : β}
    (h : Steps H Rely (p.bind f) s es (.ret b) t) :
    ∃ a es₁ es₂ m, es = es₁ ++ es₂ ∧ Steps H Rely p s es₁ (.ret a) m
      ∧ Steps H Rely (f a) m es₂ (.ret b) t := by
  refine h.bind_inv.resolve_left ?_
  rintro ⟨p', hq, hp', -⟩
  obtain ⟨a, ha, -⟩ := Prog.bind_eq_ret_iff.mp hq.symm
  exact hp' a ha

/-- A sequence that has thrown has thrown in one of the programs. -/
theorem bind_throw_inv [Std.Refl Rely] {f : α → Prog C R E β} {e : E}
    (h : Steps H Rely (p.bind f) s es (.throw e) t) :
    Steps H Rely p s es (.throw e) t
      ∨ ∃ a es₁ es₂ m, es = es₁ ++ es₂ ∧ Steps H Rely p s es₁ (.ret a) m
        ∧ Steps H Rely (f a) m es₂ (.throw e) t := by
  refine h.bind_inv.imp_left ?_
  rintro ⟨p', hq, hp', hp⟩
  rcases Prog.bind_eq_throw_iff.mp hq.symm with rfl | ⟨a, ha, -⟩
  · exact hp
  · exact absurd ha (hp' a)

/-- **A run of a `try` block is inside its body or in its handler.** -/
theorem tryCatch_inv [Std.Refl Rely] {g : E → Prog C R E' α}
    {q : Prog C R E' α} (h : Steps H Rely (p.tryCatch g) s es q t) :
    (∃ p', q = p'.tryCatch g ∧ Steps H Rely p s es p' t)
      ∨ ∃ e es₁ es₂ m, es = es₁ ++ es₂ ∧ Steps H Rely p s es₁ (.throw e) m
        ∧ Steps H Rely (g e) m es₂ q t := by
  induction p generalizing s es with
  | ret a =>
    obtain ⟨rfl, rfl, hr⟩ := ret_inv h
    exact Or.inl ⟨.ret a, rfl, .done hr⟩
  | throw e => exact Or.inr ⟨e, [], es, s, rfl, .done (Std.Refl.refl s), h⟩
  | call c k ih =>
    rw [Prog.call_tryCatch] at h
    rcases call_inv h with ⟨rfl, rfl, hr⟩ | ⟨s₁, r, s₂, es', rfl, hr, hH, rest⟩
    · exact Or.inl ⟨.call c k, rfl, .done hr⟩
    · rcases ih r rest with ⟨p', rfl, hp⟩ | ⟨e, es₁, es₂, m, rfl, hp, hg⟩
      · exact Or.inl ⟨p', rfl, .own hr hH hp⟩
      · exact Or.inr ⟨e, _ :: es₁, es₂, m, rfl, .own hr hH hp, hg⟩

/-- A run can be cut between any two of its commands. -/
theorem split [Std.Refl Rely] (h : Steps H Rely p s (es ++ es') q t) :
    ∃ r m, Steps H Rely p s es r m ∧ Steps H Rely r m es' q t := by
  induction es generalizing p s with
  | nil => exact ⟨p, s, .done (Std.Refl.refl s), h⟩
  | cons e es ih =>
    cases h with
    | own hr hH rest =>
      obtain ⟨r, m, h₁, h₂⟩ := ih rest
      exact ⟨r, m, .own hr hH h₁, h₂⟩

/-- Every command of a run is one the handler allows. -/
theorem handled (h : Steps H Rely p s es q t) :
    ∀ e ∈ es, H e.pre e.cmd e.resp e.post := by
  induction h with
  | done => simp
  | own _ hH _ ih => exact List.forall_mem_cons.mpr ⟨hH, ih⟩

/-! ## What an invariant of the handler says of a run -/

section Invariant

variable {pre : C → Prop} {post : (c : C) → R c → Prop} {Q : α → Prop}
  {I : σ → Prop} {G : σ → σ → Prop}

/-- **The handler keeps an invariant**: in a state that satisfies `I`, a
command the protocol allows is answered as the protocol promises, leaves a
state that satisfies `I`, and moves the state by `G`. -/
def Keeps (H : Handler σ C R) (pre : C → Prop) (post : (c : C) → R c → Prop)
    (I : σ → Prop) (G : σ → σ → Prop) : Prop :=
  ∀ s c r s', I s → pre c → H s c r s' → post c r ∧ I s' ∧ G s s'

/-- **The invariant rule.** A program that conforms to a protocol whose
handler keeps an invariant still conforms after any run, and keeps the
invariant; every command it issued moved the state by `G`. -/
theorem invariant (hH : Keeps H pre post I G) (hI : ∀ s t, I s → Rely s t → I t)
    (hp : p.Conforms pre post Q) (hs : I s) (h : Steps H Rely p s es q t) :
    q.Conforms pre post Q ∧ I t ∧ ∀ e ∈ es, pre e.cmd ∧ post e.cmd e.resp
      ∧ G e.pre e.post := by
  induction h with
  | done hr => exact ⟨hp, hI _ _ hs hr, by simp⟩
  | own hr hc _ ih =>
    obtain ⟨hpost, hI', hG'⟩ := hH _ _ _ _ (hI _ _ hs hr) hp.1 hc
    obtain ⟨hq, ht, hes⟩ := ih (hp.2 _ hpost) hI'
    exact ⟨hq, ht, List.forall_mem_cons.mpr ⟨⟨hp.1, hpost, hG'⟩, hes⟩⟩

/-- **The states of a run are in order**, if what others do and what its own
commands do is. -/
theorem ordered [Std.Refl G] [IsTrans σ G] (hG : ∀ s t, Rely s t → G s t)
    (hes : ∀ e ∈ es, G e.pre e.post) (h : Steps H Rely p s es q t) :
    G s t ∧ (∀ e ∈ es, G s e.pre ∧ G e.post t)
      ∧ es.Pairwise (fun e e' => G e.post e'.pre) := by
  induction h with
  | done hr => exact ⟨hG _ _ hr, by simp, .nil⟩
  | own hr hc _ ih =>
    obtain ⟨hown, hrest⟩ := List.forall_mem_cons.mp hes
    obtain ⟨hst, hbetween, hpair⟩ := ih hrest
    have hpre := hG _ _ hr
    have hpost := IsTrans.trans _ _ _ hpre hown
    refine ⟨IsTrans.trans _ _ _ hpost hst, List.forall_mem_cons.mpr ⟨⟨hpre, hst⟩, ?_⟩,
      List.pairwise_cons.mpr ⟨fun e he => (hbetween e he).1, hpair⟩⟩
    exact fun e he => ⟨IsTrans.trans _ _ _ hpost (hbetween e he).1, (hbetween e he).2⟩

end Invariant

end Steps

/-! ## Reading a run over an abstract state -/

/-- The event over the concrete state that an event over the abstract state
stands for. -/
def Event.map (f : τ → σ) (e : Event τ C R) : Event σ C R :=
  ⟨f e.pre, e.cmd, e.resp, f e.post⟩

theorem Event.map_injective {f : τ → σ} (hf : Function.Injective f) :
    Function.Injective (Event.map f : Event τ C R → Event σ C R) := by
  rintro ⟨pre, cmd, resp, post⟩ ⟨pre', cmd', resp', post'⟩ h
  obtain ⟨hpre, hcmd, hresp, hpost⟩ := Event.mk.inj h
  obtain rfl : cmd = cmd' := hcmd
  obtain rfl : resp = resp' := eq_of_heq hresp
  obtain rfl : pre = pre' := hf hpre
  obtain rfl : post = post' := hf hpost
  rfl

/-- The handler over the abstract state `τ` that a handler over `σ` induces
when each abstract state stands for a concrete one. -/
def Handler.pull (H : Handler σ C R) (f : τ → σ) : Handler τ C R :=
  fun s c r s' => H (f s) c r (f s')

/-- **The concrete handler simulates the abstract one**: a command the
protocol allows, issued in a state that stands for something, is answered
as the protocol promises and leaves a state that stands for something. -/
def Handler.Simulates (H : Handler σ C R) (f : τ → σ) (pre : C → Prop)
    (post : (c : C) → R c → Prop) : Prop :=
  ∀ s c r d, pre c → H (f s) c r d → post c r ∧ ∃ s', d = f s'

/-- **A run over a concrete state that simulates an abstract one is a run
over the abstract state**, for a program by itself. -/
theorem Steps.lift {H : Handler σ C R} {f : τ → σ} {pre : C → Prop}
    {post : (c : C) → R c → Prop} {Q : α → Prop} (hH : H.Simulates f pre post)
    {p q : Prog C R E α} (hp : p.Conforms pre post Q) {a : τ} {d : σ}
    {es : List (Event σ C R)} (h : Steps H Eq p (f a) es q d) :
    ∃ b es', d = f b ∧ es = es'.map (Event.map f) ∧ Steps (H.pull f) Eq p a es' q b
      ∧ q.Conforms pre post Q := by
  generalize hs : f a = s at h
  induction h generalizing a with
  | done hr => exact ⟨a, [], hr.symm.trans hs.symm, rfl, .done rfl, hp⟩
  | own hr hc _ ih =>
    subst hs hr
    obtain ⟨hpost, a₁, rfl⟩ := hH _ _ _ _ hp.1 hc
    obtain ⟨b, es', rfl, rfl, hrun, hq⟩ := ih (hp.2 _ hpost) rfl
    exact ⟨b, ⟨a, _, _, a₁⟩ :: es', rfl, rfl, .own rfl hc hrun, hq⟩

/-- A run over the abstract state stands for one over the concrete state. -/
theorem Steps.unlift {H : Handler σ C R} {f : τ → σ} {p q : Prog C R E α} {a b : τ}
    {es : List (Event τ C R)} (h : Steps (H.pull f) Eq p a es q b) :
    Steps H Eq p (f a) (es.map (Event.map f)) q (f b) := by
  induction h with
  | done hr => exact .done (congrArg f hr)
  | own hr hc _ ih => exact .own (congrArg f hr) hc ih
