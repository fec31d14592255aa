import Mathlib.Logic.Function.Basic
import Mathlib.Data.List.Basic
import TZ.Interaction

/-!
# Programs that run side by side

A family of programs shares one state. At every turn some program of the
family issues its next command; which one is not determined, and nothing is
assumed about fairness. `Interleaved` is the runs of such a family, with the
list of turns taken.

Three facts make the runs usable. A program of the family sees a run of its
own, in which the turns of the others are interference
(`Interleaved.project`); so what is proved of one program under `Steps` is
proved of it in every interleaving. A run of one program alone is an
interleaving in which the others wait (`Interleaved.alone`). And a run over
a concrete state that simulates an abstract one is a run over the abstract
state (`Interleaved.lift`).

The state is shared and the programs are not: a program changes only by its own turns,
so what is left of it is determined by the answers it got. There is no notion of a
thread that is blocked or a schedule that is fair, because no statement needs one; a run
may stop at any turn, which also covers a process that dies. The module names nothing of
this repository. Commands, answers, states and exceptions are parameters.
-/

variable {ι σ τ C E α : Type} {R : C → Type}

/-- A turn: which program took it, and what it did. -/
abbrev Turn (ι σ C : Type) (R : C → Type) := ι × Event σ C R

/-- **The interleaved runs of a family of programs** over a shared state:
from the programs `ps` in `s`, by the listed turns, to `ps'` in `t`.

The index type is arbitrary, with decidable equality to update the family at
one place. The programs of infinite families are all there from the beginning,
and most of them never take a turn. -/
inductive Interleaved [DecidableEq ι] (H : Handler σ C R) :
    (ι → Prog C R E α) → σ → List (Turn ι σ C R) → (ι → Prog C R E α) → σ →
      Prop
  /-- No turn is taken. -/
  | nil {ps : ι → Prog C R E α} {s : σ} : Interleaved H ps s [] ps s
  /-- Program `i` issues its next command. -/
  | cons {ps ps' : ι → Prog C R E α} {i : ι} {c : C}
      {k : R c → Prog C R E α} {r : R c} {s s₁ t : σ}
      {tr : List (Turn ι σ C R)}
      (hp : ps i = .call c k) (h : H s c r s₁)
      (rest : Interleaved H (Function.update ps i (k r)) s₁ tr ps' t) :
      Interleaved H ps s ((i, ⟨s, c, r, s₁⟩) :: tr) ps' t

/-- The turns of one program, as its own events. -/
def ownTurns [DecidableEq ι] (i : ι) (tr : List (Turn ι σ C R)) :
    List (Event σ C R) :=
  tr.filterMap (fun e => if e.1 = i then some e.2 else none)

section OwnTurns

variable [DecidableEq ι] (i : ι)

@[simp] theorem ownTurns_nil :
    ownTurns i ([] : List (Turn ι σ C R)) = [] := rfl

@[simp] theorem ownTurns_cons_self (e : Event σ C R)
    (tr : List (Turn ι σ C R)) :
    ownTurns i ((i, e) :: tr) = e :: ownTurns i tr := by
  simp [ownTurns]

theorem ownTurns_cons_of_ne {j : ι} (h : j ≠ i) (e : Event σ C R)
    (tr : List (Turn ι σ C R)) :
    ownTurns i ((j, e) :: tr) = ownTurns i tr := by
  simp [ownTurns, h]

@[simp] theorem ownTurns_append (tr tr' : List (Turn ι σ C R)) :
    ownTurns i (tr ++ tr') = ownTurns i tr ++ ownTurns i tr' := by
  simp [ownTurns]

/-- The turns of one program by itself are its own. -/
theorem ownTurns_map_self (es : List (Event σ C R)) :
    ownTurns i (es.map (Prod.mk i)) = es := by
  induction es with
  | nil => rfl
  | cons e es ih => rw [List.map_cons, ownTurns_cons_self, ih]

theorem ownTurns_map_of_ne {j : ι} (h : j ≠ i) (es : List (Event σ C R)) :
    ownTurns i (es.map (Prod.mk j)) = [] := by
  induction es with
  | nil => rfl
  | cons e es ih => rw [List.map_cons, ownTurns_cons_of_ne i h, ih]

@[simp] theorem mem_ownTurns {e : Event σ C R} {tr : List (Turn ι σ C R)} :
    e ∈ ownTurns i tr ↔ (i, e) ∈ tr := by
  unfold ownTurns
  rw [List.mem_filterMap]
  constructor
  · rintro ⟨⟨j, e'⟩, hmem, h⟩
    by_cases hj : j = i
    · rw [if_pos hj] at h
      cases h
      exact hj ▸ hmem
    · rw [if_neg hj] at h
      cases h
  · intro h
    exact ⟨(i, e), h, if_pos rfl⟩

/-- **The turns of a run are those of its programs**, when every program that
takes one is listed. -/
theorem ownTurns_perm {l : List ι} (hl : l.Nodup) {tr : List (Turn ι σ C R)}
    (htr : ∀ e ∈ tr, e.1 ∈ l) :
    (tr.map Prod.snd).Perm (l.flatMap fun i => ownTurns i tr) := by
  induction tr with
  | nil =>
    rw [show (fun i : ι => ownTurns i ([] : List (Turn ι σ C R))) = fun _ => [] from rfl,
      List.flatMap_eq_nil_iff.mpr fun _ _ => rfl]
    exact .nil
  | cons e tr ih =>
    obtain ⟨i, e⟩ := e
    obtain ⟨hi, htr⟩ := List.forall_mem_cons.mp htr
    obtain ⟨l₁, l₂, rfl⟩ := List.append_of_mem hi
    have hne : i ∉ l₁ ∧ i ∉ l₂ := by
      rw [List.nodup_append, List.nodup_cons] at hl
      exact ⟨fun h => hl.2.2 i h i List.mem_cons_self rfl, hl.2.1.1⟩
    -- the turns of the others are what they were
    have hothers : ∀ l' : List ι, i ∉ l' → (l'.flatMap fun j => ownTurns j ((i, e) :: tr))
        = l'.flatMap fun j => ownTurns j tr := by
      intro l' hl'
      refine List.flatMap_congr fun j hj => ownTurns_cons_of_ne j ?_ e tr
      rintro rfl
      exact hl' hj
    have ih := ih htr
    rw [List.flatMap_append, List.flatMap_cons] at ih ⊢
    rw [hothers _ hne.1, hothers _ hne.2, ownTurns_cons_self]
    exact (ih.cons e).trans List.perm_middle.symm

end OwnTurns

namespace Interleaved

variable [DecidableEq ι] {H : Handler σ C R} {ps ps' ps'' : ι → Prog C R E α}
  {s t u : σ} {tr tr' : List (Turn ι σ C R)}

/-- Runs compose. -/
theorem append (h : Interleaved H ps s tr ps' t)
    (h' : Interleaved H ps' t tr' ps'' u) :
    Interleaved H ps s (tr ++ tr') ps'' u := by
  induction h with
  | nil => exact h'
  | cons hp hc _ ih => exact .cons hp hc (ih h')

/-- A handler that allows more has more runs.

This is used to read a run in which nothing fails as one in which something
might have. -/
theorem mono {H' : Handler σ C R} (hH : ∀ s c r s', H s c r s' → H' s c r s')
    (h : Interleaved H ps s tr ps' t) : Interleaved H' ps s tr ps' t := by
  induction h with
  | nil => exact .nil
  | cons hp hc _ ih => exact .cons hp (hH _ _ _ _ hc) ih

/-- A run can be cut between any two turns. -/
theorem split (h : Interleaved H ps s (tr ++ tr') ps'' u) :
    ∃ ps' t, Interleaved H ps s tr ps' t
      ∧ Interleaved H ps' t tr' ps'' u := by
  induction tr generalizing ps s with
  | nil => exact ⟨ps, s, .nil, h⟩
  | cons e tr ih =>
    cases h with
    | cons hp hc rest =>
      obtain ⟨ps', t, h₁, h₂⟩ := ih rest
      exact ⟨ps', t, .cons hp hc h₁, h₂⟩

/-- A run that begins with a turn begins in the state of that turn. -/
theorem cons_inv {e : Turn ι σ C R} (h : Interleaved H ps s (e :: tr) ps' t) :
    e.2.pre = s ∧ H s e.2.cmd e.2.resp e.2.post
      ∧ ∃ k, ps e.1 = .call e.2.cmd k
        ∧ Interleaved H (Function.update ps e.1 (k e.2.resp)) e.2.post tr ps' t := by
  cases h with
  | cons hp hc rest => exact ⟨rfl, hc, _, hp, rest⟩

/-- The run before, at, and after a given turn.

Statements that say what was the case "when" something happened are about such
a cut. -/
theorem split_at {e : Turn ι σ C R}
    (h : Interleaved H ps s (tr ++ e :: tr') ps'' u) :
    ∃ ps' k, Interleaved H ps s tr ps' e.2.pre
      ∧ H e.2.pre e.2.cmd e.2.resp e.2.post ∧ ps' e.1 = .call e.2.cmd k
      ∧ Interleaved H (Function.update ps' e.1 (k e.2.resp)) e.2.post tr' ps'' u := by
  obtain ⟨ps', t, h₁, h₂⟩ := h.split
  obtain ⟨rfl, hc, k, hk, rest⟩ := h₂.cons_inv
  exact ⟨ps', k, h₁, hc, hk, rest⟩

/-- **Every program of a family sees a run of its own**, in which the turns
of the others are interference.

The hypothesis says how the others may interfere, and only turns of the others
are asked to keep to it. -/
theorem project {Rely : σ → σ → Prop} [Std.Refl Rely] [IsTrans σ Rely] {i : ι}
    (h : Interleaved H ps s tr ps' t)
    (hothers : ∀ e ∈ tr, e.1 ≠ i → Rely e.2.pre e.2.post) :
    Steps H Rely (ps i) s (ownTurns i tr) (ps' i) t := by
  induction h with
  | nil => exact .done (Std.Refl.refl _)
  | @cons ps _ j c k r s s₁ t tr hp hc rest ih =>
    obtain ⟨hj, hrest⟩ := List.forall_mem_cons.mp hothers
    have hsteps := ih hrest
    by_cases hji : j = i
    · subst hji
      rw [Function.update_self] at hsteps
      rw [ownTurns_cons_self, hp]
      exact .own (Std.Refl.refl _) hc hsteps
    · rw [Function.update_of_ne (Ne.symm hji)] at hsteps
      rw [ownTurns_cons_of_ne i hji]
      exact hsteps.rely_left (hj hji)

/-- **A program that runs alone** is an interleaving in which the others
wait. -/
theorem alone {p q : Prog C R E α} {es : List (Event σ C R)} {i : ι}
    (h : Steps H Eq p s es q t) (hp : ps i = p) :
    Interleaved H ps s (es.map (Prod.mk i)) (Function.update ps i q) t := by
  induction h generalizing ps with
  | done hr =>
    subst hr hp
    rw [Function.update_eq_self]
    exact .nil
  | own hr hc _ ih =>
    subst hr
    refine .cons hp hc ?_
    have hrest := ih (Function.update_self i _ ps)
    rwa [Function.update_idem] at hrest

/-- A run, and then one program by itself. -/
theorem then_alone {p q : Prog C R E α} {es : List (Event σ C R)} {i : ι}
    (h : Interleaved H ps s tr ps' t) (h' : Steps H Eq p t es q u) (hp : ps' i = p) :
    Interleaved H ps s (tr ++ es.map (Prod.mk i)) (Function.update ps' i q) u :=
  h.append (alone h' hp)

/-- **Two programs, one after the other**, while the rest of the family waits. -/
theorem one_then_other {q q' : Prog C R E α} {es es' : List (Event σ C R)} {i j : ι}
    (hij : i ≠ j) (h : Steps H Eq (ps i) s es q t) (h' : Steps H Eq (ps j) t es' q' u) :
    ∃ left, Interleaved H ps s (es.map (Prod.mk i) ++ es'.map (Prod.mk j)) left u
      ∧ left i = q ∧ left j = q' :=
  ⟨_, (alone h rfl).then_alone h' (Function.update_of_ne hij.symm _ _),
    (Function.update_of_ne hij _ _).trans (Function.update_self _ _ _),
    Function.update_self _ _ _⟩

/-! ## The points of a run

A point is described by the programs that are left, so conditions on it can speak
about what each of them is about to do. -/

/-- **A run goes through a point**: there are these programs left in this
state, with some of the turns taken and the others to come. -/
def Visits (H : Handler σ C R) (ps : ι → Prog C R E α) (s : σ)
    (tr : List (Turn ι σ C R)) (ps' : ι → Prog C R E α) (t : σ)
    (qs : ι → Prog C R E α) (m : σ) : Prop :=
  ∃ before after, tr = before ++ after ∧ Interleaved H ps s before qs m
    ∧ Interleaved H qs m after ps' t

/-- A run goes through its start. -/
theorem visits_start (h : Interleaved H ps s tr ps' t) :
    Visits H ps s tr ps' t ps s :=
  ⟨[], tr, rfl, .nil, h⟩

/-- A run goes through the points of what is left of it after a turn. -/
theorem visits_cons {i : ι} {c : C} {k : R c → Prog C R E α} {r : R c} {s₁ : σ}
    {qs : ι → Prog C R E α} {m : σ} (hp : ps i = .call c k) (hc : H s c r s₁)
    (h : Visits H (Function.update ps i (k r)) s₁ tr ps' t qs m) :
    Visits H ps s ((i, ⟨s, c, r, s₁⟩) :: tr) ps' t qs m := by
  obtain ⟨before, after, rfl, h₁, h₂⟩ := h
  exact ⟨_ :: before, after, rfl, .cons hp hc h₁, h₂⟩

/-! ## Invariants

Two rules, of different strength. The first is for invariants of the state alone. The
second has an assertion for every program, which may relate the program to the state,
and which the turns of others must not disturb; this is the one that carries most of
the development. -/

section Invariant

variable {pre : C → Prop} {post : (c : C) → R c → Prop} {Q : α → Prop}
  {I : σ → Prop} {G : σ → σ → Prop}

/-- **The invariant rule**, for a family of programs that conform to a
protocol whose handler keeps an invariant. -/
theorem invariant [Std.Refl G] [IsTrans σ G]
    (hH : Steps.Keeps H pre post I G) (hps : ∀ i, (ps i).Conforms pre post Q)
    (hs : I s) (h : Interleaved H ps s tr ps' t) :
    (∀ i, (ps' i).Conforms pre post Q) ∧ I t ∧ G s t
      ∧ ∀ e ∈ tr, pre e.2.cmd ∧ post e.2.cmd e.2.resp
        ∧ G e.2.pre e.2.post := by
  induction h with
  | nil => exact ⟨hps, hs, Std.Refl.refl _, by simp⟩
  | @cons ps _ i c k r s s₁ t tr hp hc _ ih =>
    have hi : (Prog.call c k).Conforms pre post Q := hp ▸ hps i
    obtain ⟨hpost, hI, hG⟩ := hH _ _ _ _ hs hi.1 hc
    have hps₁ : ∀ j, (Function.update ps i (k r) j).Conforms pre post Q := by
      intro j
      by_cases hj : j = i
      · subst hj
        rw [Function.update_self]
        exact hi.2 r hpost
      · rw [Function.update_of_ne hj]
        exact hps j
    obtain ⟨hps', ht, hg, htr⟩ := ih hps₁ hI
    exact ⟨hps', ht, IsTrans.trans _ _ _ hG hg,
      List.forall_mem_cons.mpr ⟨⟨hi.1, hpost, hG⟩, htr⟩⟩

end Invariant

/-- **The rely-guarantee rule.** An assertion about each program and the
state holds throughout if a turn of the program keeps its own and moves the
state by `G`, and moving the state by `G` keeps those of the others.

By induction on the run. At each turn one assertion is kept by the step of the
program, and all the others because the step is one of those they rely on. -/
theorem rely_guarantee {J : ι → Prog C R E α → σ → Prop} {G : σ → σ → Prop}
    (hstep : ∀ i c k s r s', J i (.call c k) s → H s c r s' → J i (k r) s' ∧ G s s')
    (hstable : ∀ i q s s', J i q s → G s s' → J i q s')
    (hps : ∀ i, J i (ps i) s) (h : Interleaved H ps s tr ps' t) :
    (∀ i, J i (ps' i) t)
      ∧ ∀ e ∈ tr, G e.2.pre e.2.post ∧ ∃ k, J e.1 (.call e.2.cmd k) e.2.pre
        ∧ H e.2.pre e.2.cmd e.2.resp e.2.post := by
  induction h with
  | nil => exact ⟨hps, by simp⟩
  | @cons ps _ i c k r s s₁ t tr hp hc _ ih =>
    have hi : J i (.call c k) s := hp ▸ hps i
    obtain ⟨hJ, hG⟩ := hstep i c k s r s₁ hi hc
    have hps₁ : ∀ j, J j (Function.update ps i (k r) j) s₁ := by
      intro j
      by_cases hj : j = i
      · subst hj
        rw [Function.update_self]
        exact hJ
      · rw [Function.update_of_ne hj]
        exact hstable j _ _ _ (hps j) hG
    obtain ⟨hps', htr⟩ := ih hps₁
    exact ⟨hps', List.forall_mem_cons.mpr ⟨⟨hG, k, hi, hc⟩, htr⟩⟩

/-- Every turn of a run lies between its first state and its last.

For a relation that is reflexive and transitive, such as growing. -/
theorem between {G : σ → σ → Prop} [Std.Refl G] [IsTrans σ G]
    (h : Interleaved H ps s tr ps' t) (htr : ∀ e ∈ tr, G e.2.pre e.2.post) :
    G s t ∧ ∀ e ∈ tr, G s e.2.pre ∧ G e.2.post t := by
  induction h with
  | nil => exact ⟨Std.Refl.refl _, by simp⟩
  | cons hp hc _ ih =>
    obtain ⟨hG, htr⟩ := List.forall_mem_cons.mp htr
    obtain ⟨hrest, hall⟩ := ih htr
    refine ⟨IsTrans.trans _ _ _ hG hrest, List.forall_mem_cons.mpr
      ⟨⟨Std.Refl.refl _, hrest⟩, fun e he => ⟨?_, (hall e he).2⟩⟩⟩
    exact IsTrans.trans _ _ _ hG (hall e he).1

/-- The turns of a run follow one another. -/
theorem ordered {G : σ → σ → Prop} [Std.Refl G] [IsTrans σ G]
    (h : Interleaved H ps s tr ps' t) (htr : ∀ e ∈ tr, G e.2.pre e.2.post) :
    tr.Pairwise fun e e' => G e.2.post e'.2.pre := by
  induction h with
  | nil => exact .nil
  | cons hp hc rest ih =>
    obtain ⟨-, htr⟩ := List.forall_mem_cons.mp htr
    exact List.pairwise_cons.mpr ⟨fun e he => ((rest.between htr).2 e he).1, ih htr⟩

/-- What holds at the end of a run held at its start, or some turn brought it
about. -/
theorem origin {P : σ → Prop} (h : Interleaved H ps s tr ps' t) (ht : P t) :
    P s ∨ ∃ e ∈ tr, ¬ P e.2.pre ∧ P e.2.post := by
  induction h with
  | nil => exact Or.inl ht
  | @cons ps _ i c k r s s₁ t tr hp hc _ ih =>
    rcases ih ht with hs₁ | ⟨e, he, hpre, hpost⟩
    · by_cases hs : P s
      · exact Or.inl hs
      · exact Or.inr ⟨_, List.mem_cons_self, hs, hs₁⟩
    · exact Or.inr ⟨e, List.mem_cons_of_mem _ he, hpre, hpost⟩

/-- A run whose answers all satisfy a property is a run of surroundings that
give no others. -/
theorem restrict {P : (c : C) → R c → Prop} (h : Interleaved H ps s tr ps' t)
    (htr : ∀ e ∈ tr, P e.2.cmd e.2.resp) :
    Interleaved (fun s c r s' => H s c r s' ∧ P c r) ps s tr ps' t := by
  induction h with
  | nil => exact .nil
  | cons hp hc _ ih =>
    obtain ⟨hresp, htr⟩ := List.forall_mem_cons.mp htr
    exact .cons hp ⟨hc, hresp⟩ (ih htr)

/-! ## Reading a run over an abstract state

If every step over concrete states is one over abstract states, then so is every run,
with the turns translated one by one. -/

section Abstract

variable {f : τ → σ} {pre : C → Prop} {post : (c : C) → R c → Prop}
  {Q : α → Prop}

/-- A turn over the concrete state that a turn over the abstract state
stands for. -/
def mapTurn (f : τ → σ) (e : Turn ι τ C R) : Turn ι σ C R :=
  (e.1, e.2.map f)

omit [DecidableEq ι] in
@[simp] theorem mapTurn_fst (e : Turn ι τ C R) : (mapTurn f e).1 = e.1 := rfl

omit [DecidableEq ι] in
@[simp] theorem mapTurn_snd (e : Turn ι τ C R) :
    (mapTurn f e).2 = e.2.map f := rfl

omit [DecidableEq ι] in
theorem mapTurn_injective (hf : Function.Injective f) :
    Function.Injective (mapTurn f : Turn ι τ C R → Turn ι σ C R) := by
  rintro ⟨i, e⟩ ⟨j, e'⟩ h
  obtain ⟨hi, he⟩ := Prod.mk.inj h
  exact Prod.ext hi (Event.map_injective hf he)

theorem ownTurns_mapTurn (i : ι) (tr : List (Turn ι τ C R)) :
    ownTurns i (tr.map (mapTurn f)) = (ownTurns i tr).map (Event.map f) := by
  induction tr with
  | nil => rfl
  | cons e tr ih =>
    obtain ⟨j, e⟩ := e
    rw [List.map_cons]
    by_cases hj : j = i
    · subst hj
      rw [ownTurns_cons_self, List.map_cons, ← ih]
      exact ownTurns_cons_self j _ _
    · rw [ownTurns_cons_of_ne i hj, ← ih]
      exact ownTurns_cons_of_ne i hj _ _

/-- **A run over a concrete state that simulates an abstract one is a run
over the abstract state.** -/
theorem lift (hH : H.Simulates f pre post)
    (hps : ∀ i, (ps i).Conforms pre post Q) {a : τ} {d : σ}
    (h : Interleaved H ps (f a) tr ps' d) :
    ∃ b tr', d = f b ∧ tr = tr'.map (mapTurn f)
      ∧ Interleaved (H.pull f) ps a tr' ps' b
      ∧ (∀ i, (ps' i).Conforms pre post Q)
      ∧ ∀ e ∈ tr', pre e.2.cmd ∧ post e.2.cmd e.2.resp := by
  generalize hs : f a = s at h
  induction h generalizing a with
  | nil => exact ⟨a, [], hs.symm, rfl, .nil, hps, by simp⟩
  | @cons ps _ i c k r s s₁ t tr hp hc _ ih =>
    subst hs
    have hi : (Prog.call c k).Conforms pre post Q := hp ▸ hps i
    obtain ⟨hpost, a₁, rfl⟩ := hH _ _ _ _ hi.1 hc
    have hps₁ : ∀ j, (Function.update ps i (k r) j).Conforms pre post Q := by
      intro j
      by_cases hj : j = i
      · subst hj
        rw [Function.update_self]
        exact hi.2 r hpost
      · rw [Function.update_of_ne hj]
        exact hps j
    obtain ⟨b, tr', rfl, rfl, hrun, hps', htr⟩ := ih hps₁ rfl
    exact ⟨b, (i, ⟨a, c, r, a₁⟩) :: tr', rfl, rfl, .cons hp hc hrun, hps',
      List.forall_mem_cons.mpr ⟨⟨hi.1, hpost⟩, htr⟩⟩

/-- A run over the abstract state stands for one over the concrete
state. -/
theorem unlift {a b : τ} {tr' : List (Turn ι τ C R)}
    (h : Interleaved (H.pull f) ps a tr' ps' b) :
    Interleaved H ps (f a) (tr'.map (mapTurn f)) ps' (f b) := by
  induction h with
  | nil => exact .nil
  | cons hp hc _ ih => exact .cons hp hc ih

end Abstract

end Interleaved
