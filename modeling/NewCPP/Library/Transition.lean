import Mathlib.Data.Finite.Defs
import Mathlib.Data.List.Basic
import Mathlib.Data.Set.Finite.Basic
import Mathlib.Logic.Relation
import Mathlib.Order.WellFounded
import Mathlib.Tactic.Common

/-!
# Transition systems

A transition system is a relation `step` on states; a run is a path of it, that is a
pair in `Relation.ReflTransGen step`.

* `invariant_of_run` — what holds at the start and survives every step holds along
  every run.
* `restrict` — the steps that meet a condition on the state they start from; a run of
  `restrict step ok` is a run whose steps all meet it.
* `restrictAt` — the steps of a system of which those of one kind meet such a condition.
* `labelled` — the steps of a labelled system whose label meets a condition on the state
  the step is taken in.
* `guarded` — the same where the actions are given by a function; `run_of_follow` finds such
  runs by computation.
* `Steps.add_le` — a run is at most as long as what a measure loses on it.
* `wellFounded_of_acyclic` — a relation without cycles in which only finitely many
  states have successors admits no infinite path.
-/

namespace Library.Transition

universe u v

variable {σ : Type u} {step : σ → σ → Prop}

/-- The invariant rule. -/
theorem invariant_of_run {I : σ → Prop} (hstep : ∀ {s s'}, I s → step s s' → I s')
    {s s' : σ} (hinit : I s) (hrun : Relation.ReflTransGen step s s') : I s' := by
  induction hrun with
  | refl => exact hinit
  | tail _ hlast ih => exact hstep ih hlast

/-- The steps from states that meet a condition. -/
def restrict (step : σ → σ → Prop) (ok : σ → Prop) (s s' : σ) : Prop :=
  ok s ∧ step s s'

/-- The invariant rule for runs whose steps meet a condition. -/
theorem invariant_of_restricted_run {I ok : σ → Prop}
    (hstep : ∀ {s s'}, I s → ok s → step s s' → I s') {s s' : σ} (hinit : I s)
    (hrun : Relation.ReflTransGen (restrict step ok) s s') : I s' := by
  refine invariant_of_run (I := I) ?_ hinit hrun
  intro s s' hI hs
  exact hstep hI hs.1 hs.2

/-- The steps, those of one kind only from states that meet a condition. -/
def restrictAt (step kind : σ → σ → Prop) (ok : σ → Prop) (s s' : σ) : Prop :=
  step s s' ∧ (kind s s' → ok s)

/-- The invariant rule for runs whose steps of one kind meet a condition. -/
theorem invariant_of_run_restrictAt {kind : σ → σ → Prop} {I ok : σ → Prop}
    (hstep : ∀ {s s'}, I s → (kind s s' → ok s) → step s s' → I s') {s s' : σ} (hinit : I s)
    (hrun : Relation.ReflTransGen (restrictAt step kind ok) s s') : I s' := by
  refine invariant_of_run (I := I) ?_ hinit hrun
  intro s s' hI hs
  exact hstep hI hs.2 hs.1

/-! ## Labelled steps -/

/-- A step with a label that meets the condition. -/
def labelled {α : Type v} (step : σ → α → σ → Prop) (ok : σ → α → Prop) (s s' : σ) : Prop :=
  ∃ label, ok s label ∧ step s label s'

/-- The invariant rule for labelled steps. -/
theorem invariant_of_labelled_run {α : Type v} {step : σ → α → σ → Prop} {ok : σ → α → Prop}
    {I : σ → Prop} (hstep : ∀ {s label s'}, I s → ok s label → step s label s' → I s')
    {s s' : σ} (hinit : I s) (hrun : Relation.ReflTransGen (labelled step ok) s s') :
    I s' := by
  refine invariant_of_run (I := I) ?_ hinit hrun
  rintro s s' hI ⟨label, hok, hs⟩
  exact hstep hI hok hs

/-! ## Steps by actions -/

section

variable {α : Type v} (next : α → σ → Option σ) (ok : σ → α → Bool)

/-- An action that meets the condition takes one state to the other. -/
def guarded (s s' : σ) : Prop :=
  ∃ action, ok s action = true ∧ next action s = some s'

/-- The state after actions that all meet the condition. -/
def follow : List α → σ → Option σ
  | [], s => some s
  | action :: actions, s =>
      if ok s action then (next action s).bind (follow actions) else none

variable {next ok}

/-- A list of actions that can be followed is a run. -/
theorem run_of_follow (actions : List α) {s s' : σ}
    (h : follow next ok actions s = some s') :
    Relation.ReflTransGen (guarded next ok) s s' := by
  induction actions generalizing s with
  | nil =>
      cases h
      exact Relation.ReflTransGen.refl
  | cons action actions ih =>
      rw [follow] at h
      split at h
      · rename_i hok
        obtain ⟨s₁, hnext, hrest⟩ := Option.bind_eq_some_iff.1 h
        exact Relation.ReflTransGen.head ⟨action, hok, hnext⟩ (ih hrest)
      · cases h

end

/-! ## Runs of so many steps -/

/-- A run of so many steps. -/
inductive Steps (step : σ → σ → Prop) : ℕ → σ → σ → Prop
  | refl (s : σ) : Steps step 0 s s
  | tail {n : ℕ} {s s' s'' : σ} (run : Steps step n s s') (last : step s' s'') :
      Steps step (n + 1) s s''

/-- The measure rule: a run is at most as long as what the measure loses. -/
theorem Steps.add_le {I : σ → Prop} (measure : σ → ℕ)
    (hstep : ∀ {s s'}, I s → step s s' → I s' ∧ measure s' < measure s) {n : ℕ} {s s' : σ}
    (hinit : I s) (h : Steps step n s s') : I s' ∧ n + measure s' ≤ measure s := by
  induction h with
  | refl => exact ⟨hinit, (Nat.zero_add _).le⟩
  | tail _ hlast ih =>
      obtain ⟨hI, hle⟩ := ih hinit
      obtain ⟨hI', hlt⟩ := hstep hI hlast
      exact ⟨hI', by omega⟩

/-- No cycles and finitely many states with successors: no infinite path. -/
theorem wellFounded_of_acyclic {sources : Set σ} (hfinite : sources.Finite)
    (hsource : ∀ {s s'}, step s s' → s ∈ sources)
    (hacyclic : ∀ s, ¬Relation.TransGen step s s) : WellFounded (flip step) := by
  have hsub : WellFounded fun x y : sources => Relation.TransGen step y.1 x.1 := by
    have : Finite sources := hfinite
    have : IsTrans sources fun x y => Relation.TransGen step y.1 x.1 :=
      ⟨fun _ _ _ hab hbc => Relation.TransGen.trans hbc hab⟩
    have : Std.Irrefl fun x y : sources => Relation.TransGen step y.1 x.1 :=
      ⟨fun x h => hacyclic x.1 h⟩
    exact Finite.wellFounded_of_trans_of_irrefl _
  have hacc (x : sources) : Acc (flip step) x.1 := by
    induction x using hsub.induction with
    | h x ih =>
        refine Acc.intro _ fun s' hs' => ?_
        by_cases hmem : s' ∈ sources
        · exact ih ⟨s', hmem⟩ (Relation.TransGen.single hs')
        · exact Acc.intro _ fun s'' hs'' => absurd (hsource hs'') hmem
  refine ⟨fun s => ?_⟩
  by_cases hmem : s ∈ sources
  · exact hacc ⟨s, hmem⟩
  · exact Acc.intro _ fun s' hs' => absurd (hsource hs') hmem

end Library.Transition
