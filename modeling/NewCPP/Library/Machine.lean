import Mathlib.Data.List.Basic
import Mathlib.Logic.Function.Basic
import Mathlib.Tactic.Common

/-!
# Machines that answer calls

A machine takes a call in a state, answers it and goes to a state.

* `transcript` — calls with their answers
* `Simulation` — the machines answer the same from related states, and the states stay
  related
* `product` — a machine of its own for every key, a call going to the machine of its key
* `after`, `after_product` — the state behind a list of calls, and a component of a product

`transcript_product` is the projection of a product: over any interleaving, the part of the
transcript that is about one key is the transcript of its machine alone.

## Design notes

**Functions.**  The step of a machine is a function, so that a transcript is determined by the
calls.  A call that fails is one that is answered with its failure; whether the state changes
then is for the machine to say.

**Keys.**  The key of a call is any function of it, and the components of a product share their
step, not their states.
-/

namespace Library

universe u v w

/-- States `σ`, calls `γ`, answers `ρ`. -/
structure Machine (σ : Type u) (γ : Type v) (ρ : Type w) where
  step : σ → γ → ρ × σ

namespace Machine

variable {σ : Type u} {γ : Type v} {ρ : Type w}

/-- The state behind calls. -/
def after (m : Machine σ γ ρ) : σ → List γ → σ
  | s, [] => s
  | s, call :: calls => m.after (m.step s call).2 calls

/-- The calls, each with its answer. -/
def transcript (m : Machine σ γ ρ) : σ → List γ → List (γ × ρ)
  | _, [] => []
  | s, call :: calls => (call, (m.step s call).1) :: m.transcript (m.step s call).2 calls

/-! ## Simulation -/

/-- Related states give the same answers and stay related. -/
structure Simulation {σ' : Type*} (m : Machine σ γ ρ) (m' : Machine σ' γ ρ)
    (related : σ → σ' → Prop) : Prop where
  answer : ∀ {s : σ} {s' : σ'}, related s s' → ∀ call : γ,
    (m.step s call).1 = (m'.step s' call).1
  step : ∀ {s : σ} {s' : σ'}, related s s' → ∀ call : γ,
    related (m.step s call).2 (m'.step s' call).2

variable {σ' : Type*} {m : Machine σ γ ρ} {m' : Machine σ' γ ρ} {related : σ → σ' → Prop}

/-- Related states stay related over many calls. -/
theorem Simulation.after (h : Simulation m m' related) (calls : List γ) :
    ∀ {s : σ} {s' : σ'}, related s s' → related (m.after s calls) (m'.after s' calls) := by
  induction calls with
  | nil => exact fun hrel => hrel
  | cons call calls ih => exact fun hrel => ih (h.step hrel call)

/-- And they answer alike. -/
theorem Simulation.transcript (h : Simulation m m' related) (calls : List γ) :
    ∀ {s : σ} {s' : σ'}, related s s' → m.transcript s calls = m'.transcript s' calls := by
  induction calls with
  | nil => exact fun _ => rfl
  | cons call calls ih =>
      intro s s' hrel
      rw [Machine.transcript, Machine.transcript, h.answer hrel call, ih (h.step hrel call)]

/-! ## Products -/

variable {κ : Type*} [DecidableEq κ]

/-- One machine for every key. -/
def product (m : Machine σ γ ρ) (key : γ → κ) : Machine (κ → σ) γ ρ where
  step s call :=
    ((m.step (s (key call)) call).1,
      Function.update s (key call) (m.step (s (key call)) call).2)

/-- States that are related key by key stay so when one key's states are replaced by
related ones. -/
theorem related_update {σ' : Type*} {related : σ → σ' → Prop} {s : κ → σ} {s' : κ → σ'}
    (h : ∀ k, related (s k) (s' k)) {k : κ} {x : σ} {x' : σ'} (hx : related x x') (j : κ) :
    related (Function.update s k x j) (Function.update s' k x' j) := by
  by_cases hj : j = k
  · subst hj
    rw [Function.update_self, Function.update_self]
    exact hx
  · rw [Function.update_of_ne hj, Function.update_of_ne hj]
    exact h j

/-- The entries of a list with one key. -/
def having {δ : Type*} (key : δ → κ) (k : κ) (entries : List δ) : List δ :=
  entries.filter fun entry => key entry = k

/-- An entry with the key comes first. -/
theorem having_cons {δ : Type*} (key : δ → κ) (entry : δ) (entries : List δ) :
    having key (key entry) (entry :: entries) =
      entry :: having key (key entry) entries :=
  List.filter_cons_of_pos (decide_eq_true rfl)

/-- An entry with another key is left out. -/
theorem having_cons_of_ne {δ : Type*} (key : δ → κ) {entry : δ} {k : κ}
    (h : key entry ≠ k) (entries : List δ) :
    having key k (entry :: entries) = having key k entries :=
  List.filter_cons_of_neg fun heq => h (of_decide_eq_true heq)

/-- A call is none of the other machines' business. -/
theorem step_product_of_ne (m : Machine σ γ ρ) {key : γ → κ} (s : κ → σ) {call : γ} {k : κ}
    (h : key call ≠ k) : ((m.product key).step s call).2 k = s k :=
  Function.update_of_ne (Ne.symm h) _ _

/-- A call moves the component of its key. -/
theorem step_product (m : Machine σ γ ρ) {key : γ → κ} (s : κ → σ) (call : γ) :
    ((m.product key).step s call).2 (key call) = (m.step (s (key call)) call).2 :=
  Function.update_self _ _ _

/-- A component sees its own calls only. -/
theorem after_product (m : Machine σ γ ρ) (key : γ → κ) (calls : List γ) (k : κ) :
    ∀ s : κ → σ, (m.product key).after s calls k = m.after (s k) (having key k calls) := by
  induction calls with
  | nil => exact fun _ => rfl
  | cons call calls ih =>
      intro s
      rw [after, ih]
      by_cases hkey : key call = k
      · subst hkey
        rw [step_product, having_cons, after]
      · rw [step_product_of_ne m s hkey, having_cons_of_ne key hkey]

/-- **The projection of a product.** -/
theorem transcript_product (m : Machine σ γ ρ) (key : γ → κ) (calls : List γ) (k : κ) :
    ∀ s : κ → σ, having (fun entry => key entry.1) k ((m.product key).transcript s calls) =
      m.transcript (s k) (having key k calls) := by
  induction calls with
  | nil => exact fun _ => rfl
  | cons call calls ih =>
      intro s
      by_cases hkey : key call = k
      · subst hkey
        have hhead := having_cons (fun entry : γ × ρ => key entry.1)
          (call, ((m.product key).step s call).1)
          ((m.product key).transcript ((m.product key).step s call).2 calls)
        rw [transcript, hhead, ih, step_product, having_cons, transcript]
        rfl
      · have hhead (entries : List (γ × ρ)) :
            having (fun entry : γ × ρ => key entry.1) k
                ((call, ((m.product key).step s call).1) :: entries) =
              having (fun entry : γ × ρ => key entry.1) k entries :=
          having_cons_of_ne (fun entry : γ × ρ => key entry.1) hkey entries
        rw [transcript, hhead, ih, step_product_of_ne m s hkey, having_cons_of_ne key hkey]

end Machine

end Library
