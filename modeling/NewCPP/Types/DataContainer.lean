import Mathlib.Data.List.Basic
import NewCPP.Library.Ownership

/-!
# Containers that copy their data

`CopiedDataContainer` allocates a buffer for its data and frees it in its destructor; moves
exchange the buffers.

* `run_refines` — whatever is constructed, copied, moved, assigned and destroyed, in which order
  soever, a container behaves like the bytes that it was given, and no buffer that was freed is
  touched.
* `held_by_one` — the buffers in use are those of the containers that are alive.
* `destroy_assignFails` — an assignment whose allocation fails leaves a buffer that was freed.

## Design notes

**Objects.**  Any number of containers, each with a number of its own; `none` where there is no
object.  The program uses objects that are alive.

**The allocator** returns any address that is not in use.  An access to a buffer that is not in
use, or behind the end of one, has no defined outcome and is `none`, and so is a second
`delete[]`.

**`SetData`**, which `DataContainer` leaves public, is not called on a container that copies.
-/

namespace NewCPP.Types

open Library

universe u

variable {β : Type u}

/-- The two members: the address of the buffer, and the bytes in it. -/
structure CopiedDataContainer where
  mData : Option ℕ := none
  mDataSize : ℕ := 0
  deriving DecidableEq

/-- The buffers in use, and the containers that are alive. -/
structure Containers (β : Type u) where
  heap : ℕ → Option (List β) := fun _ => none
  objects : ℕ → Option CopiedDataContainer := fun _ => none

namespace Containers

/-- `delete[]`. -/
def delete (mData : Option ℕ) (heap : ℕ → Option (List β)) : Option (ℕ → Option (List β)) :=
  match mData with
  | none => some heap
  | some address => if (heap address).isSome then some (Function.update heap address none) else none

/-- The elements that `std::copy` reads. -/
def load (heap : ℕ → Option (List β)) (container : CopiedDataContainer) : Option (List β) :=
  match container.mData with
  | none => if container.mDataSize = 0 then some [] else none
  | some address =>
      (heap address).bind fun buffer =>
        if container.mDataSize ≤ buffer.length then some (buffer.take container.mDataSize) else none

/-- `CopiedDataContainer(data, size)`, where `new` returns `address`. -/
def construct (object address : ℕ) (data : List β) (s : Containers β) : Containers β where
  heap := Function.update s.heap address (some data)
  objects := Function.update s.objects object (some ⟨some address, data.length⟩)

/-- A new object with a copy of the other's buffer, at the given address. -/
def copyConstruct (object other address : ℕ) (s : Containers β) : Option (Containers β) :=
  (s.objects other).bind fun container =>
    (load s.heap container).map fun data => s.construct object address data

/-- Two objects exchange their members. -/
def swap (object other : ℕ) (s : Containers β) : Containers β :=
  { s with objects := s.objects ∘ Equiv.swap object other }

/-- `DataContainer()` and a `swap`. -/
def moveConstruct (object other : ℕ) (s : Containers β) : Containers β :=
  { s with objects := Function.update s.objects object (some {}) }.swap object other

/-- `operator=(const CopiedDataContainer&)`, where `new` returns `address`. -/
def assign (object other address : ℕ) (s : Containers β) : Option (Containers β) :=
  if object = other then some s
  else
    (s.objects object).bind fun container =>
      (delete container.mData s.heap).bind fun heap =>
        (s.objects other).bind fun src =>
          (load heap src).map fun data => { s with heap := heap }.construct object address data

/-- The same where `new` throws. -/
def assignFails (object other : ℕ) (s : Containers β) : Option (Containers β) :=
  if object = other then some s
  else
    (s.objects object).bind fun container =>
      (delete container.mData s.heap).map fun heap => { s with heap := heap }

/-- The destructor deletes the buffer. -/
def destroy (object : ℕ) (s : Containers β) : Option (Containers β) :=
  (s.objects object).bind fun container =>
    (delete container.mData s.heap).map fun heap =>
      { heap := heap, objects := Function.update s.objects object none }

/-- What the program does with containers. -/
inductive Action (β : Type u) where
  | construct (object address : ℕ) (data : List β)
  | copyConstruct (object other address : ℕ)
  | moveConstruct (object other : ℕ)
  | assign (object other address : ℕ)
  | moveAssign (object other : ℕ)
  | destroy (object : ℕ)

/-- What one of these actions does, if it touches only buffers that are in use. -/
def perform (s : Containers β) : Action β → Option (Containers β)
  | .construct object address data => some (s.construct object address data)
  | .copyConstruct object other address => s.copyConstruct object other address
  | .moveConstruct object other => some (s.moveConstruct object other)
  | .assign object other address => s.assign object other address
  | .moveAssign object other => some (s.swap object other)
  | .destroy object => s.destroy object

/-- What a list of them does. -/
def run (s : Containers β) : List (Action β) → Option (Containers β)
  | [] => some s
  | action :: actions => (s.perform action).bind fun s => s.run actions

/-! ## The abstract containers -/

/-- The bytes of the containers that are alive. -/
abbrev Values (β : Type u) := ℕ → Option (List β)

/-- What the program means. -/
def Values.perform (values : Values β) : Action β → Values β
  | .construct object _ data => Function.update values object (some data)
  | .copyConstruct object other _ => Function.update values object (values other)
  | .moveConstruct object other =>
      Function.update values object (some []) ∘ Equiv.swap object other
  | .assign object other _ => Function.update values object (values other)
  | .moveAssign object other => values ∘ Equiv.swap object other
  | .destroy object => Function.update values object none

/-- What the same list does to plain values. -/
def Values.run (values : Values β) : List (Action β) → Values β
  | [] => values
  | action :: actions => (values.perform action).run actions

/-- Constructors make new objects, everything else is done to objects that are alive. -/
def Values.Allows (values : Values β) : Action β → Prop
  | .construct object _ _ => values object = none
  | .copyConstruct object other _ => values object = none ∧ (values other).isSome
  | .moveConstruct object other => values object = none ∧ (values other).isSome
  | .assign object other _ => (values object).isSome ∧ (values other).isSome
  | .moveAssign object other => (values object).isSome ∧ (values other).isSome
  | .destroy object => (values object).isSome

/-- The address that the allocator returns is not in use. -/
def Fresh (s : Containers β) : Action β → Prop
  | .construct _ address _ => s.heap address = none
  | .copyConstruct _ _ address => s.heap address = none
  | .assign object _ address =>
      s.heap address = none ∨ (s.objects object).bind CopiedDataContainer.mData = some address
  | _ => True

/-- A program and an allocator that keep to this all along. -/
def AllowedRun (values : Values β) (s : Containers β) : List (Action β) → Prop
  | [] => True
  | action :: actions =>
      values.Allows action ∧ s.Fresh action ∧
        ∀ s', s.perform action = some s' → AllowedRun (values.perform action) s' actions

/-! ## The invariant -/

/-- The buffer of a container holds its bytes; where there is no buffer there are no bytes. -/
def Holds (heap : ℕ → Option (List β)) (container : CopiedDataContainer) (data : List β) : Prop :=
  match container.mData with
  | none => data = [] ∧ container.mDataSize = 0
  | some address => heap address = some data ∧ container.mDataSize = data.length

/-- The address that an object holds. -/
def owner (s : Containers β) (object : ℕ) : Option ℕ :=
  (s.objects object).bind CopiedDataContainer.mData

/-- Every container holds its bytes in a buffer of its own. -/
structure Sound (s : Containers β) (values : Values β) : Prop where
  owned : Owned s.heap s.owner
  alive : ∀ object, (s.objects object).isSome = (values object).isSome
  holds : ∀ object container data, s.objects object = some container →
    values object = some data → Holds s.heap container data

theorem load_of_holds {heap : ℕ → Option (List β)} {container : CopiedDataContainer}
    {data : List β} (h : Holds heap container data) : load heap container = some data := by
  rw [Holds] at h
  rw [load]
  cases hdata : container.mData with
  | none =>
      rw [hdata] at h
      dsimp only
      rw [if_pos h.2, h.1]
  | some address =>
      rw [hdata] at h
      dsimp only
      rw [h.1, Option.bind_some, h.2, if_pos (Nat.le_refl _), List.take_length]

/-- A container does not see other buffers. -/
theorem Holds.update {heap : ℕ → Option (List β)} {container : CopiedDataContainer}
    {data : List β} (h : Holds heap container data) {address : ℕ}
    (hne : container.mData ≠ some address) (cell : Option (List β)) :
    Holds (Function.update heap address cell) container data := by
  rw [Holds] at h ⊢
  cases hdata : container.mData with
  | none =>
      rw [hdata] at h
      exact h
  | some other =>
      rw [hdata] at h hne
      have hother : other ≠ address := fun heq => hne (heq ▸ rfl)
      dsimp only
      rw [Function.update_of_ne hother]
      exact h

/-- The owners when an object is set. -/
theorem owner_update (heap : ℕ → Option (List β)) (objects : ℕ → Option CopiedDataContainer)
    (object : ℕ) (container : Option CopiedDataContainer) :
    owner ⟨heap, Function.update objects object container⟩ =
      Function.update (owner ⟨heap, objects⟩) object
        (container.bind CopiedDataContainer.mData) := by
  funext other
  change (Function.update objects object container other).bind CopiedDataContainer.mData = _
  by_cases heq : other = object
  · rw [heq, Function.update_self, Function.update_self]
  · rw [Function.update_of_ne heq, Function.update_of_ne heq]
    rfl

/-- The objects when one is set. -/
theorem isSome_update {objects : ℕ → Option CopiedDataContainer} {values : Values β}
    (halive : ∀ object, (objects object).isSome = (values object).isSome) (object : ℕ)
    {container : Option CopiedDataContainer} {data : Option (List β)}
    (hdata : container.isSome = data.isSome) (other : ℕ) :
    (Function.update objects object container other).isSome =
      (Function.update values object data other).isSome := by
  by_cases heq : other = object
  · rw [heq, Function.update_self, Function.update_self, hdata]
  · rw [Function.update_of_ne heq, Function.update_of_ne heq, halive]

namespace Sound

variable {s : Containers β} {values : Values β} (h : Sound s values)
include h

theorem exists_container {object : ℕ} {data : List β} (hdata : values object = some data) :
    ∃ container, s.objects object = some container ∧ Holds s.heap container data := by
  have halive := h.alive object
  rw [hdata, Option.isSome_some] at halive
  obtain ⟨container, hcontainer⟩ := Option.isSome_iff_exists.1 halive
  exact ⟨container, hcontainer, h.holds object container data hcontainer hdata⟩

theorem eq_none {object : ℕ} (hdata : values object = none) : s.objects object = none := by
  have halive := h.alive object
  rwa [hdata, Option.isSome_none, Option.isSome_eq_false_iff, Option.isNone_iff_eq_none] at halive

/-- A new object with a buffer of its own. -/
theorem construct {object address : ℕ} (hobject : s.objects object = none)
    (haddress : s.heap address = none) (data : List β) :
    Sound (s.construct object address data) (Function.update values object (some data)) := by
  refine ⟨?_, isSome_update h.alive object rfl, fun other container bytes hother hbytes => ?_⟩
  · rw [Containers.construct, owner_update]
    exact h.owned.alloc (by rw [owner, hobject]; rfl) haddress data
  · change Function.update s.objects object _ other = some container at hother
    by_cases heq : other = object
    · rw [heq, Function.update_self, Option.some_inj] at hother hbytes
      rw [← hother, ← hbytes]
      exact ⟨Function.update_self .., rfl⟩
    · rw [Function.update_of_ne heq] at hother hbytes
      refine (h.holds other container bytes hother hbytes).update ?_ _
      intro hmData
      have hlive := h.owned.live other address (by rw [owner, hother]; exact hmData)
      rw [haddress] at hlive
      cases hlive

/-- The buffer of an object is freed, and the object is no more. -/
theorem release {object : ℕ} {container : CopiedDataContainer}
    (hobject : s.objects object = some container) :
    ∃ heap, delete container.mData s.heap = some heap ∧
      (∀ address, heap address = none ↔
        s.heap address = none ∨ container.mData = some address) ∧
      Sound ⟨heap, Function.update s.objects object none⟩
        (Function.update values object none) := by
  have hheld {other : ℕ} {container' : CopiedDataContainer} {address : ℕ}
      (hother : s.objects other = some container') (hmData : container'.mData = some address) :
      s.owner other = some address := by
    rw [owner, hother]
    exact hmData
  cases hmData : container.mData with
  | none =>
      refine ⟨s.heap, rfl, fun address => ?_, ?_, isSome_update h.alive object rfl, ?_⟩
      · simp
      · have howner : s.owner object = none := by
          rw [owner, hobject]
          exact hmData
        rw [owner_update, Option.bind_none, ← howner, Function.update_eq_self]
        exact h.owned
      · intro other container' bytes hother hbytes
        by_cases heq : other = object
        · rw [heq, Function.update_self] at hbytes
          cases hbytes
        · change Function.update s.objects object none other = some container' at hother
          rw [Function.update_of_ne heq] at hother hbytes
          exact h.holds other container' bytes hother hbytes
  | some address =>
      have howner := hheld hobject hmData
      refine ⟨Function.update s.heap address none, if_pos (h.owned.live object address howner),
        fun other => ?_, ?_, isSome_update h.alive object rfl, ?_⟩
      · by_cases heq : other = address
        · rw [heq, Function.update_self]
          simp
        · rw [Function.update_of_ne heq, Option.some_inj, or_iff_left (Ne.symm heq)]
      · rw [owner_update]
        exact h.owned.free howner
      · intro other container' bytes hother hbytes
        by_cases heq : other = object
        · rw [heq, Function.update_self] at hbytes
          cases hbytes
        · change Function.update s.objects object none other = some container' at hother
          rw [Function.update_of_ne heq] at hother hbytes
          refine (h.holds other container' bytes hother hbytes).update (fun hsame => heq ?_) _
          exact h.owned.unique other object address (hheld hother hsame) howner

/-- Two containers exchange their buffers. -/
theorem swap (object other : ℕ) :
    Sound (s.swap object other) (values ∘ Equiv.swap object other) where
  owned := h.owned.exchange object other
  alive := fun _ => h.alive _
  holds := fun _ container data hobject hdata => h.holds _ container data hobject hdata

/-- A new object without a buffer. -/
theorem default {object : ℕ} (hobject : s.objects object = none) :
    Sound { s with objects := Function.update s.objects object (some {}) }
      (Function.update values object (some [])) := by
  refine ⟨?_, isSome_update h.alive object rfl, fun other container bytes hother hbytes => ?_⟩
  · have howner : s.owner object = none := by
      rw [owner, hobject]
      rfl
    rw [owner_update]
    change Owned s.heap (Function.update s.owner object none)
    rw [← howner, Function.update_eq_self]
    exact h.owned
  · change Function.update s.objects object _ other = some container at hother
    by_cases heq : other = object
    · rw [heq, Function.update_self, Option.some_inj] at hother hbytes
      rw [← hother, ← hbytes]
      exact ⟨rfl, rfl⟩
    · rw [Function.update_of_ne heq] at hother hbytes
      exact h.holds other container bytes hother hbytes

end Sound

/-! ## Runs -/

/-- **One step** has an outcome, and does to the bytes what the program means. -/
theorem Sound.perform {s : Containers β} {values : Values β} (h : Sound s values)
    {action : Action β} (hallows : values.Allows action) (hfresh : s.Fresh action) :
    ∃ s', s.perform action = some s' ∧ Sound s' (values.perform action) := by
  cases action with
  | construct object address data =>
      exact ⟨_, rfl, h.construct (h.eq_none hallows) hfresh data⟩
  | copyConstruct object other address =>
      obtain ⟨data, hdata⟩ := Option.isSome_iff_exists.1 hallows.2
      obtain ⟨container, hcontainer, hholds⟩ := h.exists_container hdata
      refine ⟨s.construct object address data, ?_, ?_⟩
      · change s.copyConstruct object other address = _
        rw [copyConstruct, hcontainer, Option.bind_some, load_of_holds hholds, Option.map_some]
      · rw [Values.perform, hdata]
        exact h.construct (h.eq_none hallows.1) hfresh data
  | moveConstruct object other =>
      exact ⟨_, rfl, (h.default (h.eq_none hallows.1)).swap object other⟩
  | assign object other address =>
      change ∃ s', s.assign object other address = some s' ∧ _
      rw [assign, Values.perform]
      by_cases heq : object = other
      · rw [if_pos heq, ← heq, Function.update_eq_self]
        exact ⟨s, rfl, h⟩
      · obtain ⟨old, hold⟩ := Option.isSome_iff_exists.1 hallows.1
        obtain ⟨data, hdata⟩ := Option.isSome_iff_exists.1 hallows.2
        obtain ⟨container, hcontainer, -⟩ := h.exists_container hold
        obtain ⟨heap, hdelete, hheap, hreleased⟩ := h.release hcontainer
        have hother : Function.update values object none other = some data := by
          rw [Function.update_of_ne (Ne.symm heq), hdata]
        obtain ⟨src, hsrc, hholds⟩ := hreleased.exists_container hother
        change Function.update s.objects object none other = some src at hsrc
        rw [Function.update_of_ne (Ne.symm heq)] at hsrc
        have hunused : heap address = none := by
          rw [hheap]
          refine hfresh.imp_right fun hown => ?_
          rwa [hcontainer, Option.bind_some] at hown
        have hnew := hreleased.construct (Function.update_self ..) hunused data
        rw [Function.update_idem, Containers.construct] at hnew
        dsimp only at hnew
        rw [Function.update_idem] at hnew
        rw [if_neg heq, hcontainer, Option.bind_some, hdelete, Option.bind_some, hsrc,
          Option.bind_some, load_of_holds hholds, Option.map_some, hdata]
        exact ⟨_, rfl, hnew⟩
  | moveAssign object other => exact ⟨_, rfl, h.swap object other⟩
  | destroy object =>
      obtain ⟨old, hold⟩ := Option.isSome_iff_exists.1 hallows
      obtain ⟨container, hcontainer, -⟩ := h.exists_container hold
      obtain ⟨heap, hdelete, -, hreleased⟩ := h.release hcontainer
      refine ⟨_, ?_, hreleased⟩
      change s.destroy object = _
      rw [destroy, hcontainer, Option.bind_some, hdelete, Option.map_some]

theorem Sound.run {s : Containers β} {values : Values β} (h : Sound s values)
    {actions : List (Action β)} (hallowed : AllowedRun values s actions) :
    ∃ s', s.run actions = some s' ∧ Sound s' (values.run actions) := by
  induction actions generalizing s values with
  | nil => exact ⟨s, rfl, h⟩
  | cons action actions ih =>
      obtain ⟨hallows, hfresh, hrest⟩ := hallowed
      obtain ⟨s', hs', hsound⟩ := h.perform hallows hfresh
      obtain ⟨s'', hs'', hsound'⟩ := ih hsound (hrest s' hs')
      exact ⟨s'', by rw [Containers.run, hs', Option.bind_some, hs''], hsound'⟩

theorem sound_empty : Sound ({} : Containers β) fun _ => none where
  owned := Owned.empty
  alive := fun _ => rfl
  holds := fun _ _ _ h => by cases h

/-- What a user reads of an object: `GetSize` elements from `GetDataPtr` on. -/
def read (s : Containers β) (object : ℕ) : Option (List β) :=
  (s.objects object).bind (load s.heap)

theorem Sound.read_eq {s : Containers β} {values : Values β} (h : Sound s values) (object : ℕ) :
    s.read object = values object := by
  cases hvalue : values object with
  | none => rw [read, h.eq_none hvalue, Option.bind_none]
  | some data =>
      obtain ⟨container, hcontainer, hholds⟩ := h.exists_container hvalue
      rw [read, hcontainer, Option.bind_some, load_of_holds hholds]

/-- **Containers are values**: no run touches a buffer that was freed or frees one twice, and
what is read of a container is what the program put there. -/
theorem run_refines {actions : List (Action β)}
    (hallowed : AllowedRun (fun _ => none) {} actions) :
    ∃ s, ({} : Containers β).run actions = some s ∧
      ∀ object, s.read object = Values.run (fun _ => none) actions object := by
  obtain ⟨s, hrun, hsound⟩ := sound_empty.run hallowed
  exact ⟨s, hrun, hsound.read_eq⟩

/-- **No leak**: every buffer in use is held by exactly one container that is alive. -/
theorem held_by_one {actions : List (Action β)}
    (hallowed : AllowedRun (fun _ => none) {} actions) {s : Containers β}
    (hrun : ({} : Containers β).run actions = some s) {address : ℕ}
    (huse : (s.heap address).isSome) :
    ∃! object, ∃ container, s.objects object = some container ∧
      container.mData = some address := by
  obtain ⟨s', hrun', hsound⟩ := sound_empty.run hallowed
  rw [hrun, Option.some_inj] at hrun'
  subst hrun'
  obtain ⟨object, hobject⟩ := hsound.owned.held address huse
  refine ⟨object, Option.bind_eq_some_iff.1 hobject, fun other hother => ?_⟩
  exact hsound.owned.unique other object address (Option.bind_eq_some_iff.2 hother) hobject

/-- **An assignment whose allocation fails** leaves its object with a buffer that was freed: the
destructor frees it a second time. -/
theorem destroy_assignFails {actions : List (Action β)}
    (hallowed : AllowedRun (fun _ => none) {} actions) {s : Containers β}
    (hrun : ({} : Containers β).run actions = some s) {object other : ℕ} (hne : object ≠ other)
    {container : CopiedDataContainer} (hobject : s.objects object = some container)
    (hbuffer : container.mData.isSome) :
    ∃ s', s.assignFails object other = some s' ∧ s'.destroy object = none := by
  obtain ⟨s₁, hrun', hsound⟩ := sound_empty.run hallowed
  rw [hrun, Option.some_inj] at hrun'
  subst hrun'
  obtain ⟨address, haddress⟩ := Option.isSome_iff_exists.1 hbuffer
  obtain ⟨heap, hdelete, hheap, -⟩ := hsound.release hobject
  have hfreed : heap address = none := (hheap address).2 (Or.inr haddress)
  refine ⟨{ s with heap := heap }, ?_, ?_⟩
  · rw [assignFails, if_neg hne, hobject, Option.bind_some, hdelete, Option.map_some]
  · have htwice : delete (some address) heap = none := by
      rw [delete, hfreed]
      rfl
    rw [destroy, hobject, Option.bind_some, haddress]
    dsimp only
    rw [htwice, Option.map_none]

/-- A container, a copy of it, and an assignment that gets the freed buffer again. -/
def assigned : List (Action ℕ) := [.construct 0 10 [1, 2], .copyConstruct 1 0 11, .assign 0 1 10]

theorem allowedRun_assigned : AllowedRun (fun _ => none) {} assigned := by
  refine ⟨rfl, rfl, fun s₁ h₁ => ⟨?_, ?_, fun s₂ h₂ => ⟨?_, ?_, fun _ _ => trivial⟩⟩⟩
  · exact ⟨rfl, rfl⟩
  · cases h₁
    rfl
  · exact ⟨rfl, rfl⟩
  · cases h₁
    cases (show some _ = some s₂ from h₂)
    exact Or.inr rfl

theorem run_refines_assigned :
    ∃ s, ({} : Containers ℕ).run assigned = some s ∧
      ∀ object, s.read object = Values.run (fun _ => none) assigned object :=
  run_refines allowedRun_assigned

theorem held_by_one_assigned :
    ∃! object, ∃ container,
      (Option.get (({} : Containers ℕ).run assigned) rfl).objects object = some container ∧
        container.mData = some 10 :=
  held_by_one allowedRun_assigned (Option.some_get rfl).symm rfl

theorem destroy_assignFails_assigned :
    ∃ s', (Option.get (({} : Containers ℕ).run assigned) rfl).assignFails 0 1 = some s' ∧
      s'.destroy 0 = none :=
  destroy_assignFails allowedRun_assigned (Option.some_get rfl).symm (by decide)
    (show _ = some ⟨some 10, 2⟩ from rfl) rfl

end Containers

end NewCPP.Types
