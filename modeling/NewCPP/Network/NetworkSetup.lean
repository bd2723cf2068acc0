import Mathlib.Data.List.Perm.Subperm
import Mathlib.Logic.Function.Basic
import NewCPP.Library.Transition

/-!
# The network layer of Windows

Every socket and connector holds a pointer to a `NetworkSetup`, which starts the network
layer when it is made and cleans it up when the last pointer goes.  `initNetwork` hands out
the one that there is, which it knows by a weak pointer only.

* `balanced` — whatever the threads do, each startup is cleaned up once, after its last pointer
  has gone, and whoever holds a pointer finds the network layer started.
* `one_instance` — all pointers that users hold are to one `NetworkSetup`.
* `null_of_expiry` — `initNetwork` may return a null pointer, and does so only after the last
  pointer has been released between its `expired` and its `lock`.

## Design notes

**Users.**  Each user makes one call of `initNetwork` at a time, keeps the pointer and
releases it.  `places` says where the users are.

**Pointers.**  A `NetworkSetup` is a number.  It is expired when nobody holds a pointer to it;
the one who has released the last one runs the destructor, without the mutex.

**The network layer.**  It is started while there were more calls of `WSAStartup` that
succeeded than calls of `WSACleanup`.
-/

namespace NewCPP.Network

open Library Library.Transition

/-- Where a user is. -/
inductive UserPlace where
  | outside
  /-- In `initNetwork`, before `expired`. -/
  | checking
  /-- Before `lock`; the instance had not expired. -/
  | locking
  /-- Before `WSAStartup`. -/
  | starting
  /-- Before the instance is set. -/
  | storing (setup : ℕ)
  /-- Back from `initNetwork`. -/
  | holding (pointer : Option ℕ)
  /-- In the destructor. -/
  | cleaning (setup : ℕ)
  deriving DecidableEq

namespace UserPlace

/-- The `NetworkSetup` to which the user has a pointer. -/
def holds : UserPlace → Option ℕ
  | .storing setup => some setup
  | .holding pointer => pointer
  | _ => none

/-- The setup that the user is about to clean up. -/
def cleans : UserPlace → Option ℕ
  | .cleaning setup => some setup
  | _ => none

/-- Between taking the mutex and giving it back. -/
def inside : UserPlace → Bool
  | .checking | .locking | .starting | .storing _ => true
  | _ => false

/-- Making a `NetworkSetup`. -/
def makes : UserPlace → Bool
  | .starting | .storing _ => true
  | _ => false

end UserPlace

/-- The users, the mutex that they share, and the setup that `instance` refers to. -/
structure NetworkSetups where
  places : List UserPlace
  mutex : Option ℕ := none
  /-- `instance`. -/
  weak : Option ℕ := none
  /-- The successful calls of `WSAStartup`, one for each `NetworkSetup`. -/
  startups : ℕ := 0
  /-- Whose destructors have called `WSACleanup`. -/
  cleaned : List ℕ := []

namespace NetworkSetups

/-- The user holds a reference to the setup. -/
def HoldsAt (s : NetworkSetups) (user setup : ℕ) : Prop :=
  ∃ place, s.places[user]? = some place ∧ place.holds = some setup

/-- The user is the one that cleans the setup up. -/
def CleansAt (s : NetworkSetups) (user setup : ℕ) : Prop :=
  ∃ place, s.places[user]? = some place ∧ place.cleans = some setup

/-- The user has a pointer or runs the destructor. -/
def UsesAt (s : NetworkSetups) (user setup : ℕ) : Prop :=
  s.HoldsAt user setup ∨ s.CleansAt user setup

/-- `not instance.expired()`. -/
def Alive (s : NetworkSetups) : Prop :=
  ∃ setup, s.weak = some setup ∧ ∃ user, s.HoldsAt user setup

/-- The user goes on. -/
def goTo (s : NetworkSetups) (user : ℕ) (place : UserPlace) : NetworkSetups :=
  { s with places := s.places.set user place }

/-- The return from `initNetwork` with a pointer. -/
def leave (s : NetworkSetups) (user : ℕ) (pointer : Option ℕ) : NetworkSetups :=
  { s.goTo user (.holding pointer) with mutex := none }

/-- **One step** of a user. -/
inductive Step : NetworkSetups → NetworkSetups → Prop
  | enter {s : NetworkSetups} (user : ℕ) (outside : s.places[user]? = some .outside)
      (unlocked : s.mutex = none) : Step s { s.goTo user .checking with mutex := some user }
  | notExpired {s : NetworkSetups} (user : ℕ) (checks : s.places[user]? = some .checking)
      (alive : s.Alive) : Step s (s.goTo user .locking)
  | expired {s : NetworkSetups} (user : ℕ) (checks : s.places[user]? = some .checking)
      (dead : ¬s.Alive) : Step s (s.goTo user .starting)
  | lock {s : NetworkSetups} (user setup : ℕ) (locks : s.places[user]? = some .locking)
      (points : s.weak = some setup) (alive : s.Alive) : Step s (s.leave user (some setup))
  | lockNull {s : NetworkSetups} (user : ℕ) (locks : s.places[user]? = some .locking)
      (dead : ¬s.Alive) : Step s (s.leave user none)
  | startup {s : NetworkSetups} (user : ℕ) (starts : s.places[user]? = some .starting) :
      Step s { s.goTo user (.storing s.startups) with startups := s.startups + 1 }
  /-- `WSAStartup` fails and the constructor throws. -/
  | startupFails {s : NetworkSetups} (user : ℕ) (starts : s.places[user]? = some .starting) :
      Step s { s.goTo user .outside with mutex := none }
  | store {s : NetworkSetups} (user setup : ℕ) (stores : s.places[user]? = some (.storing setup)) :
      Step s { s.leave user (some setup) with weak := some setup }
  | release {s : NetworkSetups} (user setup other : ℕ)
      (holds : s.places[user]? = some (.holding (some setup))) (another : other ≠ user)
      (held : s.HoldsAt other setup) : Step s (s.goTo user .outside)
  | releaseLast {s : NetworkSetups} (user setup : ℕ)
      (holds : s.places[user]? = some (.holding (some setup)))
      (last : ∀ other, s.HoldsAt other setup → other = user) :
      Step s (s.goTo user (.cleaning setup))
  | releaseNull {s : NetworkSetups} (user : ℕ)
      (holds : s.places[user]? = some (.holding none)) : Step s (s.goTo user .outside)
  | cleanup {s : NetworkSetups} (user setup : ℕ)
      (cleans : s.places[user]? = some (.cleaning setup)) :
      Step s { s.goTo user .outside with cleaned := s.cleaned ++ [setup] }

/-- So many users, and no network layer. -/
def new (users : ℕ) : NetworkSetups := { places := List.replicate users .outside }

/-! ## Who holds what -/

section Moved

variable {s s' : NetworkSetups} {user : ℕ} {place place' : UserPlace}
  (hplace : s.places[user]? = some place) (hplaces : s'.places = s.places.set user place')
include hplace hplaces

/-- The places after a user has gone elsewhere. -/
theorem getElem?_moved (other : ℕ) :
    s'.places[other]? = if other = user then some place' else s.places[other]? := by
  have hlt := (List.getElem?_eq_some_iff.1 hplace).1
  rw [hplaces]
  by_cases hother : other = user
  · subst hother
    rw [if_pos rfl, List.getElem?_set_self hlt]
  · rw [if_neg hother, List.getElem?_set_ne (Ne.symm hother)]

/-- Only the user who moves can hold something else. -/
theorem holdsAt_moved (other setup : ℕ) : s'.HoldsAt other setup ↔
    if other = user then place'.holds = some setup else s.HoldsAt other setup := by
  rw [HoldsAt, HoldsAt, getElem?_moved hplace hplaces]
  split
  case isTrue =>
    constructor
    · rintro ⟨_, ⟨⟩, hholds⟩
      exact hholds
    · exact fun hholds => ⟨place', rfl, hholds⟩
  case isFalse => exact Iff.rfl

/-- Only that user can clean something else up. -/
theorem cleansAt_moved (other setup : ℕ) : s'.CleansAt other setup ↔
    if other = user then place'.cleans = some setup else s.CleansAt other setup := by
  rw [CleansAt, CleansAt, getElem?_moved hplace hplaces]
  split
  case isTrue =>
    constructor
    · rintro ⟨_, ⟨⟩, hcleans⟩
      exact hcleans
    · exact fun hcleans => ⟨place', rfl, hcleans⟩
  case isFalse => exact Iff.rfl

theorem usesAt_moved (other setup : ℕ) : s'.UsesAt other setup ↔
    if other = user then place'.holds = some setup ∨ place'.cleans = some setup
    else s.UsesAt other setup := by
  rw [UsesAt, holdsAt_moved hplace hplaces, cleansAt_moved hplace hplaces]
  split
  case isTrue => exact Iff.rfl
  case isFalse => exact Iff.rfl

end Moved

/-- To use a setup is to hold it or to clean it up. -/
theorem usesAt_iff {s : NetworkSetups} {user : ℕ} {place : UserPlace}
    (hplace : s.places[user]? = some place) (setup : ℕ) :
    s.UsesAt user setup ↔ place.holds = some setup ∨ place.cleans = some setup := by
  rw [UsesAt, HoldsAt, CleansAt, hplace]
  constructor
  · rintro (⟨_, ⟨⟩, h⟩ | ⟨_, ⟨⟩, h⟩)
    · exact Or.inl h
    · exact Or.inr h
  · rintro (h | h)
    · exact Or.inl ⟨place, rfl, h⟩
    · exact Or.inr ⟨place, rfl, h⟩

/-- What a step of a user does to the pointers and to the network layer. -/
inductive Effect (s s' : NetworkSetups) (user : ℕ) (place place' : UserPlace) : Prop
  | nothing (holds : place'.holds = place.holds) (cleans : place'.cleans = place.cleans)
      (startups : s'.startups = s.startups) (cleaned : s'.cleaned = s.cleaned)
  | share (setup other : ℕ) (held : s.HoldsAt other setup) (free : place.holds = none)
      (idle : place.cleans = none) (holds : place'.holds = some setup)
      (cleans : place'.cleans = none) (startups : s'.startups = s.startups)
      (cleaned : s'.cleaned = s.cleaned)
  | start (free : place.holds = none) (idle : place.cleans = none)
      (holds : place'.holds = some s.startups) (cleans : place'.cleans = none)
      (startups : s'.startups = s.startups + 1) (cleaned : s'.cleaned = s.cleaned)
  | drop (setup other : ℕ) (held : place.holds = some setup) (another : other ≠ user)
      (rest : s.HoldsAt other setup) (idle : place.cleans = none) (holds : place'.holds = none)
      (cleans : place'.cleans = none) (startups : s'.startups = s.startups)
      (cleaned : s'.cleaned = s.cleaned)
  | last (setup : ℕ) (held : place.holds = some setup) (idle : place.cleans = none)
      (last : ∀ other, s.HoldsAt other setup → other = user) (holds : place'.holds = none)
      (cleans : place'.cleans = some setup) (startups : s'.startups = s.startups)
      (cleaned : s'.cleaned = s.cleaned)
  | clean (setup : ℕ) (cleaning : place.cleans = some setup) (free : place.holds = none)
      (holds : place'.holds = none) (cleans : place'.cleans = none)
      (startups : s'.startups = s.startups) (cleaned : s'.cleaned = s.cleaned ++ [setup])

/-- Every step takes one user from one place to another. -/
theorem Step.effect {s s' : NetworkSetups} (h : Step s s') :
    ∃ user place place', s.places[user]? = some place ∧
      s'.places = s.places.set user place' ∧ Effect s s' user place place' := by
  cases h with
  | enter user houtside _ => exact ⟨user, _, _, houtside, rfl, .nothing rfl rfl rfl rfl⟩
  | notExpired user hchecks _ => exact ⟨user, _, _, hchecks, rfl, .nothing rfl rfl rfl rfl⟩
  | expired user hchecks _ => exact ⟨user, _, _, hchecks, rfl, .nothing rfl rfl rfl rfl⟩
  | lock user setup hlocks hpoints halive =>
      obtain ⟨setup', hsetup', other, hheld⟩ := halive
      rw [hpoints, Option.some_inj] at hsetup'
      subst hsetup'
      exact ⟨user, _, _, hlocks, rfl, .share setup other hheld rfl rfl rfl rfl rfl rfl⟩
  | lockNull user hlocks _ => exact ⟨user, _, _, hlocks, rfl, .nothing rfl rfl rfl rfl⟩
  | startup user hstarts => exact ⟨user, _, _, hstarts, rfl, .start rfl rfl rfl rfl rfl rfl⟩
  | startupFails user hstarts => exact ⟨user, _, _, hstarts, rfl, .nothing rfl rfl rfl rfl⟩
  | store user setup hstores => exact ⟨user, _, _, hstores, rfl, .nothing rfl rfl rfl rfl⟩
  | release user setup other hholds hanother hheld =>
      exact ⟨user, _, _, hholds, rfl, .drop setup other rfl hanother hheld rfl rfl rfl rfl rfl⟩
  | releaseLast user setup hholds hlast =>
      exact ⟨user, _, _, hholds, rfl, .last setup rfl rfl hlast rfl rfl rfl rfl⟩
  | releaseNull user hholds => exact ⟨user, _, _, hholds, rfl, .nothing rfl rfl rfl rfl⟩
  | cleanup user setup hcleans =>
      exact ⟨user, _, _, hcleans, rfl, .clean setup rfl rfl rfl rfl rfl rfl⟩

/-- Nobody has a pointer to what he cleans up. -/
theorem not_cleansAt_of_holdsAt {s : NetworkSetups} {user setup setup' : ℕ}
    (hholds : s.HoldsAt user setup) : ¬s.CleansAt user setup' := by
  rintro ⟨place, hplace, hcleans⟩
  obtain ⟨place', hplace', hholds⟩ := hholds
  rw [hplace, Option.some_inj] at hplace'
  subst hplace'
  cases place with
  | cleaning _ => cases hholds
  | _ => cases hcleans

/-! ## Two users -/

/-- Two users, and others who stay outside. -/
def pair (others : ℕ) (first second : UserPlace) : List UserPlace :=
  first :: second :: List.replicate others .outside

/-- After the first of the users has made a `NetworkSetup`. -/
def made (others : ℕ) : NetworkSetups where
  places := pair others (.holding (some 0)) .outside
  weak := some 0
  startups := 1

/-- This state can be reached. -/
theorem run_made (others : ℕ) : Relation.ReflTransGen Step (new (others + 2)) (made others) := by
  have hentered : Step (new (others + 2))
      { places := pair others .checking .outside, mutex := some 0 } := .enter 0 rfl rfl
  have hexpired : Step { places := pair others .checking .outside, mutex := some 0 }
      { places := pair others .starting .outside, mutex := some 0 } :=
    .expired 0 rfl (by rintro ⟨_, ⟨⟩, _⟩)
  have hstarted : Step { places := pair others .starting .outside, mutex := some 0 }
      { places := pair others (.storing 0) .outside, mutex := some 0, startups := 1 } :=
    .startup 0 rfl
  have hstored : Step
      { places := pair others (.storing 0) .outside, mutex := some 0, startups := 1 }
      (made others) := .store 0 0 rfl
  exact (((Relation.ReflTransGen.single hentered).tail hexpired).tail hstarted).tail hstored

theorem holdsAt_pair {s : NetworkSetups} {others : ℕ} {first second : UserPlace}
    (hplaces : s.places = pair others first second) {user setup : ℕ}
    (hholds : s.HoldsAt user setup) :
    user = 0 ∧ first.holds = some setup ∨ user = 1 ∧ second.holds = some setup := by
  obtain ⟨place, hplace, hholds⟩ := hholds
  rw [hplaces] at hplace
  match user, hplace with
  | 0, hplace =>
      cases hplace
      exact Or.inl ⟨rfl, hholds⟩
  | 1, hplace =>
      cases hplace
      exact Or.inr ⟨rfl, hholds⟩
  | user + 2, hplace =>
      cases List.eq_of_mem_replicate
        (List.mem_of_getElem? (show (List.replicate others _)[user]? = _ from hplace))
      cases hholds

/-! ## Startups and cleanups -/

/-- Every startup has been cleaned up, or is in use and will be. -/
structure Balanced (s : NetworkSetups) : Prop where
  /-- What is in use has not been cleaned up. -/
  live : ∀ user setup, s.UsesAt user setup → setup < s.startups ∧ setup ∉ s.cleaned
  /-- Nobody else uses what is being cleaned up. -/
  alone : ∀ user other setup, s.CleansAt user setup → s.UsesAt other setup → other = user
  nodup : s.cleaned.Nodup
  started : ∀ setup ∈ s.cleaned, setup < s.startups
  /-- No startup is lost. -/
  kept : ∀ setup < s.startups, setup ∈ s.cleaned ∨ ∃ user, s.UsesAt user setup

/-- A step that leaves startups and cleanups alone. -/
theorem Balanced.of_same {s s' : NetworkSetups} (h : Balanced s)
    (hstartups : s'.startups = s.startups) (hcleaned : s'.cleaned = s.cleaned)
    (huses : ∀ user setup, s'.UsesAt user setup → ∃ other, s.UsesAt other setup)
    (halone : ∀ user other setup, s'.CleansAt user setup → s'.UsesAt other setup → other = user)
    (hkept : ∀ user setup, s.UsesAt user setup → ∃ other, s'.UsesAt other setup) :
    Balanced s' where
  live := fun user setup huse => by
    obtain ⟨other, hother⟩ := huses user setup huse
    rw [hstartups, hcleaned]
    exact h.live other setup hother
  alone := halone
  nodup := by
    rw [hcleaned]
    exact h.nodup
  started := by
    rw [hstartups, hcleaned]
    exact h.started
  kept := fun setup hsetup => by
    rw [hstartups] at hsetup
    rw [hcleaned]
    exact (h.kept setup hsetup).imp_right fun ⟨user, huse⟩ => hkept user setup huse

section Preserved

variable {s s' : NetworkSetups} {user : ℕ} {place place' : UserPlace} (h : Balanced s)
  (hplace : s.places[user]? = some place) (hplaces : s'.places = s.places.set user place')
include h hplace hplaces

/-- The user has the same pointer as before. -/
theorem Balanced.nothing (hholds : place'.holds = place.holds)
    (hcleans' : place'.cleans = place.cleans) (hstartups : s'.startups = s.startups)
    (hcleaned : s'.cleaned = s.cleaned) :
    Balanced s' := by
  have huser := usesAt_iff hplace
  have huses := usesAt_moved hplace hplaces
  have hcleans := cleansAt_moved hplace hplaces
  have hsame (other setup : ℕ) : s'.UsesAt other setup ↔ s.UsesAt other setup := by
    rw [huses]
    split
    case isTrue heq => rw [heq, huser, hholds, hcleans']
    case isFalse => exact Iff.rfl
  have hsame' (other setup : ℕ) : s'.CleansAt other setup → s.CleansAt other setup := by
    rw [hcleans]
    split
    case isTrue heq => exact fun hclean => ⟨place, heq ▸ hplace, hcleans' ▸ hclean⟩
    case isFalse => exact id
  refine h.of_same hstartups hcleaned ?_ ?_ ?_
  · exact fun other setup huse => ⟨other, (hsame other setup).1 huse⟩
  · intro one other setup hclean huse
    exact h.alone one other setup (hsame' one setup hclean) ((hsame other setup).1 huse)
  · exact fun other setup huse => ⟨other, (hsame other setup).2 huse⟩

/-- The user gets a pointer that another one has. -/
theorem Balanced.share {setup other : ℕ} (hheld : s.HoldsAt other setup)
    (hfree : place.holds = none) (hidle : place.cleans = none)
    (hholds : place'.holds = some setup) (hcleans' : place'.cleans = none)
    (hstartups : s'.startups = s.startups) (hcleaned : s'.cleaned = s.cleaned) :
    Balanced s' := by
  have huser := usesAt_iff hplace
  have huses := usesAt_moved hplace hplaces
  have hcleans := cleansAt_moved hplace hplaces
  refine h.of_same hstartups hcleaned ?_ ?_ ?_
  · intro one setup' huse
    rw [huses, hholds, hcleans'] at huse
    split at huse
    case isTrue =>
      cases huse with
      | inl heq =>
          cases heq
          exact ⟨other, Or.inl hheld⟩
      | inr hnone => cases hnone
    case isFalse => exact ⟨one, huse⟩
  · intro one two setup' hclean huse
    rw [hcleans, hcleans'] at hclean
    rw [huses, hholds, hcleans'] at huse
    split at hclean
    case isTrue => cases hclean
    case isFalse =>
      split at huse
      case isTrue =>
        cases huse with
        | inl heq =>
            cases heq
            have hsame := h.alone one other setup hclean (Or.inl hheld)
            subst hsame
            exact (not_cleansAt_of_holdsAt hheld hclean).elim
        | inr hnone => cases hnone
      case isFalse => exact h.alone one two setup' hclean huse
  · intro one setup' huse
    refine ⟨one, ?_⟩
    rw [huses]
    split
    case isTrue heq =>
      rw [heq, huser, hfree, hidle] at huse
      cases huse <;> contradiction
    case isFalse => exact huse

/-- A startup with its new holder keeps the balance. -/
theorem Balanced.start (hfree : place.holds = none) (hidle : place.cleans = none)
    (hholds : place'.holds = some s.startups) (hcleans' : place'.cleans = none)
    (hstartups : s'.startups = s.startups + 1) (hcleaned : s'.cleaned = s.cleaned) :
    Balanced s' := by
  have huser := usesAt_iff hplace
  have huses := usesAt_moved hplace hplaces
  have hcleans := cleansAt_moved hplace hplaces
  have hold {one setup' : ℕ} (huse : s'.UsesAt one setup') :
      one = user ∧ setup' = s.startups ∨ one ≠ user ∧ s.UsesAt one setup' := by
    rw [huses, hholds, hcleans'] at huse
    split at huse
    case isTrue heq =>
      cases huse with
      | inl hsome =>
          cases hsome
          exact Or.inl ⟨heq, rfl⟩
      | inr hnone => cases hnone
    case isFalse hne => exact Or.inr ⟨hne, huse⟩
  refine ⟨?_, ?_, by rw [hcleaned]; exact h.nodup, ?_, ?_⟩
  · intro one setup' huse
    rw [hstartups, hcleaned]
    rcases hold huse with ⟨-, rfl⟩ | ⟨-, huse⟩
    · exact ⟨Nat.lt_succ_self _, fun hmem => (h.started _ hmem).false⟩
    · exact ⟨Nat.lt_succ_of_lt (h.live one setup' huse).1, (h.live one setup' huse).2⟩
  · intro one two setup' hclean huse
    rw [hcleans, hcleans'] at hclean
    split at hclean
    case isTrue => cases hclean
    case isFalse =>
      rcases hold huse with ⟨-, rfl⟩ | ⟨-, huse⟩
      · exact ((h.live one _ (Or.inr hclean)).1.false).elim
      · exact h.alone one two setup' hclean huse
  · intro setup' hmem
    rw [hcleaned] at hmem
    rw [hstartups]
    exact Nat.lt_succ_of_lt (h.started setup' hmem)
  · intro setup' hsetup
    rw [hstartups] at hsetup
    rw [hcleaned]
    rcases Nat.lt_succ_iff_lt_or_eq.1 hsetup with hlt | rfl
    · refine (h.kept setup' hlt).imp_right fun ⟨one, huse⟩ => ⟨one, ?_⟩
      rw [huses]
      split
      case isTrue heq =>
        rw [heq, huser, hfree, hidle] at huse
        cases huse <;> contradiction
      case isFalse => exact huse
    · exact Or.inr ⟨user, (huses user s.startups).2 (by rw [if_pos rfl]; exact Or.inl hholds)⟩

/-- The user releases a pointer, and another one keeps it. -/
theorem Balanced.drop {setup other : ℕ} (hheld : place.holds = some setup)
    (hanother : other ≠ user) (hrest : s.HoldsAt other setup) (hidle : place.cleans = none)
    (hholds : place'.holds = none) (hcleans' : place'.cleans = none)
    (hstartups : s'.startups = s.startups) (hcleaned : s'.cleaned = s.cleaned) :
    Balanced s' := by
  have huser := usesAt_iff hplace
  have huses := usesAt_moved hplace hplaces
  have hcleans := cleansAt_moved hplace hplaces
  have hold {one setup' : ℕ} (huse : s'.UsesAt one setup') : s.UsesAt one setup' := by
    rw [huses, hholds, hcleans'] at huse
    split at huse
    case isTrue => cases huse <;> contradiction
    case isFalse => exact huse
  refine h.of_same hstartups hcleaned (fun one setup' huse => ⟨one, hold huse⟩) ?_ ?_
  · intro one two setup' hclean huse
    rw [hcleans, hcleans'] at hclean
    split at hclean
    case isTrue => cases hclean
    case isFalse => exact h.alone one two setup' hclean (hold huse)
  · intro one setup' huse
    by_cases hone : one = user
    · rw [hone, huser, hheld, hidle] at huse
      cases huse with
      | inl heq =>
          cases heq
          exact ⟨other, (huses other setup).2 (by rw [if_neg hanother]; exact Or.inl hrest)⟩
      | inr hnone => cases hnone
    · exact ⟨one, (huses one setup').2 (by rw [if_neg hone]; exact huse)⟩

/-- The user releases the last pointer. -/
theorem Balanced.last {setup : ℕ} (hheld : place.holds = some setup)
    (hidle : place.cleans = none) (hlast : ∀ other, s.HoldsAt other setup → other = user)
    (hholds : place'.holds = none) (hcleans' : place'.cleans = some setup)
    (hstartups : s'.startups = s.startups) (hcleaned : s'.cleaned = s.cleaned) :
    Balanced s' := by
  have huser := usesAt_iff hplace
  have huses := usesAt_moved hplace hplaces
  have hcleans := cleansAt_moved hplace hplaces
  have hsame (one setup' : ℕ) : s'.UsesAt one setup' ↔ s.UsesAt one setup' := by
    rw [huses]
    split
    case isTrue heq => rw [heq, huser, hholds, hcleans', hheld, hidle, or_comm]
    case isFalse => exact Iff.rfl
  refine h.of_same hstartups hcleaned ?_ ?_ ?_
  · exact fun one setup' huse => ⟨one, (hsame one setup').1 huse⟩
  · intro one two setup' hclean huse
    rw [hsame] at huse
    rw [hcleans, hcleans'] at hclean
    split at hclean
    case isTrue heq =>
      cases hclean
      cases huse with
      | inl hholds' => exact (hlast two hholds').trans heq.symm
      | inr hclean' =>
          have hsame' := h.alone two user setup hclean' ((huser setup).2 (Or.inl hheld))
          exact (heq.trans hsame').symm
    case isFalse => exact h.alone one two setup' hclean huse
  · exact fun one setup' huse => ⟨one, (hsame one setup').2 huse⟩

/-- The destructor of the user is done. -/
theorem Balanced.clean {setup : ℕ} (hcleaning : place.cleans = some setup)
    (hfree : place.holds = none) (hholds : place'.holds = none) (hcleans' : place'.cleans = none)
    (hstartups : s'.startups = s.startups) (hcleaned : s'.cleaned = s.cleaned ++ [setup]) :
    Balanced s' := by
  have huser := usesAt_iff hplace
  have huses := usesAt_moved hplace hplaces
  have hcleans := cleansAt_moved hplace hplaces
  have huse₀ : s.CleansAt user setup := ⟨place, hplace, hcleaning⟩
  have hlive := h.live user setup (Or.inr huse₀)
  have hold {one setup' : ℕ} (huse : s'.UsesAt one setup') :
      one ≠ user ∧ s.UsesAt one setup' := by
    rw [huses, hholds, hcleans'] at huse
    split at huse
    case isTrue => cases huse <;> contradiction
    case isFalse hne => exact ⟨hne, huse⟩
  refine ⟨?_, ?_, ?_, ?_, ?_⟩
  · intro one setup' huse
    obtain ⟨hne, huse⟩ := hold huse
    rw [hstartups, hcleaned, List.mem_append, List.mem_singleton]
    refine ⟨(h.live one setup' huse).1, ?_⟩
    rintro (hmem | rfl)
    · exact (h.live one setup' huse).2 hmem
    · exact hne (h.alone user one setup' huse₀ huse)
  · intro one two setup' hclean huse
    rw [hcleans, hcleans'] at hclean
    split at hclean
    case isTrue => cases hclean
    case isFalse => exact h.alone one two setup' hclean (hold huse).2
  · rw [hcleaned]
    exact h.nodup.append (List.nodup_singleton setup)
      (List.disjoint_singleton.2 hlive.2)
  · intro setup' hmem
    rw [hcleaned, List.mem_append, List.mem_singleton] at hmem
    rw [hstartups]
    rcases hmem with hmem | rfl
    · exact h.started setup' hmem
    · exact hlive.1
  · intro setup' hsetup
    rw [hstartups] at hsetup
    rw [hcleaned, List.mem_append, List.mem_singleton]
    rcases h.kept setup' hsetup with hmem | ⟨one, huse⟩
    · exact Or.inl (Or.inl hmem)
    · by_cases hone : one = user
      · rw [hone, huser, hfree, hcleaning] at huse
        cases huse with
        | inl hnone => cases hnone
        | inr heq =>
            cases heq
            exact Or.inl (Or.inr rfl)
      · exact Or.inr ⟨one, (huses one setup').2 (by rw [if_neg hone]; exact huse)⟩

end Preserved

/-- **One step** keeps the balance. -/
theorem Balanced.step {s s' : NetworkSetups} (h : Balanced s) (hstep : Step s s') :
    Balanced s' := by
  obtain ⟨user, place, place', hplace, hplaces, heffect⟩ := hstep.effect
  cases heffect with
  | nothing hholds hcleans hstartups hcleaned =>
      exact h.nothing hplace hplaces hholds hcleans hstartups hcleaned
  | share setup other hheld hfree hidle hholds hcleans hstartups hcleaned =>
      exact h.share hplace hplaces hheld hfree hidle hholds hcleans hstartups hcleaned
  | start hfree hidle hholds hcleans hstartups hcleaned =>
      exact h.start hplace hplaces hfree hidle hholds hcleans hstartups hcleaned
  | drop setup other hheld hanother hrest hidle hholds hcleans hstartups hcleaned =>
      exact h.drop hplace hplaces hheld hanother hrest hidle hholds hcleans hstartups hcleaned
  | last setup hheld hidle hlast hholds hcleans hstartups hcleaned =>
      exact h.last hplace hplaces hheld hidle hlast hholds hcleans hstartups hcleaned
  | clean setup hcleaning hfree hholds hcleans hstartups hcleaned =>
      exact h.clean hplace hplaces hcleaning hfree hholds hcleans hstartups hcleaned

theorem eq_outside_of_new {users user : ℕ} {place : UserPlace}
    (h : (new users).places[user]? = some place) : place = .outside :=
  List.eq_of_mem_replicate (List.mem_of_getElem? h)

theorem balanced_new (users : ℕ) : Balanced (new users) := by
  have hnobody (user setup : ℕ) : ¬(new users).UsesAt user setup := by
    rintro (⟨place, hplace, h⟩ | ⟨place, hplace, h⟩)
    all_goals
      cases eq_outside_of_new hplace
      cases h
  exact ⟨fun user setup h => (hnobody user setup h).elim,
    fun _ other setup _ h => (hnobody other setup h).elim, List.nodup_nil,
    fun _ h => (List.not_mem_nil h).elim, fun _ h => (Nat.not_lt_zero _ h).elim⟩

/-- Only what was started up is cleaned up. -/
theorem Balanced.subset_range {s : NetworkSetups} (h : Balanced s) :
    s.cleaned ⊆ List.range s.startups :=
  fun setup hmem => List.mem_range.2 (h.started setup hmem)

/-- **Startups and cleanups match**: in every run there are never more cleanups than startups,
a user with a pointer finds the network layer started, and when no pointer is left and no
destructor is running, each startup has been cleaned up. -/
theorem balanced (users : ℕ) (s : NetworkSetups)
    (hrun : Relation.ReflTransGen Step (new users) s) :
    s.cleaned.length ≤ s.startups ∧
      (∀ user setup, s.HoldsAt user setup → s.cleaned.length < s.startups) ∧
      ((∀ user setup, ¬s.UsesAt user setup) → s.cleaned.length = s.startups) := by
  have h := invariant_of_run (I := Balanced) (fun h hstep => h.step hstep) (balanced_new users) hrun
  have hsub : s.cleaned.Subperm (List.range s.startups) :=
    h.nodup.subperm h.subset_range
  have hle : s.cleaned.length ≤ s.startups := by
    have hlength := hsub.length_le
    rwa [List.length_range] at hlength
  refine ⟨hle, fun user setup hholds => ?_, fun hnobody => ?_⟩
  · -- The setup that the user holds is one that has not been cleaned up.
    obtain ⟨hsetup, hnot⟩ := h.live user setup (Or.inl hholds)
    refine lt_of_le_of_ne hle fun heq => hnot ?_
    have hperm := hsub.perm_of_length_le (by rw [List.length_range, heq])
    exact hperm.mem_iff.2 (List.mem_range.2 hsetup)
  · have hrange : List.range s.startups ⊆ s.cleaned := fun setup hmem =>
      (h.kept setup (List.mem_range.1 hmem)).resolve_right fun ⟨user, huse⟩ =>
        hnobody user setup huse
    have hlength := (List.nodup_range.subperm hrange).length_le
    rw [List.length_range] at hlength
    exact le_antisymm hle hlength

/-- One user holds a setup that was started up and not cleaned up. -/
theorem balanced_made : (made 0).cleaned.length < (made 0).startups :=
  (balanced 2 (made 0) (run_made 0)).2.1 0 0 ⟨_, rfl, rfl⟩

/-! ## One instance -/

/-- Back from `initNetwork` with a pointer. -/
def HasPointer (s : NetworkSetups) (user setup : ℕ) : Prop :=
  s.places[user]? = some (.holding (some setup))

/-- The mutex keeps users apart, and every pointer outside of it is to the instance. -/
structure Single (s : NetworkSetups) : Prop where
  guarded : ∀ (user : ℕ) (place : UserPlace), s.places[user]? = some place → place.inside →
    s.mutex = some user
  same : ∀ user setup, s.HasPointer user setup → s.weak = some setup
  /-- While a `NetworkSetup` is being made nobody has a pointer to another one. -/
  nobody : ∀ (user : ℕ) (place : UserPlace), s.places[user]? = some place → place.makes →
    ∀ other setup, ¬s.HasPointer other setup

/-- Whoever makes a setup is inside. -/
theorem inside_of_makes {place : UserPlace} (h : place.makes) : place.inside := by
  cases place with
  | starting => rfl
  | storing _ => rfl
  | _ => cases h

section Single

variable {s s' : NetworkSetups} (h : Single s) {user : ℕ} {place place' : UserPlace}
  (hplace : s.places[user]? = some place) (hplaces : s'.places = s.places.set user place')
include h hplace

/-- Nobody else is inside. -/
theorem Single.not_inside (hinside : place.inside) {other : ℕ} (hne : other ≠ user)
    {place'' : UserPlace} (hplace'' : s.places[other]? = some place'') : ¬place''.inside := by
  intro hinside'
  have hmutex := h.guarded user place hplace hinside
  rw [h.guarded other place'' hplace'' hinside', Option.some_inj] at hmutex
  exact hne hmutex

include hplaces

/-- The user gets no pointer. -/
theorem Single.of_no_pointer (hmutex : ∀ (other : ℕ) (place'' : UserPlace), other ≠ user →
      s.places[other]? = some place'' → place''.inside → s'.mutex = some other)
    (huser : place'.inside → s'.mutex = some user) (hweak : s'.weak = s.weak)
    (hnone : ∀ setup, place' ≠ .holding (some setup))
    (hmakes : place'.makes → ∀ other setup, ¬s.HasPointer other setup) : Single s' := by
  have hmoved := getElem?_moved hplace hplaces
  have hold {other setup : ℕ} (hhas : s'.HasPointer other setup) : s.HasPointer other setup := by
    rw [HasPointer, hmoved] at hhas
    split at hhas
    case isTrue =>
      rw [Option.some_inj] at hhas
      exact (hnone setup hhas).elim
    case isFalse => exact hhas
  refine ⟨fun other place'' hother hinside => ?_, fun other setup hhas => ?_,
    fun one place'' hone hmaking other setup hhas => ?_⟩
  · rw [hmoved] at hother
    split at hother
    case isTrue heq =>
      cases hother
      rw [heq]
      exact huser hinside
    case isFalse hne => exact hmutex other place'' hne hother hinside
  · rw [hweak]
    exact h.same other setup (hold hhas)
  · rw [hmoved] at hone
    split at hone
    case isTrue =>
      cases hone
      exact hmakes hmaking other setup (hold hhas)
    case isFalse => exact h.nobody one place'' hone hmaking other setup (hold hhas)

/-- The user returns with a pointer, and nobody has a pointer to anything else. -/
theorem Single.of_pointer (hinside : place.inside) {setup : ℕ}
    (hholding : place' = .holding (some setup)) (hweak : s'.weak = some setup)
    (hothers : ∀ other setup', s.HasPointer other setup' → setup' = setup) : Single s' := by
  have hmoved := getElem?_moved hplace hplaces
  have houtside {other : ℕ} {place'' : UserPlace} (hother : s'.places[other]? = some place'') :
      ¬place''.inside := by
    rw [hmoved] at hother
    split at hother
    case isTrue =>
      cases hother
      rw [hholding]
      exact Bool.false_ne_true
    case isFalse hne => exact h.not_inside hplace hinside hne hother
  refine ⟨fun other place'' hother hinside' => (houtside hother hinside').elim,
    fun other setup' hhas => ?_, fun one place'' hone hmaking => ?_⟩
  · rw [HasPointer, hmoved] at hhas
    split at hhas
    case isTrue =>
      rw [hholding] at hhas
      cases hhas
      exact hweak
    case isFalse => rw [hothers other setup' hhas, hweak]
  · exact (houtside hone (inside_of_makes hmaking)).elim

end Single

/-- **One step** keeps the instance single. -/
theorem Single.step {s s' : NetworkSetups} (h : Single s) (hstep : Step s s') : Single s' := by
  cases hstep with
  | enter user houtside hunlocked =>
      refine h.of_no_pointer houtside rfl (fun other place'' _ hother hinside => ?_)
        (fun _ => rfl) rfl (fun _ => by rintro ⟨⟩) (by rintro ⟨⟩)
      have hmutex := h.guarded other place'' hother hinside
      rw [hunlocked] at hmutex
      cases hmutex
  | notExpired user hchecks _ =>
      refine h.of_no_pointer hchecks rfl (fun other place'' _ => h.guarded other place'')
        (fun _ => h.guarded user _ hchecks rfl) rfl (fun _ => by rintro ⟨⟩) (by rintro ⟨⟩)
  | expired user hchecks hdead =>
      refine h.of_no_pointer hchecks rfl (fun other place'' _ => h.guarded other place'')
        (fun _ => h.guarded user _ hchecks rfl) rfl (fun _ => by rintro ⟨⟩) ?_
      exact fun _ other setup hhas =>
        hdead ⟨setup, h.same other setup hhas, other, _, hhas, rfl⟩
  | lock user setup hlocks hpoints _ =>
      refine h.of_pointer hlocks rfl rfl rfl hpoints fun other setup' hhas => ?_
      have hsame := h.same other setup' hhas
      rw [hpoints, Option.some_inj] at hsame
      exact hsame.symm
  | lockNull user hlocks _ =>
      exact h.of_no_pointer hlocks rfl
        (fun other place'' hne hother hinside =>
          (h.not_inside hlocks rfl hne hother hinside).elim)
        (by rintro ⟨⟩) rfl (fun _ => by rintro ⟨⟩) (by rintro ⟨⟩)
  | startup user hstarts =>
      exact h.of_no_pointer hstarts rfl (fun other place'' _ => h.guarded other place'')
        (fun _ => h.guarded user _ hstarts rfl) rfl (fun _ => by rintro ⟨⟩)
        (fun _ => h.nobody user _ hstarts rfl)
  | startupFails user hstarts =>
      exact h.of_no_pointer hstarts rfl
        (fun other place'' hne hother hinside =>
          (h.not_inside hstarts rfl hne hother hinside).elim)
        (by rintro ⟨⟩) rfl (fun _ => by rintro ⟨⟩) (by rintro ⟨⟩)
  | store user setup hstores =>
      exact h.of_pointer hstores rfl rfl rfl rfl fun other setup' hhas =>
        (h.nobody user _ hstores rfl other setup' hhas).elim
  | release user setup other hholds _ _ =>
      exact h.of_no_pointer hholds rfl (fun other place'' _ => h.guarded other place'')
        (by rintro ⟨⟩) rfl (fun _ => by rintro ⟨⟩) (by rintro ⟨⟩)
  | releaseLast user setup hholds _ =>
      exact h.of_no_pointer hholds rfl (fun other place'' _ => h.guarded other place'')
        (by rintro ⟨⟩) rfl (fun _ => by rintro ⟨⟩) (by rintro ⟨⟩)
  | releaseNull user hholds =>
      exact h.of_no_pointer hholds rfl (fun other place'' _ => h.guarded other place'')
        (by rintro ⟨⟩) rfl (fun _ => by rintro ⟨⟩) (by rintro ⟨⟩)
  | cleanup user setup hcleans =>
      exact h.of_no_pointer hcleans rfl (fun other place'' _ => h.guarded other place'')
        (by rintro ⟨⟩) rfl (fun _ => by rintro ⟨⟩) (by rintro ⟨⟩)

theorem single_new (users : ℕ) : Single (new users) where
  guarded := fun user place hplace hinside => by
    cases eq_outside_of_new hplace
    cases hinside
  same := fun user setup hhas => by cases eq_outside_of_new hhas
  nobody := fun user place hplace hmakes => by
    cases eq_outside_of_new hplace
    cases hmakes

/-- Whoever has a pointer is about to set the instance or back with it. -/
theorem HoldsAt.cases {s : NetworkSetups} {user setup : ℕ} (h : s.HoldsAt user setup) :
    s.places[user]? = some (.storing setup) ∨ s.HasPointer user setup := by
  obtain ⟨place, hplace, hholds⟩ := h
  cases place with
  | storing setup' =>
      cases hholds
      exact Or.inl hplace
  | holding pointer =>
      cases hholds
      exact Or.inr hplace
  | _ => cases hholds

/-- All who hold a setup hold the same one. -/
theorem Single.eq {s : NetworkSetups} (h : Single s) {user other setup setup' : ℕ}
    (hholds : s.HoldsAt user setup) (hholds' : s.HoldsAt other setup') : setup = setup' := by
  rcases hholds.cases with hstores | hhas <;> rcases hholds'.cases with hstores' | hhas'
  · by_cases heq : other = user
    · rw [heq, hstores] at hstores'
      cases hstores'
      rfl
    · exact (h.not_inside hstores rfl heq hstores' rfl).elim
  · exact (h.nobody user _ hstores rfl other setup' hhas').elim
  · exact (h.nobody other _ hstores' rfl user setup hhas).elim
  · have hsame := h.same user setup hhas
    rw [h.same other setup' hhas', Option.some_inj] at hsame
    exact hsame.symm

/-- **One instance**: all pointers that users have at one time are to the same
`NetworkSetup`. -/
theorem one_instance (users : ℕ) (s : NetworkSetups)
    (hrun : Relation.ReflTransGen Step (new users) s) :
    ∃ pointer, ∀ user setup, s.HoldsAt user setup → pointer = some setup := by
  have h := invariant_of_run (I := Single) (fun h hstep => h.step hstep) (single_new users) hrun
  by_cases hany : ∃ user setup, s.HoldsAt user setup
  · obtain ⟨user, setup, hholds⟩ := hany
    exact ⟨some setup, fun other setup' hholds' => congrArg some (h.eq hholds hholds')⟩
  · exact ⟨none, fun user setup hholds => (hany ⟨user, setup, hholds⟩).elim⟩

/-- In that state one user holds one. -/
theorem one_instance_made : ∃ pointer, ∀ user setup, (made 0).HoldsAt user setup →
    pointer = some setup :=
  one_instance 2 (made 0) (run_made 0)

/-! ## Null pointers -/

/-- A step by which the instance does not expire while a user is before `lock`. -/
def Prompt (s s' : NetworkSetups) : Prop :=
  Step s s' ∧ (s.Alive → ¬s'.Alive → ∀ user : ℕ, s.places[user]? ≠ some .locking)

/-- Who is before `lock` will find the instance, and nobody has found none. -/
structure Found (s : NetworkSetups) : Prop where
  alive : ∀ user : ℕ, s.places[user]? = some .locking → s.Alive
  found : ∀ user : ℕ, s.places[user]? ≠ some (.holding none)

theorem Found.of_moved {s s' : NetworkSetups} (h : Found s) {user : ℕ} {place place' : UserPlace}
    (hplace : s.places[user]? = some place) (hplaces : s'.places = s.places.set user place')
    (hprompt : s.Alive → ¬s'.Alive → ∀ user : ℕ, s.places[user]? ≠ some .locking)
    (hlocking : place' = .locking → s'.Alive) (hnone : place' ≠ .holding none) : Found s' := by
  have hmoved := getElem?_moved hplace hplaces
  refine ⟨fun other hother => ?_, fun other hother => ?_⟩
  · rw [hmoved] at hother
    split at hother
    case isTrue =>
      rw [Option.some_inj] at hother
      exact hlocking hother
    case isFalse =>
      by_contra hdead
      exact hprompt (h.alive other hother) hdead other hother
  · rw [hmoved] at hother
    split at hother
    case isTrue =>
      rw [Option.some_inj] at hother
      exact hnone hother
    case isFalse => exact h.found other hother

/-- Every such step keeps that. -/
theorem Found.step {s s' : NetworkSetups} (h : Found s) (hstep : Prompt s s') : Found s' := by
  obtain ⟨hstep, hprompt⟩ := hstep
  cases hstep with
  | notExpired user hchecks halive =>
      refine h.of_moved hchecks rfl hprompt (fun _ => ?_) (by rintro ⟨⟩)
      -- The one who holds the instance is another one than the one who checks.
      obtain ⟨setup, hsetup, other, hholds⟩ := halive
      refine ⟨setup, hsetup, other, (holdsAt_moved hchecks rfl other setup).2 ?_⟩
      split
      case isTrue heq =>
        obtain ⟨place, hplace, hplace'⟩ := hholds
        rw [heq, hchecks, Option.some_inj] at hplace
        subst hplace
        cases hplace'
      case isFalse => exact hholds
  | lockNull user hlocks hdead => exact (hdead (h.alive user hlocks)).elim
  | enter user hplace _ | expired user hplace _ | lock user _ hplace _ _ | startup user hplace
  | startupFails user hplace | store user _ hplace | release user _ _ hplace _ _
  | releaseLast user _ hplace _ | releaseNull user hplace | cleanup user _ hplace =>
      exact h.of_moved hplace rfl hprompt (by rintro ⟨⟩) (by rintro ⟨⟩)

/-- At first all users are outside. -/
theorem found_new (users : ℕ) : Found (new users) where
  alive := fun user hplace => by cases eq_outside_of_new hplace
  found := fun user hplace => by cases eq_outside_of_new hplace

/-- After the second one has asked for it meanwhile, and got none. -/
def lost (others : ℕ) : NetworkSetups where
  places := pair others .outside (.holding none)
  weak := some 0
  startups := 1
  cleaned := [0]

/-- While the second one is in `initNetwork`. -/
def asking (others : ℕ) (first second : UserPlace) (cleaned : List ℕ) : NetworkSetups where
  places := pair others first second
  mutex := some 1
  weak := some 0
  startups := 1
  cleaned := cleaned

theorem run_lost (others : ℕ) : Relation.ReflTransGen Step (made others) (lost others) := by
  have hentered : Step (made others) (asking others (.holding (some 0)) .checking []) :=
    .enter 1 rfl rfl
  have hlocking : Step (asking others (.holding (some 0)) .checking [])
      (asking others (.holding (some 0)) .locking []) :=
    .notExpired 1 rfl ⟨0, rfl, 0, _, rfl, rfl⟩
  have hreleased : Step (asking others (.holding (some 0)) .locking [])
      (asking others (.cleaning 0) .locking []) := by
    refine .releaseLast 0 0 rfl fun other hholds => ?_
    rcases holdsAt_pair rfl hholds with ⟨hzero, -⟩ | ⟨-, ⟨⟩⟩
    exact hzero
  have hcleaned : Step (asking others (.cleaning 0) .locking [])
      (asking others .outside .locking [0]) := .cleanup 0 0 rfl
  have hnull : Step (asking others .outside .locking [0]) (lost others) := by
    refine .lockNull 1 rfl ?_
    rintro ⟨setup, -, user, hholds⟩
    rcases holdsAt_pair rfl hholds with ⟨-, ⟨⟩⟩ | ⟨-, ⟨⟩⟩
  exact ((((Relation.ReflTransGen.single hentered).tail hlocking).tail hreleased).tail
    hcleaned).tail hnull

/-- **Null pointers**: no user gets one as long as the instance never expires while a user is
before `lock`.  Two users suffice for a run in which one does, and the network layer is not
started then. -/
theorem null_of_expiry (users : ℕ) :
    (∀ s, Relation.ReflTransGen Prompt (new users) s →
      ∀ user : ℕ, s.places[user]? ≠ some (.holding none)) ∧
      ∃ s, Relation.ReflTransGen Step (new (users + 2)) s ∧
        s.places[1]? = some (.holding none) ∧ s.cleaned.length = s.startups := by
  refine ⟨fun s hrun => ?_, lost users, (run_made users).trans (run_lost users), rfl, rfl⟩
  have hfound := invariant_of_run (I := Found) (fun h hstep => h.step hstep) (found_new users) hrun
  exact hfound.found

end NetworkSetups

end NewCPP.Network
