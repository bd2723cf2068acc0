import Mathlib.Data.List.Basic
import Mathlib.Data.List.Pairwise
import Mathlib.Data.List.TakeWhile
import Mathlib.Order.Lattice
import Mathlib.Tactic.Common

/-!
# Ordered maps

A finite map as the list of its entries in ascending key order, the order part of the
type.  Insertion keeps the entry that is already there, as `std::map::insert` does.

## Main definitions

* `OrderedMap κ ν` — entries with strictly ascending keys
* `insert`, `insertAll`, `erase` — the updates
* `below m k` — the entries before the lower bound of `k`

What a client learns about a map goes through its keys: `mem_keys_insert`,
`keys_erase`, `exists_greatest`.  Entries with distinct keys are found again as they were
inserted, up to their order: `insertAll_perm`.

## Design notes

**The order as a field.**  The list comes with the proof that its keys ascend, so that equal
maps have equal lists and iteration is over the list as it stands.

**Instances.**  The keys are in a linear order; the values are of any type.  What the standard
says about iterators, which stay valid, is not part of this library: whoever holds one states
what it denotes.
-/

namespace Library

universe u v

/-- A finite map, its entries in ascending key order. -/
structure OrderedMap (κ : Type u) (ν : Type v) [LinearOrder κ] where
  entries : List (κ × ν)
  ascending : entries.Pairwise fun a b => a.1 < b.1

namespace OrderedMap

variable {κ : Type u} {ν : Type v} [LinearOrder κ]

/-- The map without entries. -/
def empty : OrderedMap κ ν :=
  ⟨[], List.Pairwise.nil⟩

/-- The keys in their order. -/
def keys (m : OrderedMap κ ν) : List κ :=
  m.entries.map Prod.fst

/-- Insertion into an ascending list; an entry with the same key stays. -/
def insertEntry (k : κ) (v : ν) : List (κ × ν) → List (κ × ν)
  | [] => [(k, v)]
  | e :: rest =>
      if k < e.1 then (k, v) :: e :: rest
      else if k = e.1 then e :: rest
      else e :: insertEntry k v rest

/-- A new key brings its entry, a known one changes nothing. -/
theorem mem_insertEntry {k : κ} {v : ν} {e : κ × ν} {es : List (κ × ν)}
    (h : e ∈ insertEntry k v es) : e = (k, v) ∨ e ∈ es := by
  induction es with
  | nil => exact Or.inl (List.mem_singleton.mp h)
  | cons e' rest ih =>
      rw [insertEntry] at h
      split at h
      · rcases List.mem_cons.mp h with rfl | h
        · exact Or.inl rfl
        · exact Or.inr h
      · split at h
        · exact Or.inr h
        · rcases List.mem_cons.mp h with rfl | h
          · exact Or.inr List.mem_cons_self
          · rcases ih h with rfl | h
            · exact Or.inl rfl
            · exact Or.inr (List.mem_cons_of_mem _ h)

/-- Insertion keeps the order. -/
theorem insertEntry_ascending {k : κ} {v : ν} {es : List (κ × ν)}
    (h : es.Pairwise fun a b => a.1 < b.1) :
    (insertEntry k v es).Pairwise fun a b => a.1 < b.1 := by
  induction es with
  | nil => exact List.pairwise_singleton _ _
  | cons e rest ih =>
      obtain ⟨hhead, hrest⟩ := List.pairwise_cons.mp h
      rw [insertEntry]
      split
      · rename_i hlt
        refine List.pairwise_cons.mpr ⟨fun b hb => ?_, h⟩
        rcases List.mem_cons.mp hb with rfl | hb
        · exact hlt
        · exact lt_trans hlt (hhead b hb)
      · rename_i hnot
        split
        · exact h
        · rename_i hne
          refine List.pairwise_cons.mpr ⟨fun b hb => ?_, ih hrest⟩
          rcases mem_insertEntry hb with rfl | hb
          · exact lt_of_le_of_ne (not_lt.mp hnot) (Ne.symm hne)
          · exact hhead b hb

/-- `std::map::insert`. -/
def insert (m : OrderedMap κ ν) (k : κ) (v : ν) : OrderedMap κ ν :=
  ⟨insertEntry k v m.entries, insertEntry_ascending m.ascending⟩

/-- `std::map::erase` of a key. -/
def erase (m : OrderedMap κ ν) (k : κ) : OrderedMap κ ν :=
  ⟨m.entries.filter fun e => e.1 ≠ k, m.ascending.filter _⟩

/-- `[begin, lower_bound k)`. -/
def below (m : OrderedMap κ ν) (k : κ) : List (κ × ν) :=
  m.entries.takeWhile fun e => e.1 < k

/-- No key comes twice. -/
theorem keys_nodup (m : OrderedMap κ ν) : m.keys.Nodup :=
  List.pairwise_map.mpr (m.ascending.imp ne_of_lt)

theorem mem_keys_insertEntry {k x : κ} {v : ν} {es : List (κ × ν)} :
    x ∈ (insertEntry k v es).map Prod.fst ↔ x = k ∨ x ∈ es.map Prod.fst := by
  induction es with
  | nil => simp [insertEntry]
  | cons e rest ih =>
      rw [insertEntry]
      split
      · simp
      · split
        · rename_i heq
          simp [heq]
        · simp only [List.map_cons, List.mem_cons, ih]
          exact or_left_comm

/-- The keys after an insertion. -/
@[simp] theorem mem_keys_insert {m : OrderedMap κ ν} {k x : κ} {v : ν} :
    x ∈ (m.insert k v).keys ↔ x = k ∨ x ∈ m.keys :=
  mem_keys_insertEntry

/-- Inserting a key that is present changes nothing. -/
theorem insert_of_mem {m : OrderedMap κ ν} {k : κ} (v : ν) (h : k ∈ m.keys) :
    m.insert k v = m := by
  have hes : ∀ es : List (κ × ν), es.Pairwise (fun a b => a.1 < b.1) →
      k ∈ es.map Prod.fst → insertEntry k v es = es := by
    intro es
    induction es with
    | nil => exact fun _ hmem => absurd hmem List.not_mem_nil
    | cons e rest ih =>
        intro hasc hmem
        obtain ⟨hhead, hrest⟩ := List.pairwise_cons.mp hasc
        rcases List.mem_cons.mp hmem with heq | hmem
        · rw [insertEntry, if_neg (by rw [heq]; exact lt_irrefl _), if_pos heq]
        · obtain ⟨e', he', rfl⟩ := List.mem_map.mp hmem
          have hlt := hhead e' he'
          rw [insertEntry, if_neg (lt_asymm hlt), if_neg (ne_of_gt hlt), ih hrest hmem]
  obtain ⟨es, hasc⟩ := m
  simp only [insert, hes es hasc h]

/-- A new key adds one entry. -/
theorem insertEntry_perm {k : κ} {v : ν} {es : List (κ × ν)} (h : k ∉ es.map Prod.fst) :
    (insertEntry k v es).Perm ((k, v) :: es) := by
  induction es with
  | nil => exact List.Perm.refl _
  | cons e rest ih =>
      rw [List.map_cons, List.mem_cons, not_or] at h
      rw [insertEntry]
      split
      · exact List.Perm.refl _
      · rw [if_neg h.1]
        exact ((ih h.2).cons e).trans (List.Perm.swap _ _ _)

/-- A new key brings its entry and nothing else changes. -/
theorem insert_perm {m : OrderedMap κ ν} {k : κ} (v : ν) (h : k ∉ m.keys) :
    (m.insert k v).entries.Perm ((k, v) :: m.entries) :=
  insertEntry_perm h

/-- Insert entries one after another. -/
def insertAll (m : OrderedMap κ ν) (es : List (κ × ν)) : OrderedMap κ ν :=
  es.foldl (fun m e => m.insert e.1 e.2) m

/-- The keys after many insertions. -/
theorem mem_keys_insertAll {es : List (κ × ν)} : ∀ {m : OrderedMap κ ν} {x : κ},
    x ∈ (m.insertAll es).keys ↔ x ∈ m.keys ∨ x ∈ es.map Prod.fst := by
  induction es with
  | nil => exact fun {m x} => ⟨Or.inl, fun h => h.resolve_right List.not_mem_nil⟩
  | cons e es ih =>
      intro m x
      have hrest := ih (m := m.insert e.1 e.2) (x := x)
      rw [mem_keys_insert] at hrest
      rw [List.map_cons, List.mem_cons]
      refine hrest.trans ?_
      rw [or_comm (a := x = e.1), or_assoc]

/-- Entries with new and distinct keys are all taken over. -/
theorem insertAll_perm {es : List (κ × ν)} : ∀ {m : OrderedMap κ ν},
    (es.map Prod.fst).Nodup → (∀ e ∈ es, e.1 ∉ m.keys) →
    (m.insertAll es).entries.Perm (es ++ m.entries) := by
  induction es with
  | nil => exact fun _ _ => List.Perm.refl _
  | cons e es ih =>
      intro m hnodup hnew
      obtain ⟨hhead, hnodup⟩ := List.nodup_cons.mp hnodup
      have hone := insert_perm e.2 (hnew e List.mem_cons_self)
      have hrest : (m.insertAll (e :: es)).entries.Perm
          (es ++ (m.insert e.1 e.2).entries) := by
        refine ih hnodup fun e' he' hmem => ?_
        rcases mem_keys_insert.mp hmem with heq | hmem
        · exact hhead (heq ▸ List.mem_map_of_mem he')
        · exact hnew e' (List.mem_cons_of_mem _ he') hmem
      exact hrest.trans ((hone.append_left es).trans List.perm_middle)

/-- Inserting a new key adds one entry. -/
theorem length_insert_of_not_mem {m : OrderedMap κ ν} {k : κ} (v : ν) (h : k ∉ m.keys) :
    (m.insert k v).entries.length = m.entries.length + 1 := by
  have hes : ∀ es : List (κ × ν), k ∉ es.map Prod.fst →
      (insertEntry k v es).length = es.length + 1 := by
    intro es
    induction es with
    | nil => exact fun _ => rfl
    | cons e rest ih =>
        intro hmem
        rw [List.map_cons, List.mem_cons, not_or] at hmem
        rw [insertEntry]
        split
        · rfl
        · rw [if_neg hmem.1, List.length_cons, ih hmem.2, List.length_cons]
  exact hes m.entries h

/-- An insertion adds at most one entry. -/
theorem length_insert_le (m : OrderedMap κ ν) (k : κ) (v : ν) :
    (m.insert k v).entries.length ≤ m.entries.length + 1 := by
  by_cases h : k ∈ m.keys
  · rw [insert_of_mem v h]
    exact Nat.le_succ _
  · exact (length_insert_of_not_mem v h).le

/-- Erasing a key leaves the others in their order. -/
theorem keys_erase (m : OrderedMap κ ν) (k : κ) :
    (m.erase k).keys = m.keys.filter fun x => x ≠ k := by
  rw [keys, erase, keys, List.filter_map]
  rfl

/-- The keys after an erasure. -/
theorem mem_keys_erase {m : OrderedMap κ ν} {k x : κ} :
    x ∈ (m.erase k).keys ↔ x ∈ m.keys ∧ x ≠ k := by
  rw [keys_erase, List.mem_filter, decide_eq_true_iff]

/-- Erasing a key that is present removes one entry. -/
theorem length_erase_of_mem {m : OrderedMap κ ν} {k : κ} (h : k ∈ m.keys) :
    (m.erase k).entries.length + 1 = m.entries.length := by
  have hlen (m : OrderedMap κ ν) : m.entries.length = m.keys.length :=
    (List.length_map _).symm
  have hfilter : m.keys.filter (fun x => x ≠ k) = m.keys.erase k := by
    rw [(keys_nodup m).erase_eq_filter]
    congr 1
    funext x
    simp [bne, decide_not, beq_eq_decide]
  rw [hlen, hlen, keys_erase, hfilter]
  exact List.length_erase_add_one h

/-- A map with entries has a greatest key. -/
theorem exists_greatest {m : OrderedMap κ ν} (h : m.entries ≠ []) :
    ∃ last ∈ m.keys, ∀ key ∈ m.keys, key ≤ last := by
  have hsplit := List.dropLast_append_getLast h
  have hasc := m.ascending
  rw [← hsplit] at hasc
  obtain ⟨-, -, hlast⟩ := List.pairwise_append.mp hasc
  refine ⟨(m.entries.getLast h).1, List.mem_map_of_mem (List.getLast_mem h), ?_⟩
  intro key hkey
  obtain ⟨e, he, rfl⟩ := List.mem_map.mp hkey
  rw [← hsplit, List.mem_append] at he
  rcases he with he | he
  · exact le_of_lt (hlast e he _ (List.mem_singleton.mpr rfl))
  · rw [List.mem_singleton.mp he]

/-- All entries before the lower bound but the last have a greater key behind them. -/
theorem exists_gt_of_mem_dropLast_below {m : OrderedMap κ ν} {k : κ} {e : κ × ν}
    (h : e ∈ (m.below k).dropLast) : ∃ x ∈ m.keys, e.1 < x := by
  obtain ⟨i, hi, rfl⟩ := List.getElem_of_mem h
  rw [List.length_dropLast] at hi
  have hfront : (m.below k) <+: m.entries := List.takeWhile_prefix _
  have hasc := m.ascending.sublist hfront.sublist
  rw [List.getElem_dropLast]
  refine ⟨((m.below k)[i + 1]).1, ?_, ?_⟩
  · exact List.mem_map_of_mem (hfront.subset (List.getElem_mem _))
  · exact List.pairwise_iff_getElem.mp hasc i (i + 1) _ _ (Nat.lt_succ_self i)

end OrderedMap

end Library
