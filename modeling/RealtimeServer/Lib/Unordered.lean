import Mathlib.Data.Finset.Card
import Mathlib.Data.List.AList
import Mathlib.Data.List.Perm.Basic

/-!
# Unordered containers that are iterated

A hash container has no order of its own, but a program that iterates over it sees one. The order
stays while elements are only removed; an insertion may change it in any way.

* `Reorder α`: an order an insertion may leave, as a function of what was there.
* `IterSet α`: an unordered set as the duplicate-free list its iterators walk. `SameElems`: two that
  differ in that order only.
* `Map κ ν`: an unordered map. Its entries are Mathlib's `AList`; `keep` drops the entries that fail
  a test, `values` lists what is stored.
-/

namespace Unordered

variable {α κ ν : Type*}

/-- A way to order anything: it permutes the list it is given. -/
structure Reorder (α : Type*) where
  apply : List α → List α
  perm : ∀ l, (apply l).Perm l

/-- Leave everything where it is. -/
def Reorder.none : Reorder α := ⟨id, fun l => List.Perm.refl l⟩

/-- Put one element in front. -/
def Reorder.toFront [DecidableEq α] (x : α) : Reorder α where
  apply l := if x ∈ l then x :: l.erase x else l
  perm l := by
    split
    · rename_i h
      exact (List.perm_cons_erase h).symm
    · exact List.Perm.refl l

@[simp] theorem Reorder.mem_apply (ρ : Reorder α) {l : List α} {x : α} :
    x ∈ ρ.apply l ↔ x ∈ l :=
  (ρ.perm l).mem_iff

/-! ## Sets -/

/-- An unordered set, in the order its iterators walk it. -/
structure IterSet (α : Type*) where
  elems : List α
  nodup : elems.Nodup

namespace IterSet

instance : Membership α (IterSet α) := ⟨fun s x => x ∈ s.elems⟩

instance [DecidableEq α] (x : α) (s : IterSet α) : Decidable (x ∈ s) :=
  inferInstanceAs (Decidable (x ∈ s.elems))

/-- The empty set. -/
def empty : IterSet α := ⟨[], List.nodup_nil⟩

def size (s : IterSet α) : Nat := s.elems.length

/-- What `begin()` points at. -/
def first (s : IterSet α) : Option α := s.elems.head?

/-- `insert`: a new element, and with it a new order. -/
def insert [DecidableEq α] (ρ : Reorder α) (x : α) (s : IterSet α) : IterSet α :=
  if h : x ∈ s.elems then s
  else ⟨ρ.apply (x :: s.elems), (ρ.perm _).nodup_iff.mpr (List.nodup_cons.mpr ⟨h, s.nodup⟩)⟩

/-- `erase`: the others stay in their order. -/
def erase [DecidableEq α] (x : α) (s : IterSet α) : IterSet α :=
  ⟨s.elems.erase x, s.nodup.erase x⟩

@[simp] theorem mem_elems {s : IterSet α} {x : α} : x ∈ s.elems ↔ x ∈ s := Iff.rfl

@[simp] theorem not_mem_empty (x : α) : x ∉ (empty : IterSet α) := List.not_mem_nil

theorem size_eq_zero_iff {s : IterSet α} : s.size = 0 ↔ ∀ x, x ∉ s := by
  unfold size
  rw [List.length_eq_zero_iff, List.eq_nil_iff_forall_not_mem]
  rfl

theorem first_eq_none {s : IterSet α} : s.first = none ↔ s.size = 0 := by
  unfold first size
  rw [List.head?_eq_none_iff, List.length_eq_zero_iff]

theorem first_mem {s : IterSet α} {x : α} (h : s.first = some x) : x ∈ s :=
  List.mem_of_mem_head? h

/-- The two differ in the order of their iterators at most. -/
def SameElems (s t : IterSet α) : Prop := ∀ x, x ∈ s ↔ x ∈ t

theorem SameElems.size {s t : IterSet α} (h : s.SameElems t) : s.size = t.size :=
  ((List.perm_ext_iff_of_nodup s.nodup t.nodup).mpr h).length_eq

/-- If `x` is in the set at all, the iterators start with it. -/
def Leads (x : α) (s : IterSet α) : Prop := x ∈ s → s.first = some x

theorem leads_empty {x : α} : Leads x (empty : IterSet α) := fun h => absurd h (not_mem_empty x)

variable [DecidableEq α]

@[simp] theorem mem_insert {ρ : Reorder α} {x y : α} {s : IterSet α} :
    y ∈ s.insert ρ x ↔ y = x ∨ y ∈ s := by
  unfold insert
  split
  · rename_i h
    constructor
    · exact Or.inr
    · rintro (rfl | hy)
      · exact h
      · exact hy
  · show y ∈ ρ.apply (x :: s.elems) ↔ _
    rw [Reorder.mem_apply, List.mem_cons, mem_elems]

@[simp] theorem mem_erase {x y : α} {s : IterSet α} : y ∈ s.erase x ↔ y ≠ x ∧ y ∈ s :=
  s.nodup.mem_erase_iff

theorem size_insert_of_mem {ρ : Reorder α} {x : α} {s : IterSet α} (h : x ∈ s) :
    (s.insert ρ x).size = s.size := by
  unfold insert
  rw [dif_pos (show x ∈ s.elems from h)]

theorem size_insert_of_not_mem {ρ : Reorder α} {x : α} {s : IterSet α} (h : x ∉ s) :
    (s.insert ρ x).size = s.size + 1 := by
  unfold insert
  rw [dif_neg (show x ∉ s.elems from h)]
  exact (ρ.perm _).length_eq

theorem size_erase_of_mem {x : α} {s : IterSet α} (h : x ∈ s) :
    (s.erase x).size + 1 = s.size := by
  unfold erase size
  have hpos := List.length_pos_of_mem h
  rw [List.length_erase_of_mem h]
  omega

omit [DecidableEq α] in
/-- A set of keys that elements of `s` bear, as large as `s`, holds the key of every element. -/
theorem key_mem_of_covered [DecidableEq κ] (key : α → κ) {s : IterSet α} {keys : Finset κ}
    (hborne : ∀ k ∈ keys, ∃ x ∈ s.elems, key x = k) (hsize : s.size ≤ keys.card) {x : α}
    (hx : x ∈ s) : key x ∈ keys := by
  have hsub : keys ⊆ (s.elems.map key).toFinset := by
    intro k hk
    rw [List.mem_toFinset, List.mem_map]
    exact hborne k hk
  have hcard : (s.elems.map key).toFinset.card ≤ keys.card := by
    refine (List.toFinset_card_le _).trans ?_
    rw [List.length_map]
    exact hsize
  rw [Finset.eq_of_subset_of_card_le hsub hcard, List.mem_toFinset]
  exact List.mem_map_of_mem hx

theorem SameElems.insert {s t : IterSet α} (h : s.SameElems t) (ρ ρ' : Reorder α) (x : α) :
    (s.insert ρ x).SameElems (t.insert ρ' x) := by
  intro y
  rw [mem_insert, mem_insert, h y]

theorem SameElems.erase {s t : IterSet α} (h : s.SameElems t) (x : α) :
    (s.erase x).SameElems (t.erase x) := by
  intro y
  rw [mem_erase, mem_erase, h y]

theorem leads_insert {x y : α} {s : IterSet α} (h : Leads x s) :
    Leads x (s.insert (.toFront x) y) := by
  intro hx
  by_cases hy : y ∈ s.elems
  · unfold IterSet.insert at hx ⊢
    rw [dif_pos hy] at hx ⊢
    exact h hx
  · have hmem : x ∈ y :: s.elems := List.mem_cons.mpr (mem_insert.mp hx)
    unfold IterSet.insert first
    rw [dif_neg hy]
    show (if x ∈ y :: s.elems then x :: (y :: s.elems).erase x else y :: s.elems).head? = some x
    rw [if_pos hmem, List.head?_cons]

theorem leads_erase {x y : α} {s : IterSet α} (h : Leads x s) : Leads x (s.erase y) := by
  intro hx
  obtain ⟨hne, hmem⟩ := mem_erase.mp hx
  obtain ⟨rest, hrest⟩ := List.head?_eq_some_iff.mp (h hmem)
  show (s.elems.erase y).head? = some x
  rw [hrest, List.erase_cons_tail (by simpa using hne), List.head?_cons]

theorem erase_of_not_mem {x : α} {s : IterSet α} (h : x ∉ s) : s.erase x = s := by
  unfold erase
  congr
  exact List.erase_of_not_mem h

end IterSet

/-! ## Maps -/

/-- An unordered map. -/
abbrev Map (κ ν : Type*) := AList fun _ : κ => ν

namespace Map

/-- Drop the entries that fail the test. -/
def keep (p : κ → ν → Bool) (m : Map κ ν) : Map κ ν :=
  ⟨m.entries.filter fun e => p e.1 e.2, m.nodupKeys.sublist List.filter_sublist⟩

/-- What is stored, in no particular order. -/
def values (m : Map κ ν) : List ν := m.entries.map Sigma.snd

/-- `size`. -/
def size (m : Map κ ν) : ℕ := m.entries.length

variable [DecidableEq κ]

theorem lookup_keep (p : κ → ν → Bool) (m : Map κ ν) (k : κ) (v : ν) :
    (m.keep p).lookup k = some v ↔ m.lookup k = some v ∧ p k v = true := by
  show v ∈ AList.lookup k (m.keep p) ↔ v ∈ AList.lookup k m ∧ _
  rw [AList.mem_lookup_iff, AList.mem_lookup_iff]
  exact List.mem_filter

theorem mem_values {m : Map κ ν} {v : ν} : v ∈ m.values ↔ ∃ k, m.lookup k = some v := by
  unfold values
  rw [List.mem_map]
  constructor
  · rintro ⟨⟨k, w⟩, hmem, rfl⟩
    exact ⟨k, AList.mem_lookup_iff.mpr hmem⟩
  · rintro ⟨k, hk⟩
    exact ⟨⟨k, v⟩, AList.mem_lookup_iff.mp hk, rfl⟩

theorem lookup_insert_iff {m : Map κ ν} {k j : κ} {v w : ν} :
    (m.insert k v).lookup j = some w ↔ (j = k ∧ w = v) ∨ (j ≠ k ∧ m.lookup j = some w) := by
  by_cases h : j = k
  · subst h
    rw [AList.lookup_insert]
    simp [eq_comm]
  · rw [AList.lookup_insert_ne h]
    simp [h]

theorem lookup_erase_iff {m : Map κ ν} {k j : κ} {w : ν} :
    (m.erase k).lookup j = some w ↔ j ≠ k ∧ m.lookup j = some w := by
  by_cases h : j = k
  · subst h
    rw [AList.lookup_erase]
    simp
  · rw [AList.lookup_erase_ne h]
    simp [h]

omit [DecidableEq κ] in
theorem keys_eq_nil {m : Map κ ν} : m.keys = [] ↔ m = ∅ := by
  constructor
  · intro h
    exact AList.ext (List.map_eq_nil_iff.mp h)
  · rintro rfl
    rfl

/-- The last key is gone. -/
theorem erase_eq_empty {m : Map κ ν} {k : κ} (h : ∀ j ∈ m, j = k) : m.erase k = ∅ := by
  refine keys_eq_nil.mp (List.eq_nil_iff_forall_not_mem.mpr fun j hj => ?_)
  obtain ⟨hne, hmem⟩ := AList.mem_erase.mp (AList.mem_keys.mpr hj)
  exact hne (h j hmem)

/-- A map that holds each element of a set under a key of its own is as large as the set. -/
theorem size_eq_card [DecidableEq ν] {m : Map κ ν} {key : ν → κ} (hkey : Function.Injective key)
    {S : Finset ν} (h : ∀ k v, m.lookup k = some v ↔ v ∈ S ∧ k = key v) : m.size = S.card := by
  have hkeys : m.keys.toFinset = S.image key := by
    ext k
    rw [List.mem_toFinset, ← AList.mem_keys, ← AList.lookup_isSome, Option.isSome_iff_exists,
      Finset.mem_image]
    constructor
    · rintro ⟨v, hv⟩
      obtain ⟨hmem, hk⟩ := (h k v).mp hv
      exact ⟨v, hmem, hk.symm⟩
    · rintro ⟨v, hmem, hk⟩
      exact ⟨v, (h k v).mpr ⟨hmem, hk.symm⟩⟩
  have hlength : m.size = m.keys.length := (List.length_map _).symm
  rw [hlength, ← List.toFinset_card_of_nodup m.keys_nodup, hkeys,
    Finset.card_image_of_injective S hkey]

end Map

end Unordered
