import Mathlib.Algebra.BigOperators.Group.Finset.Piecewise
import Mathlib.Tactic.Abel

/-!
# A counter that many parties move

Parties `0` to `n - 1` each add to one counter and take from it, in stages of their own. The counter
is the sum of what each party has contributed so far, its share.

* `total n share`: the counter.
* `total_join`: a party joins. `total_change`: one party's share changes.
* `total_of_counted`: when every share is a unit or nothing, the counter counts.
* `countP_set_add`, `sum_map_set_add`: parties in a list, of which one changes.
-/

namespace Tally

variable {M : Type*} [AddCommGroup M] {n i : ℕ} {share share' : ℕ → M}

/-- What the first `n` parties contribute. -/
def total (n : ℕ) (share : ℕ → M) : M := ∑ i ∈ Finset.range n, share i

@[simp] theorem total_zero (share : ℕ → M) : total 0 share = 0 := Finset.sum_range_zero share

theorem total_congr (h : ∀ i < n, share' i = share i) : total n share' = total n share :=
  Finset.sum_congr rfl fun i hi => h i (Finset.mem_range.mp hi)

theorem total_join (h : ∀ i < n, share' i = share i) :
    total (n + 1) share' = total n share + share' n := by
  unfold total
  rw [Finset.sum_range_succ]
  exact congrArg (· + share' n) (total_congr h)

theorem total_change (hi : i < n) (h : ∀ j, j ≠ i → share' j = share j) :
    total n share' = total n share + (share' i - share i) := by
  unfold total
  have hmem : i ∈ Finset.range n := Finset.mem_range.mpr hi
  have hothers : ∑ j ∈ (Finset.range n).erase i, share' j =
      ∑ j ∈ (Finset.range n).erase i, share j :=
    Finset.sum_congr rfl fun j hj => h j (Finset.ne_of_mem_erase hj)
  rw [← Finset.add_sum_erase _ share' hmem, ← Finset.add_sum_erase _ share hmem, hothers]
  abel

/-- Parties that count for one unit each, or for nothing. -/
theorem total_of_counted (unit : ℕ →+ M) (p : ℕ → Prop) [DecidablePred p]
    (h : ∀ i < n, share i = if p i then unit 1 else 0) :
    total n share = unit ((Finset.range n).filter p).card := by
  rw [total_congr h, Finset.card_filter, map_sum]
  refine Finset.sum_congr rfl fun i _ => ?_
  by_cases hi : p i
  · simp only [if_pos hi]
  · simp only [if_neg hi, map_zero]

theorem toNat_eq_ite (b : Bool) : b.toNat = if b = true then 1 else 0 := by
  cases b <;> rfl

/-- One party of a list changes. -/
theorem countP_set_add {α : Type*} {l : List α} {k : ℕ} {old : α} (p : α → Bool)
    (hold : l[k]? = some old) (new : α) :
    (l.set k new).countP p + (p old).toNat = l.countP p + (p new).toNat := by
  obtain ⟨hk, hget⟩ := List.getElem?_eq_some_iff.mp hold
  have hpos : p old = true → 0 < l.countP p := fun hp =>
    List.countP_pos_iff.mpr ⟨old, List.mem_of_getElem? hold, hp⟩
  rw [List.countP_set hk, hget]
  cases hnew : p new <;> cases hp : p old <;> simp
  · have := hpos hp
    omega
  · have := hpos hp
    omega

/-- One party of a list changes what it contributes. -/
theorem sum_map_set_add {α : Type*} {l : List α} {k : ℕ} {old : α} (f : α → ℕ)
    (hold : l[k]? = some old) (new : α) :
    ((l.set k new).map f).sum + f old = (l.map f).sum + f new := by
  induction l generalizing k with
  | nil => exact absurd hold (by simp)
  | cons x l ih =>
    cases k with
    | zero =>
      obtain rfl := Option.some.inj hold
      simp only [List.set_cons_zero, List.map_cons, List.sum_cons]
      omega
    | succ k =>
      have hrest := ih (k := k) hold
      simp only [List.set_cons_succ, List.map_cons, List.sum_cons]
      omega

end Tally
