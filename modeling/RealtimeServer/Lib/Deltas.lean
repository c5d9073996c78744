import Mathlib.Algebra.BigOperators.Group.List.Basic
import Mathlib.Algebra.GroupWithZero.Nat

/-!
# A total reported by its increases

A sender reads a total now and then and reports how much it has grown since it read it last. Reports
get lost, so the receiver adds up what arrives.

* `Conserved arrived total delta reports`: what has arrived adds up to the total as it was read for
  the last report that arrived.
* `conserved_lost`, `conserved_arrived`: what one more report does to it.
* `catchesUp_iff`: one increase makes up for everything the receiver does not know exactly when it
  was taken against what the receiver knows.
-/

namespace Deltas

variable {ρ : Type*} {arrived : ρ → Bool} {total delta : ρ → ℕ} {reports : List ρ} {report : ρ}

/-- The total as it was read for the last of the reports. -/
def lastTotal (total : ρ → ℕ) (reports : List ρ) : ℕ := (reports.getLast?.map total).getD 0

/-- What has arrived adds up to the total as it was read for the last report that arrived. -/
def Conserved (arrived : ρ → Bool) (total delta : ρ → ℕ) (reports : List ρ) : Prop :=
  ((reports.filter arrived).map delta).sum = lastTotal total (reports.filter arrived)

instance : Decidable (Conserved arrived total delta reports) := by
  unfold Conserved; infer_instance

@[simp] theorem lastTotal_nil : lastTotal total [] = 0 := rfl

@[simp] theorem lastTotal_snoc : lastTotal total (reports ++ [report]) = total report := by
  simp [lastTotal]

theorem conserved_nil : Conserved arrived total delta [] := rfl

/-- A report that is lost leaves the receiver as it is. -/
theorem conserved_lost (h : arrived report = false) :
    Conserved arrived total delta (reports ++ [report]) ↔
      Conserved arrived total delta reports := by
  unfold Conserved
  rw [List.filter_append, List.filter_singleton, h, cond_false, List.append_nil]

/-- A report that arrives has to bring all that the receiver does not know. -/
theorem conserved_arrived (h : arrived report = true)
    (hbefore : Conserved arrived total delta reports) :
    Conserved arrived total delta (reports ++ [report]) ↔
      lastTotal total (reports.filter arrived) + delta report = total report := by
  unfold Conserved at hbefore ⊢
  rw [List.filter_append, List.filter_singleton, h, cond_true, lastTotal_snoc, List.map_append,
    List.sum_append, hbefore, List.map_singleton, List.sum_singleton]

/-- The increase of a total since it was read last; below that reading, it starts again. -/
def increase (last now : ℕ) : ℕ := if last ≤ now then now - last else now

/-- The receiver knows the total as it was read last; below that reading, it knows of nothing. -/
def CatchesUp (known last now : ℕ) : Prop := last ≤ now ∧ known = last ∨ now < last ∧ known = 0

instance (known last now : ℕ) : Decidable (CatchesUp known last now) := by
  unfold CatchesUp; infer_instance

theorem catchesUp_iff {known last now : ℕ} :
    known + increase last now = now ↔ CatchesUp known last now := by
  unfold increase CatchesUp
  split <;> omega

end Deltas
