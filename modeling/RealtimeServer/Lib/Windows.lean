import Mathlib.Algebra.Order.Ring.Int
import Mathlib.Data.List.Count
import Mathlib.Data.List.Pairwise
import Mathlib.Tactic.Linarith
import Mathlib.Tactic.Ring

/-!
# Times and the windows they fall in

A list of times, and how many of them a window of a fixed length holds.

* `inWindow t w times`: how many of the times are in the window `[t, t + w)`.
* `Within w n times`: every window of length `w` holds at most `n` of them.
* `inWindow_mul`: then `k` windows in a row hold at most `k * n`.
* `countFrom_le`: so many may be at `s` or behind it, up to `t`.
-/

namespace Windows

/-- How many of the times are in the window of length `w` that starts at `t`. -/
def inWindow (t w : ℤ) (times : List ℤ) : ℕ := times.countP fun u => decide (t ≤ u ∧ u < t + w)

/-- Every window of length `w` holds at most `n` of the times. -/
def Within (w n : ℤ) (times : List ℤ) : Prop := ∀ t, (inWindow t w times : ℤ) ≤ n

variable {t w n : ℤ} {times others : List ℤ}

@[simp] theorem inWindow_nil : inWindow t w [] = 0 := rfl

theorem inWindow_cons {u : ℤ} :
    inWindow t w (u :: times) = inWindow t w times + if t ≤ u ∧ u < t + w then 1 else 0 := by
  unfold inWindow
  rw [List.countP_cons]
  simp only [decide_eq_true_eq]

@[simp] theorem inWindow_append :
    inWindow t w (times ++ others) = inWindow t w times + inWindow t w others :=
  List.countP_append

theorem inWindow_replicate {k : ℕ} {u : ℤ} :
    inWindow t w (List.replicate k u) = if t ≤ u ∧ u < t + w then k else 0 := by
  unfold inWindow
  rw [List.countP_replicate]
  simp only [decide_eq_true_eq]

theorem inWindow_all (h : ∀ u ∈ times, t ≤ u ∧ u < t + w) : inWindow t w times = times.length :=
  List.countP_eq_length.mpr fun u hu => decide_eq_true (h u hu)

theorem Within.of_append (h : Within w n (times ++ others)) : Within w n times := by
  intro t
  have := h t
  rw [inWindow_append] at this
  omega

theorem Within.of_append_right (h : Within w n (times ++ others)) : Within w n others := by
  intro t
  have := h t
  rw [inWindow_append] at this
  omega

/-- A window cut in two. -/
theorem inWindow_add {v : ℤ} (hw : 0 ≤ w) (hv : 0 ≤ v) :
    inWindow t (w + v) times = inWindow t w times + inWindow (t + w) v times := by
  induction times with
  | nil => rfl
  | cons u times ih =>
    rw [inWindow_cons, inWindow_cons, inWindow_cons, ih]
    split_ifs <;> omega

/-- `k` windows in a row. -/
theorem inWindow_mul (hw : 0 ≤ w) (h : Within w n times) (k : ℕ) :
    (inWindow t (w * k) times : ℤ) ≤ k * n := by
  induction k generalizing t with
  | zero =>
    have hnone : inWindow t (w * (0 : ℕ)) times = 0 := by
      refine List.countP_eq_zero.mpr fun u _ hin => ?_
      have := of_decide_eq_true hin
      push_cast at this
      omega
    rw [hnone]
    simp
  | succ k ih =>
    have hcut : w * ((k + 1 : ℕ) : ℤ) = w + w * k := by
      push_cast
      ring
    rw [hcut, inWindow_add hw (mul_nonneg hw (by positivity))]
    have hfirst := h t
    have hrest := ih (t := t + w)
    push_cast
    linarith

/-- How many of the times are at `s` or behind it. -/
def countFrom (s : ℤ) (times : List ℤ) : ℕ := times.countP fun u => decide (s ≤ u)

theorem countFrom_append {s : ℤ} :
    countFrom s (times ++ others) = countFrom s times + countFrom s others :=
  List.countP_append

theorem countFrom_snoc {s u : ℤ} (h : s ≤ u) :
    countFrom s (times ++ [u]) = countFrom s times + 1 := by
  rw [countFrom_append]
  simp [countFrom, h]

theorem countFrom_none {s : ℤ} (h : ∀ u ∈ times, u < s) : countFrom s times = 0 :=
  List.countP_eq_zero.mpr fun u hu hin => absurd (h u hu) (not_lt.mpr (of_decide_eq_true hin))

/-- From `s` to `t` the windows begun hold `n` each. -/
theorem countFrom_le {s : ℤ} (hw : 0 < w) (h : Within w n times) (hst : s ≤ t)
    (hend : ∀ u ∈ times, u ≤ t) : (countFrom s times : ℤ) ≤ ((t - s) / w + 1) * n := by
  have hwindows : 0 ≤ (t - s) / w + 1 := by
    have := Int.ediv_nonneg (show 0 ≤ t - s by omega) hw.le
    omega
  have hspan : t < s + w * ((t - s) / w + 1) := by
    have := Int.lt_mul_ediv_self_add (x := t - s) hw
    rw [mul_add, mul_one]
    omega
  have hin : countFrom s times ≤ inWindow s (w * ((t - s) / w + 1).toNat) times := by
    refine List.countP_mono_left fun u hu hfrom => ?_
    have := hend u hu
    rw [Int.toNat_of_nonneg hwindows]
    simp only [decide_eq_true_eq] at hfrom ⊢
    omega
  have hmul := inWindow_mul (t := s) hw.le h ((t - s) / w + 1).toNat
  rw [Int.toNat_of_nonneg hwindows] at hmul hin
  omega

/-- Of times in order, the later one is no smaller. -/
theorem getElem_le {i j : ℕ} (h : times.Pairwise (· ≤ ·)) (hij : i ≤ j) (hj : j < times.length) :
    times[i] ≤ times[j] :=
  h.rel_get_of_le (a := ⟨i, hij.trans_lt hj⟩) (b := ⟨j, hj⟩) hij

end Windows
