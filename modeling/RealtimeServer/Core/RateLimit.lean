import RealtimeServer.Lib.Int32
import RealtimeServer.Lib.Run
import RealtimeServer.Lib.Windows

/-!
# The packet rate limit of a session

Model of `InitRateLimit` and `CheckRateLimit` (`Core/ServerSession.h`), a token bucket whose refill
is an integer division and moves the refill time forward by all of the time that went into it. The
`int` operations wrap (`Int32`): `fetch_sub` by definition, the others are not to overflow
(`RefillFits`).

A run is the list of times at which `CheckRateLimit` is called; `answers` is what it returns.

* `refilled_idle`, `refilled_fills`: the two things a call does before it takes a token.
* **`admitted_window_le`**: between any two calls no more are let through than the burst, the refill
  of the time between them, and one. It asks that no count wraps when a token is taken
  (`Unwrapped`), which it does not where no call is made behind a refused one, as in `HandleRecv`.
  `admitted_wrapped`: without that, a count that has gone down to the least `int` starts again at
  the greatest.
-/

namespace RealtimeServer

open Signed Windows Guarded

/-- The members of `ServerSession` the limit uses. -/
structure RateLimit where
  rateBurst : Int
  rateTokens : Int
  lastRefillMs : Int

/-- `InitRateLimit`, at a time. -/
def initRateLimit (ratePerSec nowMs : Int) : RateLimit :=
  let rateBurst := int32 (ratePerSec * 2)
  { rateBurst := rateBurst, rateTokens := rateBurst, lastRefillMs := nowMs }

namespace RateLimit

/-- The refill of `CheckRateLimit`. -/
def refilled (b : RateLimit) (nowMs : Int) : RateLimit :=
  let elapsed := nowMs - b.lastRefillMs
  if 0 < elapsed ∧ 0 < b.rateBurst then
    let refill := int32 (elapsed * (b.rateBurst / 2) / 1000)
    if 0 < refill then
      { b with
        rateTokens := min b.rateBurst (int32 (b.rateTokens + refill)), lastRefillMs := nowMs }
    else b
  else b

/-- `CheckRateLimit`, at a time: its answer, and the members behind it. -/
def checkRateLimit (b : RateLimit) (nowMs : Int) : Bool × RateLimit :=
  let b := b.refilled nowMs
  (decide (0 < b.rateTokens), { b with rateTokens := int32 (b.rateTokens - 1) })

/-- A call, as a step. -/
def checkNext (b : RateLimit) (nowMs : Int) : Option RateLimit := some (b.checkRateLimit nowMs).2

/-- The answers to calls at these times. -/
def answers : RateLimit → List Int → List Bool
  | _, [] => []
  | b, nowMs :: times => (b.checkRateLimit nowMs).1 :: answers (b.checkRateLimit nowMs).2 times

/-- The refill of a call at this time overflows no `int`. -/
def RefillFits (b : RateLimit) (nowMs : Int) : Prop :=
  let refill := (nowMs - b.lastRefillMs) * (b.rateBurst / 2) / 1000
  Fits refill ∧ Fits (b.rateTokens + refill)

instance (b : RateLimit) (nowMs : Int) : Decidable (b.RefillFits nowMs) := by
  unfold RefillFits; infer_instance

/-- A token can be taken without the count starting again at the other end of the `int`s. -/
def Unwrapped (b : RateLimit) (_ : Int) : Prop := -2 ^ 31 < b.rateTokens

instance (b : RateLimit) (nowMs : Int) : Decidable (b.Unwrapped nowMs) := by
  unfold Unwrapped; infer_instance

section

variable {b b' : RateLimit} {r nowMs : Int} {times : List Int} {answer : Bool}

/-! ## What a call does -/

/-- The limit is set up for `r` packets a second, and the burst is no smaller than the count. -/
structure Rated (r : Int) (b : RateLimit) : Prop where
  pos : 0 < r
  fits : r * 2 < 2 ^ 31
  burst : b.rateBurst = r * 2
  capped : b.rateTokens ≤ r * 2

/-- Too little time for a token has gone by. -/
theorem refilled_idle (hb : b.Rated r) (hfits : b.RefillFits nowMs)
    (h : (nowMs - b.lastRefillMs) * r < 1000) : b.refilled nowMs = b := by
  have hpos := hb.pos
  have hrate : b.rateBurst / 2 = r := by rw [hb.burst]; omega
  unfold RefillFits at hfits
  rw [hrate] at hfits
  unfold refilled
  rw [hrate]
  dsimp only
  rw [int32_of_fits hfits.1]
  split
  · rw [if_neg (by omega)]
  · rfl

/-- Time for a token has gone by. -/
theorem refilled_fills (hb : b.Rated r) (hfits : b.RefillFits nowMs)
    (h : 1000 ≤ (nowMs - b.lastRefillMs) * r) : b.refilled nowMs = { b with
      rateTokens := min (r * 2) (b.rateTokens + (nowMs - b.lastRefillMs) * r / 1000)
      lastRefillMs := nowMs } := by
  have hpos := hb.pos
  have hrate : b.rateBurst / 2 = r := by rw [hb.burst]; omega
  unfold RefillFits at hfits
  rw [hrate] at hfits
  have helapsed : 0 < nowMs - b.lastRefillMs := pos_of_mul_pos_left (by omega) hpos.le
  have hburst : 0 < b.rateBurst := by rw [hb.burst]; omega
  have hrefill : 0 < (nowMs - b.lastRefillMs) * r / 1000 := by omega
  unfold refilled
  rw [hrate]
  dsimp only
  rw [int32_of_fits hfits.1, int32_of_fits hfits.2, if_pos ⟨helapsed, hburst⟩, if_pos hrefill,
    hb.burst]

/-- What a call does: where a token has become due, the refill forgets what is left of the time. -/
inductive Checks (r : Int) (b : RateLimit) (nowMs : Int) : Bool × RateLimit → Prop
  | idle (early : (nowMs - b.lastRefillMs) * r < 1000) :
      Checks r b nowMs (decide (0 < b.rateTokens), { b with rateTokens := b.rateTokens - 1 })
  | fills (tokens : Int) (due : 1000 ≤ (nowMs - b.lastRefillMs) * r)
      (filled : tokens = min (r * 2) (b.rateTokens + (nowMs - b.lastRefillMs) * r / 1000)) :
      Checks r b nowMs (decide (0 < tokens),
        { b with rateTokens := tokens - 1, lastRefillMs := nowMs })

theorem checks (hb : b.Rated r) (hfits : b.RefillFits nowMs) (hwrap : b.Unwrapped nowMs) :
    Checks r b nowMs (b.checkRateLimit nowMs) := by
  have hpos := hb.pos
  have hint := hb.fits
  have hcapped := hb.capped
  unfold Unwrapped at hwrap
  unfold checkRateLimit
  by_cases h : (nowMs - b.lastRefillMs) * r < 1000
  · rw [refilled_idle hb hfits h]
    dsimp only
    rw [int32_of_fits ⟨by omega, by omega⟩]
    exact .idle h
  · have hdue := not_lt.mp h
    rw [refilled_fills hb hfits hdue]
    dsimp only
    rw [int32_of_fits ⟨by omega, by omega⟩]
    exact .fills _ hdue rfl

/-- A call leaves the limit set up. -/
theorem Rated.check (hb : b.Rated r) (h : Checks r b nowMs (answer, b')) : b'.Rated r := by
  cases h with
  | idle early => exact ⟨hb.pos, hb.fits, hb.burst, by have := hb.capped; dsimp only; omega⟩
  | fills tokens due filled => exact ⟨hb.pos, hb.fits, hb.burst, by dsimp only; omega⟩

theorem rated_init (hr : 1 ≤ r) (hint : r * 2 < 2 ^ 31) : (initRateLimit r nowMs).Rated r := by
  have hburst : int32 (r * 2) = r * 2 := int32_of_fits ⟨by omega, hint⟩
  exact ⟨by omega, hint, hburst, hburst.le⟩

theorem answers_cons (h : b.checkRateLimit nowMs = (answer, b')) :
    b.answers (nowMs :: times) = answer :: b'.answers times := by
  show (b.checkRateLimit nowMs).1 :: (b.checkRateLimit nowMs).2.answers times = _
  rw [h]

theorem checkNext_eq (h : b.checkRateLimit nowMs = (answer, b')) :
    b.checkNext nowMs = some b' := by
  unfold checkNext
  rw [h]

/-! ## How many are let through -/

/-- The times are those of the run, in order, none before the last refill. -/
def Ordered (b : RateLimit) (times : List Int) : Prop :=
  (b.lastRefillMs :: times).Pairwise (· ≤ ·)

theorem Ordered.check (hb : b.Ordered (nowMs :: times)) (h : Checks r b nowMs (answer, b')) :
    b'.Ordered times := by
  obtain ⟨hlast, hrest⟩ := List.pairwise_cons.mp hb
  cases h with
  | idle early =>
    exact List.pairwise_cons.mpr ⟨fun t ht => hlast t (List.mem_cons_of_mem _ ht),
      (List.pairwise_cons.mp hrest).2⟩
  | fills tokens due filled => exact hrest

/-- No more are let through than there are tokens and become due by the end. -/
theorem granted_le {endMs : Int} (hb : b.Rated r) (hordered : b.Ordered times)
    (hend : ∀ t ∈ times, t ≤ endMs) (hlast : b.lastRefillMs ≤ endMs)
    (hfits : Along checkNext RefillFits b times) (hwrap : Along checkNext Unwrapped b times) :
    ((b.answers times).count true : Int) ≤
      max b.rateTokens 0 + (endMs - b.lastRefillMs) * r / 1000 := by
  induction times generalizing b with
  | nil =>
    have hpos := hb.pos
    have : 0 ≤ (endMs - b.lastRefillMs) * r := mul_nonneg (by omega) hpos.le
    simp only [answers, List.count_nil]
    omega
  | cons nowMs times ih =>
    have hchecks := checks hb hfits.1 hwrap.1
    obtain ⟨answer, b', hcheck⟩ : ∃ answer b', b.checkRateLimit nowMs = (answer, b') := ⟨_, _, rfl⟩
    rw [hcheck] at hchecks
    have hnext := checkNext_eq hcheck
    rw [answers_cons hcheck, List.count_cons]
    have hrest := ih (hb.check hchecks) (hordered.check hchecks)
      (fun t ht => hend t (List.mem_cons_of_mem _ ht))
    have hnow := hend nowMs List.mem_cons_self
    cases hchecks with
    | idle early =>
      have hle := hrest hlast (hfits.2 _ hnext) (hwrap.2 _ hnext)
      dsimp only at hle
      by_cases hsome : 0 < b.rateTokens
      · simp only [hsome, decide_true, beq_self_eq_true, if_true]
        push_cast
        omega
      · simp only [hsome, decide_false, Bool.false_beq, Bool.not_true, Bool.false_eq_true, if_false]
        omega
    | fills tokens due filled =>
      have hle := hrest hnow (hfits.2 _ hnext) (hwrap.2 _ hnext)
      have hcut : (endMs - b.lastRefillMs) * r =
        (nowMs - b.lastRefillMs) * r + (endMs - nowMs) * r := by ring
      dsimp only at hle
      by_cases hsome : 0 < tokens
      · simp only [hsome, decide_true, beq_self_eq_true, if_true]
        push_cast
        omega
      · simp only [hsome, decide_false, Bool.false_beq, Bool.not_true, Bool.false_eq_true, if_false]
        omega

/-- From the first call on, the time before it counts for one token at most. -/
theorem admitted_from_le {endMs : Int} (hb : b.Rated r) (hordered : b.Ordered (nowMs :: times))
    (hend : ∀ t ∈ times, t ≤ endMs) (hnow : nowMs ≤ endMs)
    (hfits : Along checkNext RefillFits b (nowMs :: times))
    (hwrap : Along checkNext Unwrapped b (nowMs :: times)) :
    ((b.answers (nowMs :: times)).count true : Int) ≤
      r * 2 + r * (endMs - nowMs) / 1000 + 1 := by
  have hpos := hb.pos
  have hcapped := hb.capped
  have hcut : (endMs - b.lastRefillMs) * r =
    (nowMs - b.lastRefillMs) * r + r * (endMs - nowMs) := by ring
  have hspan : 0 ≤ r * (endMs - nowMs) := mul_nonneg hb.pos.le (by omega)
  have hlast : b.lastRefillMs ≤ nowMs :=
    (List.pairwise_cons.mp hordered).1 nowMs List.mem_cons_self
  by_cases hearly : (nowMs - b.lastRefillMs) * r < 1000
  · have hle := granted_le hb hordered
      (fun t ht => (List.mem_cons.mp ht).elim (fun h => h ▸ hnow) (hend t)) (hlast.trans hnow)
      hfits hwrap
    omega
  · obtain ⟨answer, b', hcheck⟩ : ∃ answer b', b.checkRateLimit nowMs = (answer, b') := ⟨_, _, rfl⟩
    have hchecks := hcheck ▸ checks hb hfits.1 hwrap.1
    have hnext := checkNext_eq hcheck
    cases hchecks with
    | idle early => exact absurd early hearly
    | fills tokens due filled =>
      have hle := granted_le (hb.check (.fills tokens due filled)) (hordered.check
        (.fills tokens due filled)) hend hnow (hfits.2 _ hnext) (hwrap.2 _ hnext)
      dsimp only at hle
      have hcomm : (endMs - nowMs) * r = r * (endMs - nowMs) := Int.mul_comm _ _
      rw [answers_cons hcheck, List.count_cons]
      push_cast
      split_ifs with hanswer
      · have : 0 < tokens := by simpa using hanswer
        omega
      · omega

theorem exists_run (b : RateLimit) (times : List Int) :
    ∃ b', run checkNext b times = some b' := by
  induction times generalizing b with
  | nil => exact ⟨b, rfl⟩
  | cons nowMs times ih => exact ih (b.checkRateLimit nowMs).2

theorem answers_take (b : RateLimit) (times : List Int) (n : ℕ) :
    (b.answers times).take n = b.answers (times.take n) := by
  induction times generalizing b n with
  | nil => simp [answers]
  | cons nowMs times ih =>
    cases n with
    | zero => rfl
    | succ n => exact congrArg ((b.checkRateLimit nowMs).1 :: ·) (ih (b.checkRateLimit nowMs).2 n)

theorem answers_drop {n : ℕ} (h : run checkNext b (times.take n) = some b') :
    (b.answers times).drop n = b'.answers (times.drop n) := by
  induction times generalizing b n with
  | nil => simp [answers]
  | cons nowMs times ih =>
    cases n with
    | zero =>
      obtain rfl := Option.some.inj h
      rfl
    | succ n => exact ih (b := (b.checkRateLimit nowMs).2) h

/-- The limit is set up, and the calls come in order, all through a run. -/
theorem rated_run {others : List Int} (hb : b.Rated r) (hordered : b.Ordered (times ++ others))
    (hfits : Along checkNext RefillFits b times) (hwrap : Along checkNext Unwrapped b times)
    (hrun : run checkNext b times = some b') : b'.Rated r ∧ b'.Ordered others := by
  induction times generalizing b with
  | nil =>
    obtain rfl := Option.some.inj hrun
    exact ⟨hb, hordered⟩
  | cons nowMs times ih =>
    obtain ⟨answer, b₁, hcheck⟩ : ∃ answer b', b.checkRateLimit nowMs = (answer, b') := ⟨_, _, rfl⟩
    have hchecks := hcheck ▸ checks hb hfits.1 hwrap.1
    have hnext := checkNext_eq hcheck
    rw [run, hnext] at hrun
    exact ih (hb.check hchecks) (hordered.check hchecks) (hfits.2 _ hnext) (hwrap.2 _ hnext) hrun

/-- Where no call is made behind a refused one, no count wraps. -/
theorem unwrapped_of_admitted (hb : b.Rated r) (hsome : 0 ≤ b.rateTokens)
    (hfits : Along checkNext RefillFits b times)
    (hall : ∀ a ∈ (b.answers times).dropLast, a = true) : Along checkNext Unwrapped b times := by
  induction times generalizing b with
  | nil => trivial
  | cons nowMs times ih =>
    have hwrap : b.Unwrapped nowMs := by unfold Unwrapped; omega
    refine ⟨hwrap, fun b₁ hnext => ?_⟩
    cases times with
    | nil => trivial
    | cons nextMs times =>
      obtain ⟨answer, b', hcheck⟩ : ∃ answer b', b.checkRateLimit nowMs = (answer, b') :=
        ⟨_, _, rfl⟩
      obtain rfl := Option.some.inj (hnext.symm.trans (checkNext_eq hcheck))
      have hchecks := hcheck ▸ checks hb hfits.1 hwrap
      rw [answers_cons hcheck] at hall
      have hadmitted : answer = true := hall answer (by simp [answers])
      refine ih (hb.check hchecks) ?_ (hfits.2 _ hnext) fun a ha => hall a ?_
      · cases hchecks with
        | idle early =>
          have := of_decide_eq_true hadmitted
          dsimp only
          omega
        | fills tokens due filled =>
          have := of_decide_eq_true hadmitted
          dsimp only
          omega
      · simp only [answers, List.dropLast_cons_cons]
        exact List.mem_cons_of_mem _ ha

/-- **What any stretch of calls lets through**: from the `i`-th call to the `j`-th, no more than the
burst, the refill of the time between them, and one, where no count wraps when a token is taken; and
none does where no call is made behind a refused one. -/
theorem admitted_window_le {startMs : Int} (hr : 1 ≤ r) (hint : r * 2 < 2 ^ 31)
    (hordered : (startMs :: times).Pairwise (· ≤ ·))
    (hfits : Along checkNext RefillFits (initRateLimit r startMs) times) :
    (Along checkNext Unwrapped (initRateLimit r startMs) times →
      ∀ i j (hij : i ≤ j) (hj : j < times.length),
        (((((initRateLimit r startMs).answers times).drop i).take (j + 1 - i)).count true : Int) ≤
          2 * r + r * (times[j] - times[i]) / 1000 + 1) ∧
      ((∀ a ∈ ((initRateLimit r startMs).answers times).dropLast, a = true) →
        Along checkNext Unwrapped (initRateLimit r startMs) times) := by
  have hb : (initRateLimit r startMs).Rated r := rated_init hr hint
  have hburst : int32 (r * 2) = r * 2 := int32_of_fits ⟨by omega, hint⟩
  refine ⟨fun hwrap i j hij hj => ?_, unwrapped_of_admitted hb ?_ hfits⟩
  · obtain ⟨b₁, hrun⟩ := exists_run (initRateLimit r startMs) (times.take i)
    have hcut : times = times.take i ++ times.drop i := (List.take_append_drop i times).symm
    have hdrop : times.drop i = times[i] :: times.drop (i + 1) :=
      List.drop_eq_getElem_cons (by omega)
    have hsize : j + 1 - i = (j - i) + 1 := by omega
    have hstretch : ∀ t ∈ (times.drop (i + 1)).take (j - i), t ≤ times[j] := by
      intro t ht
      obtain ⟨k, hk, rfl⟩ := List.mem_take_iff_getElem.mp ht
      rw [List.getElem_drop]
      exact getElem_le hordered.of_cons (by omega) hj
    have hends : times[i] ≤ times[j] := getElem_le hordered.of_cons hij hj
    rw [hcut] at hfits hwrap hordered
    obtain ⟨hfits₁, hfits₂⟩ := along_append.mp hfits
    obtain ⟨hwrap₁, hwrap₂⟩ := along_append.mp hwrap
    obtain ⟨hb₁, hordered₁⟩ := rated_run hb hordered hfits₁ hwrap₁ hrun
    have hfits₃ := hfits₂ b₁ hrun
    have hwrap₃ := hwrap₂ b₁ hrun
    rw [answers_drop hrun, answers_take, hdrop, hsize, List.take_succ_cons]
    rw [hdrop, ← List.take_append_drop (j - i) (times.drop (i + 1)), ← List.cons_append]
      at hfits₃ hwrap₃ hordered₁
    have hle := admitted_from_le hb₁ (List.Pairwise.sublist
      ((List.sublist_append_left _ _).cons_cons b₁.lastRefillMs) hordered₁) hstretch hends
      (along_append.mp hfits₃).1 (along_append.mp hwrap₃).1
    omega
  · show 0 ≤ int32 (r * 2)
    omega

/-- Three calls at once at two packets a second, and two a second later. -/
theorem admitted_window_burst :
    let b := initRateLimit 2 0
    let times := [0, 0, 0, 1000, 1000]
    b.answers times = [true, true, true, true, true] ∧
      ((((b.answers times).drop 1).take (4 + 1 - 1)).count true : Int) ≤
        2 * 2 + 2 * (1000 - 0) / 1000 + 1 :=
  ⟨by decide, (@admitted_window_le 2 [0, 0, 0, 1000, 1000] 0 (by decide) (by decide) (by decide)
    (by decide)).1 (by decide) 1 4 (by decide) (by decide)⟩

/-- Calls at the time of the last refill take a token each, while the count does not wrap. -/
theorem run_replicate {n : ℕ} (hfits : Fits b.rateTokens) (hleast : -2 ^ 31 ≤ b.rateTokens - n) :
    run checkNext b (List.replicate n b.lastRefillMs) =
      some { b with rateTokens := b.rateTokens - n } := by
  induction n generalizing b with
  | zero => simp [run]
  | succ n ih =>
    push_cast at hleast
    have hmost := hfits.2
    have hstay : b.refilled b.lastRefillMs = b := by simp [refilled]
    have hcheck : b.checkNext b.lastRefillMs = some { b with rateTokens := b.rateTokens - 1 } := by
      unfold checkNext checkRateLimit
      rw [hstay]
      dsimp only
      rw [int32_of_fits ⟨by omega, by omega⟩]
    have hrest := ih (b := { b with rateTokens := b.rateTokens - 1 })
      ⟨by dsimp only; omega, by dsimp only; omega⟩ (by dsimp only; omega)
    rw [List.replicate_succ, run, hcheck]
    refine hrest.trans ?_
    have hcount : b.rateTokens - 1 - (n : Int) = b.rateTokens - ((n + 1 : ℕ) : Int) := by
      push_cast
      ring
    rw [hcount]

/-- The call that finds the least `int` leaves the greatest. -/
theorem answers_wrapped {n k : ℕ} (hfits : Fits b.rateTokens)
    (hleast : b.rateTokens - n = -2 ^ 31) :
    (b.answers (List.replicate (n + 1 + k) b.lastRefillMs)).drop (n + 1) =
      { b with rateTokens := 2 ^ 31 - 1 }.answers (List.replicate k b.lastRefillMs) := by
  have hlast : ({ b with rateTokens := -2 ^ 31 } : RateLimit).checkNext b.lastRefillMs =
      some { b with rateTokens := 2 ^ 31 - 1 } := by
    unfold checkNext checkRateLimit refilled
    simp only [sub_self, lt_self_iff_false, false_and, if_false]
    rfl
  have hrun : run checkNext b ((List.replicate (n + 1 + k) b.lastRefillMs).take (n + 1)) =
      some { b with rateTokens := 2 ^ 31 - 1 } := by
    rw [List.take_replicate, min_eq_left (by omega), List.replicate_succ']
    refine run_snoc (run_replicate hfits hleast.ge) ?_
    rw [hleast]
    exact hlast
  rw [answers_drop hrun, List.drop_replicate, Nat.add_sub_cancel_left]

/-- No refill is made at the time of the last one, and none overflows. -/
theorem refillFits_replicate (hfits : Fits b.rateTokens) (n : ℕ) :
    Along checkNext RefillFits b (List.replicate n b.lastRefillMs) := by
  induction n generalizing b with
  | zero => trivial
  | succ n ih =>
    refine ⟨?_, fun b' hnext => ?_⟩
    · unfold RefillFits
      simp only [sub_self, zero_mul, Int.zero_ediv, add_zero]
      exact ⟨by decide, hfits⟩
    · obtain rfl := Option.some.inj hnext
      have hstay : b.refilled b.lastRefillMs = b := by simp [refilled]
      have hlast : (b.checkRateLimit b.lastRefillMs).2.lastRefillMs = b.lastRefillMs := by
        unfold checkRateLimit
        rw [hstay]
      have hrest := ih (b := (b.checkRateLimit b.lastRefillMs).2) (fits_int32 _)
      rwa [hlast] at hrest

/-- **The count starts again at the other end**: at one packet a second, of calls made all at once
the two of the burst are let through, the next `2 ^ 31 + 1` are refused, and those behind them are
let through again. -/
theorem admitted_wrapped :
    let b := initRateLimit 1 0
    let times := List.replicate (2 ^ 31 + 7) 0
    (0 :: times).Pairwise (· ≤ ·) ∧ Along checkNext RefillFits b times ∧
      ¬ ((((b.answers times).drop (2 ^ 31 + 3)).take (2 ^ 31 + 6 + 1 - (2 ^ 31 + 3))).count true :
        Int) ≤ 2 * 1 + 1 * (0 - 0) / 1000 + 1 := by
  intro b times
  refine ⟨?_, refillFits_replicate (b := initRateLimit 1 0) (by decide) _, ?_⟩
  · refine List.pairwise_cons.mpr ⟨fun t ht => (List.eq_of_mem_replicate ht).ge, ?_⟩
    exact List.pairwise_replicate_of_refl
  · have hdrop : (b.answers times).drop (2 ^ 31 + 3) =
        { b with rateTokens := 2 ^ 31 - 1 }.answers (List.replicate 4 b.lastRefillMs) :=
      answers_wrapped (b := initRateLimit 1 0) (n := 2 ^ 31 + 2) (k := 4) (by decide) (by decide)
    rw [hdrop]
    decide

end

end RateLimit

end RealtimeServer
