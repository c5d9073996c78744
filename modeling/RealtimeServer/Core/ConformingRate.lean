import RealtimeServer.Core.HandleRecv
import RealtimeServer.Core.RateLimit

/-!
# Clients that keep to the packet rate

A client conforms to a rate when no second holds more of its packets than the rate. `CheckRateLimit`
is to let such a client's packets through, whatever their number. But a refill is the whole tokens
of the time since the last one, and the next refill counts from this one: the part of a token that
was due as well is forgotten.

* `admitted_of_invariant`: the induction on the calls.
* `exact_admitted`: at a multiple of 1000 a millisecond is a number of tokens, and nothing is
  forgotten. `slow_admitted`: at 1 or 2 a refill always brings back all that was taken.
* `refused_of_lossy`: at any other rate the packets `lossy` conform, and each of their seconds costs
  a token.
* **`conforming_admitted_iff`**: the rates at which a conforming client is never refused.
-/

namespace RealtimeServer

open Signed Windows Guarded

namespace RateLimit

section

variable {b b' : RateLimit} {r nowMs : Int} {times done : List Int} {answer : Bool}

/-! ## Rates that forget nothing -/

/-- Every call is let through where a call is, and keeps what it takes for the next one to be. -/
theorem admitted_of_invariant {I : List Int → RateLimit → Prop}
    (hstep : ∀ done b nowMs answer b', I done b → b.Rated r → b.lastRefillMs ≤ nowMs →
      (∀ u ∈ done, u ≤ nowMs) → Within 1000 r (done ++ [nowMs]) →
      Checks r b nowMs (answer, b') → answer = true ∧ I (done ++ [nowMs]) b')
    (hwrap : ∀ done b nowMs, I done b → b.Rated r → Within 1000 r done → b.Unwrapped nowMs)
    (hI : I done b) (hb : b.Rated r) (hordered : b.Ordered times)
    (hdone : ∀ u ∈ done, ∀ t ∈ times, u ≤ t) (hwithin : Within 1000 r (done ++ times))
    (hfits : Along checkNext RefillFits b times) : ∀ a ∈ b.answers times, a = true := by
  induction times generalizing b done with
  | nil => simp [answers]
  | cons nowMs times ih =>
    obtain ⟨answer, b', hcheck⟩ : ∃ answer b', b.checkRateLimit nowMs = (answer, b') := ⟨_, _, rfl⟩
    have hchecks := hcheck ▸ checks hb hfits.1 (hwrap done b nowMs hI hb hwithin.of_append)
    have hlater := (List.pairwise_cons.mp hordered).2
    have hsnoc : done ++ nowMs :: times = done ++ [nowMs] ++ times := by simp
    rw [hsnoc] at hwithin
    obtain ⟨hanswer, hI'⟩ := hstep done b nowMs answer b' hI hb
      ((List.pairwise_cons.mp hordered).1 nowMs List.mem_cons_self)
      (fun u hu => hdone u hu nowMs List.mem_cons_self) hwithin.of_append hchecks
    rw [answers_cons hcheck]
    intro a ha
    rcases List.mem_cons.mp ha with rfl | ha
    · exact hanswer
    · refine ih hI' (hb.check hchecks) (hordered.check hchecks) ?_ hwithin
        (hfits.2 b' (checkNext_eq hcheck)) a ha
      intro u hu t ht
      rcases List.mem_append.mp hu with hu | hu
      · exact hdone u hu t (List.mem_cons_of_mem _ ht)
      · rw [List.mem_singleton.mp hu]
        exact (List.pairwise_cons.mp hlater).1 t ht

theorem forall_snoc {P : Int → Prop} (hdone : ∀ u ∈ done, P u) (hnow : P nowMs) :
    ∀ u ∈ done ++ [nowMs], P u := by
  intro u hu
  rcases List.mem_append.mp hu with hu | hu
  · exact hdone u hu
  · exact List.mem_singleton.mp hu ▸ hnow

/-- Since `full`, when the bucket was full, `k` tokens came in each millisecond. -/
def Exact (r k : Int) (done : List Int) (b : RateLimit) : Prop :=
  ∃ full ≤ b.lastRefillMs, (∀ u ∈ done, u ≤ b.lastRefillMs) ∧
    b.rateTokens = r * 2 + k * (b.lastRefillMs - full) - countFrom full done

/-- What came in and what is allowed to be taken. -/
theorem exact_windows {k full : Int} (hr : r = 1000 * k) (hk : 0 ≤ k) (hfull : full ≤ nowMs)
    (hend : ∀ u ∈ done, u ≤ nowMs) (hwithin : Within 1000 r done) :
    (countFrom full done : Int) ≤ k * (nowMs - full) + r := by
  have hle := countFrom_le (by decide) hwithin hfull hend
  have hdiv : (nowMs - full) / 1000 * 1000 ≤ nowMs - full := Int.ediv_mul_le _ (by decide)
  have hmul : k * ((nowMs - full) / 1000 * 1000) ≤ k * (nowMs - full) :=
    mul_le_mul_of_nonneg_left hdiv hk
  have hrate : ((nowMs - full) / 1000 + 1) * r = k * ((nowMs - full) / 1000 * 1000) + r := by
    rw [hr]
    ring
  omega

/-- A call is let through, and leaves the count exact. -/
theorem exact_check {k : Int} (hr : r = 1000 * k) (hpos : 1 ≤ r) (hexact : Exact r k done b)
    (hlast : b.lastRefillMs ≤ nowMs) (hend : ∀ u ∈ done, u ≤ nowMs)
    (hwithin : Within 1000 r (done ++ [nowMs])) (hchecks : Checks r b nowMs (answer, b')) :
    answer = true ∧ Exact r k (done ++ [nowMs]) b' := by
  obtain ⟨full, hfull, hdone, htokens⟩ := hexact
  have hends : ∀ u ∈ done ++ [nowMs], u ≤ nowMs := forall_snoc hend (le_refl _)
  have hle := exact_windows hr (by omega) (hfull.trans hlast) hends hwithin
  rw [countFrom_snoc (hfull.trans hlast)] at hle
  push_cast at hle
  have hdue : (nowMs - b.lastRefillMs) * r = k * (nowMs - b.lastRefillMs) * 1000 := by
    rw [hr]
    ring
  have hspan : k * (nowMs - full) =
      k * (b.lastRefillMs - full) + k * (nowMs - b.lastRefillMs) := by ring
  cases hchecks with
  | idle early =>
    -- a millisecond would have been enough for a token
    have hnow : nowMs = b.lastRefillMs := by
      by_contra hne
      have : r ≤ (nowMs - b.lastRefillMs) * r := le_mul_of_one_le_left (by omega) (by omega)
      omega
    subst hnow
    refine ⟨decide_eq_true (by omega), full, hfull, hends, ?_⟩
    rw [countFrom_snoc hfull]
    push_cast
    omega
  | fills tokens due filled =>
    rw [hdue, Int.mul_ediv_cancel _ (by decide)] at filled
    refine ⟨decide_eq_true (by omega), ?_⟩
    by_cases hcap : r * 2 ≤ b.rateTokens + k * (nowMs - b.lastRefillMs)
    · refine ⟨nowMs, le_refl _, hends, ?_⟩
      have hpast : b.lastRefillMs < nowMs := by
        by_contra hle
        have : nowMs = b.lastRefillMs := by omega
        rw [this] at due
        simp at due
      rw [countFrom_snoc (le_refl _), countFrom_none fun u hu => (hdone u hu).trans_lt hpast]
      dsimp only
      push_cast
      simp only [sub_self, mul_zero]
      omega
    · refine ⟨full, hfull.trans hlast, hends, ?_⟩
      rw [countFrom_snoc (hfull.trans hlast)]
      push_cast
      omega

theorem exact_admitted {k startMs : Int} (hr : r = 1000 * k) (hpos : 1 ≤ r) (hint : r * 2 < 2 ^ 31)
    (hordered : (startMs :: times).Pairwise (· ≤ ·)) (hwithin : Within 1000 r times)
    (hfits : Along checkNext RefillFits (initRateLimit r startMs) times) :
    ∀ a ∈ (initRateLimit r startMs).answers times, a = true := by
  have hburst : int32 (r * 2) = r * 2 := int32_of_fits ⟨by omega, hint⟩
  refine @admitted_of_invariant _ _ _ [] (Exact r k) ?_ ?_ ?_ (rated_init hpos hint)
    hordered (by simp) hwithin hfits
  · intro done b nowMs answer b' hexact hb hlast hend hwithin hchecks
    exact exact_check hr hpos hexact hlast hend hwithin hchecks
  · rintro done b nowMs ⟨full, hfull, hdone, htokens⟩ hb hwithin
    have hle := exact_windows hr (by omega) hfull hdone hwithin
    unfold Unwrapped
    omega
  · refine ⟨startMs, le_refl _, by simp, ?_⟩
    show int32 (r * 2) = r * 2 + k * (startMs - startMs) - (0 : ℕ)
    rw [hburst]
    simp

/-! ## Rates at which a refill brings back what was taken -/

/-- The calls since the last refill, none of them late enough for another, took what is missing. -/
def Recent (r : Int) (done : List Int) (b : RateLimit) : Prop :=
  ∃ old recent, done = old ++ recent ∧
    (∀ u ∈ recent, b.lastRefillMs ≤ u ∧ (u - b.lastRefillMs) * r < 1000) ∧
    b.rateTokens = r * 2 - recent.length

/-- They are all in the second behind the refill. -/
theorem recent_in_second (hr : 1 ≤ r) {recent : List Int}
    (h : ∀ u ∈ recent, b.lastRefillMs ≤ u ∧ (u - b.lastRefillMs) * r < 1000) :
    ∀ u ∈ recent, b.lastRefillMs ≤ u ∧ u < b.lastRefillMs + 1000 := by
  intro u hu
  obtain ⟨hfrom, hearly⟩ := h u hu
  have : u - b.lastRefillMs ≤ (u - b.lastRefillMs) * r := le_mul_of_one_le_right (by omega) hr
  exact ⟨hfrom, by omega⟩

/-- So they are no more than the rate. -/
theorem recent_le (hr : 1 ≤ r) {recent : List Int} (hwithin : Within 1000 r recent)
    (h : ∀ u ∈ recent, b.lastRefillMs ≤ u ∧ (u - b.lastRefillMs) * r < 1000) :
    (recent.length : Int) ≤ r := by
  have := hwithin b.lastRefillMs
  rwa [inWindow_all (recent_in_second hr h)] at this

/-- A call is let through: a refill brings back what the calls since the last one took. -/
theorem recent_check (hpos : 1 ≤ r) (hslow : r ≤ 2) (hstate : Recent r done b)
    (hlast : b.lastRefillMs ≤ nowMs) (hwithin : Within 1000 r (done ++ [nowMs]))
    (hchecks : Checks r b nowMs (answer, b')) : answer = true ∧ Recent r (done ++ [nowMs]) b' := by
  obtain ⟨old, recent, rfl, hrecent, htokens⟩ := hstate
  rw [List.append_assoc] at hwithin
  have htogether := hwithin.of_append_right
  have hwindow := recent_in_second hpos hrecent
  have hfew := recent_le hpos htogether.of_append hrecent
  -- with a call in the same second as them, there is one less of them
  have hfewer (hsoon : nowMs < b.lastRefillMs + 1000) : (recent.length : Int) + 1 ≤ r := by
    have := htogether b.lastRefillMs
    rw [inWindow_all (forall_snoc hwindow ⟨hlast, hsoon⟩)] at this
    simpa using this
  cases hchecks with
  | idle early =>
    have : nowMs - b.lastRefillMs ≤ (nowMs - b.lastRefillMs) * r :=
      le_mul_of_one_le_right (by omega) hpos
    have := hfewer (by omega)
    refine ⟨decide_eq_true (by omega), old, recent ++ [nowMs], by simp,
      forall_snoc hrecent ⟨hlast, early⟩, ?_⟩
    rw [List.length_append, List.length_singleton]
    push_cast
    omega
  | fills tokens due filled =>
    have hback : (recent.length : Int) ≤ (nowMs - b.lastRefillMs) * r / 1000 := by
      by_cases hsoon : nowMs < b.lastRefillMs + 1000
      · have := hfewer hsoon
        omega
      · have : 1000 * r ≤ (nowMs - b.lastRefillMs) * r :=
          mul_le_mul_of_nonneg_right (by omega) (by omega)
        omega
    refine ⟨decide_eq_true (by omega), old ++ recent, [nowMs], rfl, ?_, ?_⟩
    · intro u hu
      rw [List.mem_singleton.mp hu]
      simp
    · rw [List.length_singleton]
      push_cast
      omega

theorem slow_admitted {startMs : Int} (hpos : 1 ≤ r) (hslow : r ≤ 2)
    (hordered : (startMs :: times).Pairwise (· ≤ ·)) (hwithin : Within 1000 r times)
    (hfits : Along checkNext RefillFits (initRateLimit r startMs) times) :
    ∀ a ∈ (initRateLimit r startMs).answers times, a = true := by
  have hint : r * 2 < 2 ^ 31 := by omega
  have hburst : int32 (r * 2) = r * 2 := int32_of_fits ⟨by omega, hint⟩
  refine @admitted_of_invariant _ _ _ [] (Recent r) ?_ ?_ ?_ (rated_init hpos hint)
    hordered (by simp) hwithin hfits
  · intro done b nowMs answer b' hstate hb hlast hend hwithin hchecks
    exact recent_check hpos hslow hstate hlast hwithin hchecks
  · rintro done b nowMs ⟨old, recent, rfl, hrecent, htokens⟩ hb hwithin
    have hfew := recent_le hpos hwithin.of_append_right hrecent
    unfold Unwrapped
    omega
  · exact ⟨[], [], rfl, by simp, hburst.trans (by simp)⟩

/-! ## Rates that lose a token a second -/

/-- `n` seconds from `t` on: all packets but one at once, and one `m` milliseconds later. -/
def lossy (r m : Int) : ℕ → Int → List Int
  | 0, _ => []
  | n + 1, t => List.replicate (r - 1).toNat t ++ (t + m) :: lossy r m n (t + 1000)

theorem lossy_from {m t : Int} (hm : 0 ≤ m) (n : ℕ) : ∀ u ∈ lossy r m n t, t ≤ u := by
  induction n generalizing t with
  | zero => simp [lossy]
  | succ n ih =>
    intro u hu
    rcases List.mem_append.mp hu with hu | hu
    · exact (List.eq_of_mem_replicate hu).ge
    · rcases List.mem_cons.mp hu with rfl | hu
      · omega
      · have := ih u hu
        omega

theorem lossy_ordered {m t : Int} (hm : 0 ≤ m) (hsecond : m ≤ 1000) (n : ℕ) :
    (lossy r m n t).Pairwise (· ≤ ·) := by
  induction n generalizing t with
  | zero => simp [lossy]
  | succ n ih =>
    have hlater : ∀ u ∈ lossy r m n (t + 1000), t + m ≤ u := fun u hu => by
      have := lossy_from hm n u hu
      omega
    refine List.pairwise_append.mpr ⟨List.pairwise_replicate_of_refl,
      List.pairwise_cons.mpr ⟨hlater, ih⟩, fun u hu v hv => ?_⟩
    rw [List.eq_of_mem_replicate hu]
    rcases List.mem_cons.mp hv with rfl | hv
    · omega
    · have := hlater v hv
      omega

/-- At most one second of them falls in a window, in two parts. -/
theorem inWindow_lossy_le {m t u : Int} (hr : 1 ≤ r) (n : ℕ) :
    (inWindow u 1000 (lossy r m n t) : Int) ≤
      (if t < u + 1000 then r - 1 else 0) + if t + m < u + 1000 then 1 else 0 := by
  induction n generalizing t with
  | zero =>
    simp only [lossy, inWindow_nil]
    split_ifs <;> push_cast <;> omega
  | succ n ih =>
    have hrest := ih (t := t + 1000)
    have hcopies : ((r - 1).toNat : Int) = r - 1 := by omega
    unfold lossy
    rw [inWindow_append, inWindow_replicate, inWindow_cons]
    push_cast
    split_ifs at hrest ⊢ <;> omega

theorem lossy_conforms {m t : Int} (hr : 1 ≤ r) (n : ℕ) :
    Within 1000 r (lossy r m n t) := by
  intro u
  have := inWindow_lossy_le (u := u) (t := t) (m := m) hr n
  split_ifs at this <;> omega

/-- A second of packets is cut so that neither part is whole tokens. -/
structure Cut (r m : Int) : Prop where
  first : 1000 ≤ m * r
  second : 1000 ≤ (1000 - m) * r
  uneven : ¬ 1000 ∣ m * r

theorem Cut.forgets {m : Int} (h : Cut r m) : m * r / 1000 + (1000 - m) * r / 1000 = r - 1 := by
  have hsum : (1000 - m) * r = 1000 * r - m * r := by ring
  have huneven := h.uneven
  omega

theorem Cut.bounds {m : Int} (h : Cut r m) (hr : 1 ≤ r) : 0 < m ∧ m < 1000 := by
  have hfirst := h.first
  have hsecond := h.second
  have hm : 0 < m := pos_of_mul_pos_left (b := r) (by omega) (by omega)
  have hrest : 0 < 1000 - m := pos_of_mul_pos_left (b := r) (by omega) (by omega)
  exact ⟨hm, by omega⟩

/-- Every rate but 1, 2 and the multiples of 1000 has one. -/
theorem exists_cut (hr : 3 ≤ r) (hrate : ¬ 1000 ∣ r) : ∃ m, Cut r m := by
  -- the first millisecond that brings a token, or the next one
  have hlow : 1000 ≤ (999 / r + 1) * r := by
    have := Int.lt_mul_ediv_self_add (x := 999) (show 0 < r by omega)
    have hcomm : (999 / r + 1) * r = r * (999 / r) + r := by ring
    omega
  have hhigh : 999 / r * r ≤ 999 := Int.ediv_mul_le _ (by omega)
  by_cases hfirst : 1000 ∣ (999 / r + 1) * r
  · refine ⟨999 / r + 2, ?_, ?_, fun hsecond => hrate ?_⟩
    · have hstep : (999 / r + 2) * r = (999 / r + 1) * r + r := by ring
      omega
    · have hstep : (1000 - (999 / r + 2)) * r = 998 * r - 999 / r * r := by ring
      omega
    · have hstep : (999 / r + 2) * r = (999 / r + 1) * r + r := by ring
      omega
  · refine ⟨999 / r + 1, hlow, ?_, hfirst⟩
    have hstep : (1000 - (999 / r + 1)) * r = 999 * r - 999 / r * r := by ring
    omega

/-- A call that refills, where the burst leaves room for it. -/
theorem check_fills {g : Int} (hb : b.Rated r) (hg : (nowMs - b.lastRefillMs) * r / 1000 = g)
    (hdue : 0 < g) (hmost : g ≤ r) (hleast : -2 ^ 31 < b.rateTokens)
    (hroom : b.rateTokens + g ≤ r * 2) : b.RefillFits nowMs ∧
      b.checkRateLimit nowMs = (decide (0 < b.rateTokens + g),
        { b with rateTokens := b.rateTokens + g - 1, lastRefillMs := nowMs }) := by
  have hint := hb.fits
  have hrate : b.rateBurst / 2 = r := by rw [hb.burst]; omega
  have hfits : b.RefillFits nowMs := by
    unfold RefillFits
    rw [hrate]
    exact ⟨⟨by omega, by omega⟩, ⟨by omega, by omega⟩⟩
  refine ⟨hfits, ?_⟩
  unfold checkRateLimit
  rw [refilled_fills hb hfits (by omega), hg, min_eq_right hroom]
  dsimp only
  rw [int32_of_fits ⟨by omega, by omega⟩]

/-- The packets of a second that come at once. -/
theorem run_first {g : Int} (hb : b.Rated r) (hr : 3 ≤ r)
    (hg : (nowMs - b.lastRefillMs) * r / 1000 = g) (hdue : 0 < g) (hmost : g ≤ r)
    (hleast : 0 ≤ b.rateTokens) (hroom : b.rateTokens + g ≤ r * 2) :
    Along checkNext RefillFits b (List.replicate (r - 1).toNat nowMs) ∧
      ∃ b', run checkNext b (List.replicate (r - 1).toNat nowMs) = some b' ∧ b'.Rated r ∧
        b'.lastRefillMs = nowMs ∧ b'.rateTokens = b.rateTokens + g - (r - 1) := by
  have hint := hb.fits
  obtain ⟨hfits, hcheck⟩ := check_fills hb hg hdue hmost (by omega) hroom
  obtain ⟨k, hk⟩ : ∃ k : ℕ, (r - 1).toNat = k + 1 := ⟨(r - 2).toNat, by omega⟩
  have hfits₁ : Fits (b.rateTokens + g - 1) := ⟨by omega, by omega⟩
  have hrun := run_replicate (b := { b with
    rateTokens := b.rateTokens + g - 1, lastRefillMs := nowMs }) (n := k) hfits₁
      (by dsimp only; omega)
  have hnext := checkNext_eq hcheck
  rw [hk, List.replicate_succ]
  have hafter : run checkNext b (nowMs :: List.replicate k nowMs) = some { b with
      rateTokens := b.rateTokens + g - 1 - k, lastRefillMs := nowMs } := by
    rw [run, hnext]
    exact hrun
  refine ⟨⟨hfits, fun b' hb' => ?_⟩, _, hafter, ?_, rfl, by dsimp only; omega⟩
  · obtain rfl := Option.some.inj (hnext.symm.trans hb')
    exact refillFits_replicate hfits₁ k
  · exact ⟨hb.pos, hint, hb.burst, by dsimp only; omega⟩

/-- The packet of a second that comes later. -/
theorem run_second {g t : Int} (hb : b.Rated r) (hg : (t - b.lastRefillMs) * r / 1000 = g)
    (hdue : 0 < g) (hmost : g ≤ r) (hleast : -2 ^ 31 < b.rateTokens)
    (hroom : b.rateTokens + g ≤ r * 2) (times : List Int)
    (hrest : ∀ b' : RateLimit, b'.Rated r → b'.lastRefillMs = t →
      b'.rateTokens = b.rateTokens + g - 1 → Along checkNext RefillFits b' times ∧
        (0 < b.rateTokens + g → false ∈ b'.answers times)) :
    Along checkNext RefillFits b (t :: times) ∧ false ∈ b.answers (t :: times) := by
  obtain ⟨hfits, hcheck⟩ := check_fills hb hg hdue hmost hleast hroom
  obtain ⟨hfits', hrefused⟩ := hrest { b with
    rateTokens := b.rateTokens + g - 1, lastRefillMs := t }
    ⟨hb.pos, hb.fits, hb.burst, by dsimp only; omega⟩ rfl rfl
  refine ⟨⟨hfits, fun b' hb' => ?_⟩, ?_⟩
  · obtain rfl := Option.some.inj ((checkNext_eq hcheck).symm.trans hb')
    exact hfits'
  · rw [answers_cons hcheck]
    by_cases hsome : 0 < b.rateTokens + g
    · exact List.mem_cons_of_mem _ (hrefused hsome)
    · rw [decide_eq_false hsome]
      exact List.mem_cons_self

theorem mem_answers_append {others : List Int} (hrun : run checkNext b times = some b')
    (h : answer ∈ b'.answers others) : answer ∈ b.answers (times ++ others) := by
  induction times generalizing b with
  | nil =>
    obtain rfl := Option.some.inj hrun
    exact h
  | cons nowMs times ih => exact List.mem_cons_of_mem _ (ih (b := (b.checkRateLimit nowMs).2) hrun)

/-- One second of the packets, where what comes behind it is refused as well. -/
theorem refused_second {m t : Int} (hcut : Cut r m) (hr : 3 ≤ r) (hb : b.Rated r)
    (hlast : b.lastRefillMs = t - (1000 - m)) (hsome : 0 ≤ b.rateTokens)
    (hroom : b.rateTokens ≤ r + m * r / 1000)
    (hrest : ∀ b' : RateLimit, b'.Rated r → b'.lastRefillMs = t + m →
      b'.rateTokens = b.rateTokens - 1 → Along checkNext RefillFits b' times ∧
        (0 < b.rateTokens → false ∈ b'.answers times)) :
    Along checkNext RefillFits b (List.replicate (r - 1).toNat t ++ (t + m) :: times) ∧
      false ∈ b.answers (List.replicate (r - 1).toNat t ++ (t + m) :: times) := by
  have hint := hb.fits
  have hforgets := hcut.forgets
  have hfirst := hcut.first
  have hsecond := hcut.second
  have hspan : (t - b.lastRefillMs) * r / 1000 = (1000 - m) * r / 1000 := by
    rw [hlast, sub_sub_cancel]
  obtain ⟨hfits, b₁, hrun, hb₁, hlast₁, htokens₁⟩ :=
    run_first hb hr hspan (by omega) (by omega) hsome (by omega)
  obtain ⟨hfits₁, hrefused⟩ := run_second (t := t + m) (g := m * r / 1000) hb₁
    (by rw [hlast₁, add_sub_cancel_left]) (by omega) (by omega) (by omega) (by omega) times
    fun b' hb' hlast' htokens' => by
      obtain ⟨hfits', hrefused'⟩ := hrest b' hb' hlast' (by omega)
      exact ⟨hfits', fun h => hrefused' (by omega)⟩
  refine ⟨along_append.mpr ⟨hfits, fun b' hb' => ?_⟩, mem_answers_append hrun hrefused⟩
  obtain rfl := Option.some.inj (hrun.symm.trans hb')
  exact hfits₁

/-- **A second of the packets takes one token more than it brings**, and so one is refused in the
end. -/
theorem refused_of_lossy {m t : Int} {n : ℕ} (hcut : Cut r m) (hr : 3 ≤ r) (hb : b.Rated r)
    (hlast : b.lastRefillMs = t - (1000 - m)) (htokens : b.rateTokens = n)
    (hroom : b.rateTokens ≤ r + m * r / 1000) :
    Along checkNext RefillFits b (lossy r m (n + 1) t) ∧
      false ∈ b.answers (lossy r m (n + 1) t) := by
  have hforgets := hcut.forgets
  have hfirst := hcut.first
  have hsecond := hcut.second
  induction n generalizing b t with
  | zero =>
    exact refused_second hcut hr hb hlast (by omega) hroom
      fun b' _ _ _ => ⟨trivial, fun hsome => by omega⟩
  | succ n ih =>
    refine refused_second hcut hr hb hlast (by omega) hroom fun b' hb' hlast' htokens' => ?_
    obtain ⟨hfits, hrefused⟩ := ih hb' (t := t + 1000) (by omega) (by omega) (by omega)
    exact ⟨hfits, fun _ => hrefused⟩

/-- The first second of the packets leaves the burst and what the cut brings, without its own. -/
theorem refused_from_init {m startMs : Int} (hcut : Cut r m) (hr : 3 ≤ r) (hint : r * 2 < 2 ^ 31) :
    ∃ n, Along checkNext RefillFits (initRateLimit r startMs) (lossy r m n startMs) ∧
      false ∈ (initRateLimit r startMs).answers (lossy r m n startMs) := by
  have hforgets := hcut.forgets
  have hfirst := hcut.first
  have hsecond := hcut.second
  have hburst : int32 (r * 2) = r * 2 := int32_of_fits ⟨by omega, hint⟩
  have hfull : (initRateLimit r startMs).rateTokens = r * 2 := hburst
  have hinit : Fits (initRateLimit r startMs).rateTokens := fits_int32 _
  have hrated : (initRateLimit r startMs).Rated r := rated_init (by omega) hint
  have hrun := run_replicate (n := (r - 1).toNat) hinit (by omega)
  have hfits := refillFits_replicate hinit (r - 1).toNat
  obtain ⟨n, hn⟩ : ∃ n : ℕ, (n : Int) = r + m * r / 1000 := ⟨(r + m * r / 1000).toNat, by omega⟩
  obtain ⟨hfits₁, hrefused⟩ := run_second (g := m * r / 1000) (t := startMs + m) (b := {
      initRateLimit r startMs with
      rateTokens := (initRateLimit r startMs).rateTokens - (r - 1).toNat })
    ⟨hrated.pos, hint, hrated.burst, by dsimp only; omega⟩
    (by show (startMs + m - startMs) * r / 1000 = _; rw [add_sub_cancel_left])
    (by omega) (by omega) (by dsimp only; omega) (by dsimp only; omega)
    (lossy r m (n + 1) (startMs + 1000)) fun b' hb' hlast' htokens' => by
      dsimp only at htokens'
      obtain ⟨hfits', hrefused'⟩ := refused_of_lossy (n := n) (t := startMs + 1000) hcut hr hb'
        (by omega) (by omega) (by omega)
      exact ⟨hfits', fun _ => hrefused'⟩
  refine ⟨n + 1 + 1, along_append.mpr ⟨hfits, fun b' hb' => ?_⟩, mem_answers_append hrun hrefused⟩
  obtain rfl := Option.some.inj (hrun.symm.trans hb')
  exact hfits₁

/-- Where a refill forgets nothing, or brings back all that was taken. -/
theorem admitted_of_rate {startMs : Int} (hr : 1 ≤ r) (hint : r * 2 < 2 ^ 31)
    (hrate : r ≤ 2 ∨ 1000 ∣ r) (hordered : (startMs :: times).Pairwise (· ≤ ·))
    (hwithin : Within 1000 r times)
    (hfits : Along checkNext RefillFits (initRateLimit r startMs) times) :
    ∀ a ∈ (initRateLimit r startMs).answers times, a = true := by
  rcases hrate with hslow | ⟨k, hk⟩
  · exact slow_admitted hr hslow hordered hwithin hfits
  · exact exact_admitted hk hr hint hordered hwithin hfits

/-- **The rates at which a conforming client is never refused**: 1, 2 and the multiples of 1000. -/
theorem conforming_admitted_iff (hr : 1 ≤ r) (hint : r * 2 < 2 ^ 31) :
    (∀ startMs times, (startMs :: times).Pairwise (· ≤ ·) → Within 1000 r times →
        Along checkNext RefillFits (initRateLimit r startMs) times →
          ∀ a ∈ (initRateLimit r startMs).answers times, a = true) ↔
      r ≤ 2 ∨ 1000 ∣ r := by
  constructor
  · intro hadmitted
    by_contra hnot
    obtain ⟨m, hcut⟩ := exists_cut (r := r) (by omega) (by omega)
    obtain ⟨hm, hsecond⟩ := hcut.bounds hr
    obtain ⟨n, hfits, hrefused⟩ := @refused_from_init r m 0 hcut (by omega) hint
    have hordered : (0 :: lossy r m n 0).Pairwise (· ≤ ·) :=
      List.pairwise_cons.mpr ⟨lossy_from hm.le n, lossy_ordered hm.le hsecond.le n⟩
    exact absurd (hadmitted 0 _ hordered (lossy_conforms hr n) hfits false hrefused) (by simp)
  · intro hrate startMs times hordered hwithin hfits
    exact admitted_of_rate hr hint hrate hordered hwithin hfits

/-- At the rate of the shipped configuration a conforming client may be refused. -/
theorem conforming_hundred : ¬ ∀ startMs times, (startMs :: times).Pairwise (· ≤ ·) →
    Within 1000 100 times → Along checkNext RefillFits (initRateLimit 100 startMs) times →
      ∀ a ∈ (initRateLimit 100 startMs).answers times, a = true :=
  fun h => absurd ((conforming_admitted_iff (r := 100) (by decide) (by decide)).mp h) (by decide)

/-- At three packets a second, two at once and one 334 milliseconds later: the second packet of the
sixth second is refused. -/
theorem conforming_refused :
    let times := [0, 0, 334, 1000, 1000, 1334, 2000, 2000, 2334, 3000, 3000, 3334, 4000, 4000, 4334,
      5000, 5000]
    (0 :: times).Pairwise (· ≤ ·) ∧ Within 1000 3 times ∧
      Along checkNext RefillFits (initRateLimit 3 0) times ∧
      (initRateLimit 3 0).answers times = List.replicate 16 true ++ [false] := by
  refine ⟨by decide, ?_, by decide, by decide⟩
  have hlossy : Within 1000 3 (lossy 3 334 6 0) := lossy_conforms (by decide) 6
  exact Within.of_append hlossy

/-- The receive path of a client that conforms to such a rate: `HandleRecv`, called with the answers
of `CheckRateLimit` at the times of its packets, disconnects it for none of them. -/
theorem conforming_not_disconnected {startMs : Int} (hr : 1 ≤ r) (hint : r * 2 < 2 ^ 31)
    (hrate : r ≤ 2 ∨ 1000 ∣ r) (hordered : (startMs :: times).Pairwise (· ≤ ·))
    (hwithin : Within 1000 r times)
    (hfits : Along checkNext RefillFits (initRateLimit r startMs) times)
    {handlers : UInt16 → Bool} {maxPacketSize : Int} {chunks : List Bytes} {st : RecvState}
    (hrun : run (recvNext handlers maxPacketSize fun k =>
      ((initRateLimit r startMs).answers times).getD k true) .accepted chunks = some st) :
    st.totalRateLimitRejections = 0 := by
  have hadmitted := admitted_of_rate hr hint hrate hordered hwithin hfits
  refine (limited_run (fun k => ?_) hrun).trans rfl
  rw [List.getD_eq_getElem?_getD]
  cases hk : ((initRateLimit r startMs).answers times)[k]? with
  | none => rfl
  | some answer => exact hadmitted answer (List.mem_of_getElem? hk)

end

end RateLimit

end RealtimeServer
