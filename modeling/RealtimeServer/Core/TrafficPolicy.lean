import Mathlib.Data.List.Basic
import Mathlib.Tactic.Linarith
import RealtimeServer.Lib.Run

/-!
# The limit on new connections

Model of `ConsumeGlobalConnectionToken` and `RefreshTrafficPolicy` (`Core/ServerCore.cpp`). The
accept path and the registry thread share the limit, the tokens and the window start, each an atomic
of its own, so here every load and store is a step, and the two interleave in any way. One accept is
handled at a time. The clock is not set back.

* **`admitted_le`**: where every pull returns the same limit, at most that many connections are
  admitted in the minute behind a refill, in the runs that meet `WindowKept`: a pull refills no
  window that is open and has been drawn on, and moves no window start back. A pull stores the
  tokens whether or not the policy has changed, so nothing makes it so.
* `admitted_twice`: a pull within the minute doubles what is admitted.
-/

namespace RealtimeServer

open Guarded

/-- What a pull of the policy brings, as far as `RefreshTrafficPolicy` tells it apart. -/
inductive PolicyResponse
  | failed
  /-- `maxConnectionsPerMinuteTotal` is a number. -/
  | limit (maxConnPerMinuteTotal : Int)
  | null
  /-- It is neither. -/
  | absent
  deriving DecidableEq

/-- Where `ConsumeGlobalConnectionToken` is. -/
inductive Consuming
  | idle
  /-- It has read the limit. -/
  | limited (limitPerMinute : Int)
  /-- It has read the clock. -/
  | timed (limitPerMinute nowMs : Int)
  /-- It has found no window, or one that is over, and is about to store the tokens. -/
  | refilling (limitPerMinute nowMs : Int)
  /-- It is about to store the window start. -/
  | refilled (nowMs : Int)
  /-- It is about to take a token. -/
  | ready
  deriving DecidableEq

/-- Where `RefreshTrafficPolicy` is. -/
inductive Pulling
  | idle
  | storeLimit (limit : Int)
  | storeTokens (limit : Int)
  | readClock
  | storeStart (nowMs : Int)
  deriving DecidableEq

inductive PolicyEvent
  /-- A window was refilled; it starts at this time. -/
  | refilled (t : Int)
  | admitted (t : Int)
  deriving DecidableEq

/-- The limiter. -/
structure Policy where
  /-- `m_policyMaxConnectionsPerMinuteTotal`. -/
  limit : Int
  /-- `m_globalConnTokens`. -/
  tokens : Int
  /-- `m_globalConnLastRefillMs`. -/
  lastRefillMs : Int
  clock : Int
  consuming : Consuming
  pulling : Pulling
  /-- The refills and the admissions, in order; no thread reads it. -/
  log : List PolicyEvent

namespace Policy

/-- The limiter as the server starts. -/
def start (nowMs : Int) : Policy :=
  { limit := 0
    tokens := 0
    lastRefillMs := 0
    clock := nowMs
    consuming := .idle
    pulling := .idle
    log := [] }

/-- `refillWindowMs`. -/
def refillWindowMs : Int := 60000

section

variable (nowMs : Int) (st : Policy)

/-- A connection arrives: `ConsumeGlobalConnectionToken` reads the limit. -/
def arrive : Option Policy :=
  match st.consuming with
  | .idle =>
    if st.limit ≤ 0 then some { st with log := st.log ++ [.admitted nowMs] }
    else some { st with consuming := .limited st.limit }
  | _ => none

/-- `ConsumeGlobalConnectionToken` goes on. The tokens are an `int`, and `fetch_sub` wraps. -/
def consume : Option Policy :=
  match st.consuming with
  | .idle => none
  | .limited limitPerMinute => some { st with consuming := .timed limitPerMinute nowMs }
  | .timed limitPerMinute nowMs =>
    if st.lastRefillMs = 0 ∨ nowMs - st.lastRefillMs ≥ refillWindowMs then
      some { st with consuming := .refilling limitPerMinute nowMs }
    else some { st with consuming := .ready }
  | .refilling limitPerMinute nowMs =>
    some { st with tokens := limitPerMinute, consuming := .refilled nowMs }
  | .refilled nowMs =>
    some { st with
      lastRefillMs := nowMs, consuming := .ready, log := st.log ++ [.refilled nowMs] }
  | .ready =>
    some { st with
      tokens := (st.tokens - 1).bmod (2 ^ 32)
      consuming := .idle
      log := if st.tokens > 0 then st.log ++ [.admitted nowMs] else st.log }

/-- `RefreshTrafficPolicy` has its response. -/
def respond (response : PolicyResponse) : Option Policy :=
  match st.pulling with
  | .idle =>
    match response with
    | .limit maxConnPerMinuteTotal =>
      if maxConnPerMinuteTotal > 0 then
        some { st with pulling := .storeLimit maxConnPerMinuteTotal }
      else some st
    | .null => some { st with pulling := .storeLimit 0 }
    | .failed | .absent => some st
  | _ => none

/-- `RefreshTrafficPolicy` goes on. -/
def pull : Option Policy :=
  match st.pulling with
  | .idle => none
  | .storeLimit limit => some { st with limit := limit, pulling := .storeTokens limit }
  | .storeTokens limit => some { st with tokens := limit, pulling := .readClock }
  | .readClock => some { st with pulling := .storeStart nowMs }
  | .storeStart nowMs =>
    some { st with
      lastRefillMs := nowMs, pulling := .idle, log := st.log ++ [.refilled nowMs] }

end

end Policy

/-- What happens next. -/
inductive PolicyAction
  | arrive
  | consume
  | respond (response : PolicyResponse)
  | pull
  deriving DecidableEq

/-- The effect of an action at a time, where it is enabled. -/
def policyAct (nowMs : Int) (st : Policy) : PolicyAction → Option Policy
  | .arrive => st.arrive nowMs
  | .consume => st.consume nowMs
  | .respond response => st.respond response
  | .pull => st.pull nowMs

/-- One step: an action and the time it is taken at. -/
def policyNext (st : Policy) (step : PolicyAction × Int) : Option Policy :=
  if step.2 < st.clock then none
  else (policyAct step.2 st step.1).map fun st' => { st' with clock := step.2 }

/-- A pull returns this limit. -/
def PolicyAction.Returns (perMinute : Int) : PolicyAction → Prop
  | respond response => response = .limit perMinute
  | arrive | consume | pull => True

instance (perMinute : Int) (action : PolicyAction) : Decidable (action.Returns perMinute) := by
  unfold PolicyAction.Returns
  split <;> infer_instance

/-- Every pull returns this limit. -/
def PullsReturn (perMinute : Int) (steps : List (PolicyAction × Int)) : Prop :=
  ∀ step ∈ steps, step.1.Returns perMinute

instance (perMinute : Int) (steps : List (PolicyAction × Int)) :
    Decidable (PullsReturn perMinute steps) := by
  unfold PullsReturn; infer_instance

/-- A pull stores the tokens only where there is no open window, or nothing has been taken from it;
it does not move a window start back, neither the one that is stored nor the one that
`ConsumeGlobalConnectionToken` is about to store; and the tokens do not wrap. -/
def WindowKept (st : Policy) (step : PolicyAction × Int) : Prop :=
  match step.1 with
  | .pull =>
    match st.pulling with
    | .storeTokens limit => st.tokens = limit ∨ st.lastRefillMs = 0 ∨
        step.2 - st.lastRefillMs ≥ Policy.refillWindowMs
    | .storeStart nowMs => st.lastRefillMs ≤ nowMs ∧
        match st.consuming with
        | .refilling _ t | .refilled t => nowMs ≤ t
        | _ => True
    | _ => True
  | .consume => st.consuming = .ready → -2 ^ 31 < st.tokens
  | _ => True

instance (st : Policy) (step : PolicyAction × Int) : Decidable (WindowKept st step) := by
  unfold WindowKept
  split
  · split
    · infer_instance
    · split <;> infer_instance
    · infer_instance
  · infer_instance
  · infer_instance

/-- The event is an admission before this time. -/
def PolicyEvent.AdmittedBefore (deadline : Int) : PolicyEvent → Bool
  | admitted t => decide (t < deadline)
  | refilled _ => false

/-- How many connections the events admit in the window that starts at `t`. -/
def admittedIn (t : Int) (events : List PolicyEvent) : Nat :=
  events.countP (PolicyEvent.AdmittedBefore (t + Policy.refillWindowMs))

section

variable {perMinute nowMs : Int} {st st' : Policy} {action : PolicyAction}

/-! ## What a step does -/

/-- What an action does, where it is enabled. -/
inductive PolicyActs (nowMs : Int) (st : Policy) : PolicyAction → Policy → Prop
  | unlimited (pc : st.consuming = .idle) (none : st.limit ≤ 0) :
      PolicyActs nowMs st .arrive { st with log := st.log ++ [.admitted nowMs] }
  | limited (pc : st.consuming = .idle) (some : 0 < st.limit) :
      PolicyActs nowMs st .arrive { st with consuming := .limited st.limit }
  | timed {l : Int} (pc : st.consuming = .limited l) :
      PolicyActs nowMs st .consume { st with consuming := .timed l nowMs }
  | expired {l t : Int} (pc : st.consuming = .timed l t)
      (expired : st.lastRefillMs = 0 ∨ t - st.lastRefillMs ≥ Policy.refillWindowMs) :
      PolicyActs nowMs st .consume { st with consuming := .refilling l t }
  | current {l t : Int} (pc : st.consuming = .timed l t) :
      PolicyActs nowMs st .consume { st with consuming := .ready }
  | refills {l t : Int} (pc : st.consuming = .refilling l t) :
      PolicyActs nowMs st .consume { st with tokens := l, consuming := .refilled t }
  | starts {t : Int} (pc : st.consuming = .refilled t) :
      PolicyActs nowMs st .consume { st with
        lastRefillMs := t, consuming := .ready, log := st.log ++ [.refilled t] }
  | admits (pc : st.consuming = .ready) (some : 0 < st.tokens) :
      PolicyActs nowMs st .consume { st with
        tokens := (st.tokens - 1).bmod (2 ^ 32)
        consuming := .idle
        log := st.log ++ [.admitted nowMs] }
  | refuses (pc : st.consuming = .ready) (none : st.tokens ≤ 0) :
      PolicyActs nowMs st .consume { st with
        tokens := (st.tokens - 1).bmod (2 ^ 32), consuming := .idle }
  | ignores (response : PolicyResponse) : PolicyActs nowMs st (.respond response) st
  | applies {response : PolicyResponse} {l : Int}
      (accepted : response = .limit l ∨ response = .null ∧ l = 0) :
      PolicyActs nowMs st (.respond response) { st with pulling := .storeLimit l }
  | pullsLimit {l : Int} (pc : st.pulling = .storeLimit l) :
      PolicyActs nowMs st .pull { st with limit := l, pulling := .storeTokens l }
  | pullsTokens {l : Int} (pc : st.pulling = .storeTokens l) :
      PolicyActs nowMs st .pull { st with tokens := l, pulling := .readClock }
  | pullsClock (pc : st.pulling = .readClock) :
      PolicyActs nowMs st .pull { st with pulling := .storeStart nowMs }
  | pullsStart {t : Int} (pc : st.pulling = .storeStart t) :
      PolicyActs nowMs st .pull { st with
        lastRefillMs := t, pulling := .idle, log := st.log ++ [.refilled t] }

theorem acts_of_arrive (h : st.arrive nowMs = some st') : PolicyActs nowMs st .arrive st' := by
  unfold Policy.arrive at h
  split at h
  · rename_i hidle
    split at h
    · rename_i hlimit
      obtain rfl := Option.some.inj h
      exact .unlimited hidle hlimit
    · rename_i hlimit
      obtain rfl := Option.some.inj h
      exact .limited hidle (not_le.mp hlimit)
  · exact absurd h (by simp)

theorem acts_of_consume (h : st.consume nowMs = some st') : PolicyActs nowMs st .consume st' := by
  unfold Policy.consume at h
  cases hat : st.consuming with
  | idle =>
    rw [hat] at h
    exact absurd h (by simp)
  | limited l =>
    rw [hat] at h
    obtain rfl := Option.some.inj h
    exact .timed hat
  | timed l t =>
    rw [hat] at h
    simp only at h
    split at h
    · rename_i hover
      obtain rfl := Option.some.inj h
      exact .expired hat hover
    · obtain rfl := Option.some.inj h
      exact .current hat
  | refilling l t =>
    rw [hat] at h
    obtain rfl := Option.some.inj h
    exact .refills hat
  | refilled t =>
    rw [hat] at h
    obtain rfl := Option.some.inj h
    exact .starts hat
  | ready =>
    rw [hat] at h
    obtain rfl := Option.some.inj h
    by_cases hsome : st.tokens > 0
    · simp only [if_pos hsome]
      exact .admits hat hsome
    · simp only [if_neg hsome]
      exact .refuses hat (not_lt.mp hsome)

theorem acts_of_respond {response : PolicyResponse} (h : st.respond response = some st') :
    PolicyActs nowMs st (.respond response) st' := by
  unfold Policy.respond at h
  split at h
  · split at h
    · split at h
      · obtain rfl := Option.some.inj h
        exact .applies (Or.inl rfl)
      · obtain rfl := Option.some.inj h
        exact .ignores _
    · obtain rfl := Option.some.inj h
      exact .applies (Or.inr ⟨rfl, rfl⟩)
    · obtain rfl := Option.some.inj h
      exact .ignores _
    · obtain rfl := Option.some.inj h
      exact .ignores _
  · exact absurd h (by simp)

theorem acts_of_pull (h : st.pull nowMs = some st') : PolicyActs nowMs st .pull st' := by
  unfold Policy.pull at h
  cases hat : st.pulling with
  | idle =>
    rw [hat] at h
    exact absurd h (by simp)
  | storeLimit l =>
    rw [hat] at h
    obtain rfl := Option.some.inj h
    exact .pullsLimit hat
  | storeTokens l =>
    rw [hat] at h
    obtain rfl := Option.some.inj h
    exact .pullsTokens hat
  | readClock =>
    rw [hat] at h
    obtain rfl := Option.some.inj h
    exact .pullsClock hat
  | storeStart t =>
    rw [hat] at h
    obtain rfl := Option.some.inj h
    exact .pullsStart hat

theorem policyNext_acts (h : policyNext st (action, nowMs) = some st') :
    st.clock ≤ nowMs ∧
      ∃ st₁, PolicyActs nowMs st action st₁ ∧ st' = { st₁ with clock := nowMs } := by
  unfold policyNext at h
  split at h
  · exact absurd h (by simp)
  · rename_i hclock
    obtain ⟨st₁, hact, rfl⟩ := Option.map_eq_some_iff.mp h
    refine ⟨not_lt.mp hclock, st₁, ?_, rfl⟩
    cases action with
    | arrive => exact acts_of_arrive hact
    | consume => exact acts_of_consume hact
    | respond response => exact acts_of_respond hact
    | pull => exact acts_of_pull hact

/-! ## The invariant -/

/-- What the accept path has read is what it takes it for. -/
def ConsumingSound (perMinute : Int) (st : Policy) : Prop :=
  match st.consuming with
  | .idle => True
  | .limited l => l = perMinute ∧ st.limit = perMinute
  | .timed l t => l = perMinute ∧ st.limit = perMinute ∧ 0 < t ∧ t ≤ st.clock
  | .refilling l t => l = perMinute ∧ st.limit = perMinute ∧ 0 < t
  | .refilled t => st.limit = perMinute ∧ 0 < t
  | .ready => st.limit = perMinute

/-- The same of the pull. -/
def PullingSound (perMinute : Int) (st : Policy) : Prop :=
  match st.pulling with
  | .idle => True
  | .storeLimit l => l = perMinute
  | .storeTokens l => l = perMinute ∧ st.limit = perMinute
  | .readClock => st.limit = perMinute
  | .storeStart t => st.limit = perMinute ∧ 0 < t

/-- The limiter knows no other limit. -/
structure LimitSound (perMinute : Int) (st : Policy) : Prop where
  clock : 0 < st.clock
  limit : st.limit = 0 ∨ st.limit = perMinute
  tokens : st.tokens ≤ perMinute
  consuming : ConsumingSound perMinute st
  pulling : PullingSound perMinute st

/-- The accept path is about to store this window start. -/
def Refilling (st : Policy) (t : Int) : Prop :=
  (∃ l, st.consuming = .refilling l t) ∨ st.consuming = .refilled t

/-- The window that started at `t`, when `admitted` connections have been admitted in it: they and
the tokens left are within the limit, and no later window start is before `t`. -/
structure WindowOpen (perMinute : Int) (st : Policy) (t : Int) (admitted : Nat) : Prop where
  start : 0 < t
  limit : st.limit = perMinute
  tokens : (admitted : Int) + max st.tokens 0 ≤ perMinute
  last : t ≤ st.lastRefillMs
  refilling : ∀ t', Refilling st t' → t ≤ t' ∧ admitted = 0

/-- **The invariant** of one window, open or over. -/
def WindowSound (perMinute : Int) (st : Policy) (t : Int) (admitted : Nat) : Prop :=
  (admitted : Int) ≤ perMinute ∧
    (st.clock < t + Policy.refillWindowMs → WindowOpen perMinute st t admitted)

theorem limitSound_start (hlimit : 0 < perMinute) (hstart : 0 < nowMs) :
    LimitSound perMinute (.start nowMs) where
  clock := hstart
  limit := Or.inl rfl
  tokens := hlimit.le
  consuming := trivial
  pulling := trivial

/-- Taking a token does not wrap. -/
theorem bmod_pred {tokens : Int} (hlow : -2 ^ 31 < tokens) (hhigh : tokens < 2 ^ 31) :
    (tokens - 1).bmod (2 ^ 32) = tokens - 1 := by
  refine Int.bmod_eq_of_le ?_ ?_ <;> omega

/-- What the accept path has read stays good while it does nothing. -/
theorem consumingSound_kept (h : ConsumingSound perMinute st) (hsame : st'.consuming = st.consuming)
    (hlimit : st'.limit = st.limit ∨ st'.limit = perMinute) (hclock : st.clock ≤ st'.clock) :
    ConsumingSound perMinute st' := by
  have hstill : st.limit = perMinute → st'.limit = perMinute :=
    fun hwas => hlimit.elim (fun hsame => hsame.trans hwas) id
  unfold ConsumingSound at h ⊢
  rw [hsame]
  split <;> rename_i hpc <;> simp only [hpc] at h
  · trivial
  · exact ⟨h.1, hstill h.2⟩
  · exact ⟨h.1, hstill h.2.1, h.2.2.1, h.2.2.2.trans hclock⟩
  · exact ⟨h.1, hstill h.2.1, h.2.2⟩
  · exact ⟨hstill h.1, h.2⟩
  · exact hstill h

theorem limitSound_next (h : LimitSound perMinute st) (hmax : perMinute < 2 ^ 31)
    (hpull : action.Returns perMinute) (hc : WindowKept st (action, nowMs))
    (hclock : st.clock ≤ nowMs) (hacts : PolicyActs nowMs st action st') :
    LimitSound perMinute { st' with clock := nowMs } := by
  obtain ⟨hpos, hset, htokens, hconsuming, hpulling⟩ := h
  have hnow : 0 < nowMs := hpos.trans_le hclock
  have hread := hconsuming
  have hpulled := hpulling
  unfold ConsumingSound at hread
  unfold PullingSound at hpulled
  cases hacts with
  | unlimited pc none =>
    exact ⟨hnow, hset, htokens, consumingSound_kept hconsuming rfl (Or.inl rfl) hclock, hpulling⟩
  | limited pc some =>
    have hlimit : st.limit = perMinute := hset.resolve_left some.ne'
    exact ⟨hnow, hset, htokens, ⟨hlimit, hlimit⟩, hpulling⟩
  | timed pc =>
    rw [pc] at hread
    exact ⟨hnow, hset, htokens, ⟨hread.1, hread.2, hnow, le_refl _⟩, hpulling⟩
  | expired pc expired =>
    rw [pc] at hread
    exact ⟨hnow, hset, htokens, ⟨hread.1, hread.2.1, hread.2.2.1⟩, hpulling⟩
  | current pc =>
    rw [pc] at hread
    exact ⟨hnow, hset, htokens, hread.2.1, hpulling⟩
  | refills pc =>
    rw [pc] at hread
    exact ⟨hnow, hset, hread.1.le, hread.2, hpulling⟩
  | starts pc =>
    rw [pc] at hread
    exact ⟨hnow, hset, htokens, hread.1, hpulling⟩
  | admits pc some =>
    have htaken := bmod_pred (hc pc) (htokens.trans_lt hmax)
    exact ⟨hnow, hset, by simp only [htaken]; omega, trivial, hpulling⟩
  | refuses pc none =>
    have htaken := bmod_pred (hc pc) (htokens.trans_lt hmax)
    exact ⟨hnow, hset, by simp only [htaken]; omega, trivial, hpulling⟩
  | ignores response =>
    exact ⟨hnow, hset, htokens, consumingSound_kept hconsuming rfl (Or.inl rfl) hclock, hpulling⟩
  | applies accepted =>
    rcases accepted with haccepted | ⟨haccepted, -⟩
    · have hsame := hpull.symm.trans haccepted
      exact ⟨hnow, hset, htokens, consumingSound_kept hconsuming rfl (Or.inl rfl) hclock,
        (PolicyResponse.limit.inj hsame).symm⟩
    · exact absurd (hpull.symm.trans haccepted) (by simp)
  | pullsLimit pc =>
    rw [pc] at hpulled
    exact ⟨hnow, Or.inr hpulled, htokens,
      consumingSound_kept hconsuming rfl (Or.inr hpulled) hclock, ⟨hpulled, hpulled⟩⟩
  | pullsTokens pc =>
    rw [pc] at hpulled
    exact ⟨hnow, hset, hpulled.1.le, consumingSound_kept hconsuming rfl (Or.inl rfl) hclock,
      hpulled.2⟩
  | pullsClock pc =>
    rw [pc] at hpulled
    exact ⟨hnow, hset, htokens, consumingSound_kept hconsuming rfl (Or.inl rfl) hclock,
      ⟨hpulled, hnow⟩⟩
  | pullsStart pc =>
    exact ⟨hnow, hset, htokens, consumingSound_kept hconsuming rfl (Or.inl rfl) hclock, trivial⟩

/-! ## The windows -/

/-- A step that leaves the tokens and the window start alone, and begins no refill. -/
theorem WindowOpen.kept {t : Int} {admitted : Nat} (h : WindowOpen perMinute st t admitted)
    (hlimit : st'.limit = perMinute) (htokens : st'.tokens = st.tokens)
    (hlast : st'.lastRefillMs = st.lastRefillMs)
    (hrefilling : ∀ t', Refilling st' t' → Refilling st t') :
    WindowOpen perMinute st' t admitted where
  start := h.start
  limit := hlimit
  tokens := by rw [htokens]; exact h.tokens
  last := by rw [hlast]; exact h.last
  refilling t' ht' := h.refilling t' (hrefilling t' ht')

/-- Such a step, when it adds nothing to the log. -/
theorem WindowOpen.silent {t : Int} {admitted : Nat} (h : WindowOpen perMinute st t admitted)
    (hlog : st'.log = st.log) (hlimit : st'.limit = perMinute) (htokens : st'.tokens = st.tokens)
    (hlast : st'.lastRefillMs = st.lastRefillMs)
    (hrefilling : ∀ t', Refilling st' t' → Refilling st t') :
    WindowOpen perMinute { st' with clock := nowMs } t
      (admitted + admittedIn t (st'.log.drop st.log.length)) := by
  rw [hlog, List.drop_length]
  exact h.kept hlimit htokens hlast hrefilling

/-- An open window stays one as long as it is not over. -/
theorem windowOpen_next {t : Int} {admitted : Nat} (hsound : LimitSound perMinute st)
    (h : WindowOpen perMinute st t admitted) (hlimit : 0 < perMinute) (hmax : perMinute < 2 ^ 31)
    (hc : WindowKept st (action, nowMs)) (hclock : st.clock ≤ nowMs)
    (hopen : nowMs < t + Policy.refillWindowMs) (hacts : PolicyActs nowMs st action st') :
    WindowOpen perMinute { st' with clock := nowMs } t
      (admitted + admittedIn t (st'.log.drop st.log.length)) := by
  have hread := hsound.consuming
  have hpulled := hsound.pulling
  have hstart := h.start
  have htokens := h.tokens
  have hlast := h.last
  unfold ConsumingSound at hread
  unfold PullingSound at hpulled
  cases hacts with
  | unlimited pc none =>
    rw [h.limit] at none
    exact absurd hlimit (not_lt.mpr none)
  | limited pc some =>
    exact h.silent rfl h.limit rfl rfl (by simp [Refilling])
  | timed pc =>
    exact h.silent rfl h.limit rfl rfl (by simp [Refilling])
  | expired pc expired =>
    -- the window start it has read is not before this window's
    rw [pc] at hread
    rcases expired with hnone | hover
    · omega
    · omega
  | current pc =>
    exact h.silent rfl h.limit rfl rfl (by simp [Refilling])
  | @refills l t' pc =>
    rw [pc] at hread
    obtain ⟨hle, hnone⟩ := h.refilling t' (Or.inl ⟨l, pc⟩)
    rw [List.drop_length]
    refine ⟨hstart, h.limit, ?_, hlast, ?_⟩
    · show ((admitted + 0 : Nat) : Int) + max l 0 ≤ perMinute
      rw [hread.1, hnone]
      omega
    · intro t'' ht''
      have hsame : t' = t'' := by simpa [Refilling] using ht''
      exact ⟨hsame ▸ hle, hnone⟩
  | @starts t' pc =>
    obtain ⟨hle, hnone⟩ := h.refilling t' (Or.inr pc)
    rw [List.drop_left]
    exact ⟨hstart, h.limit, htokens, hle, by simp [Refilling]⟩
  | admits pc some =>
    have htaken := bmod_pred (hc pc) (hsound.tokens.trans_lt hmax)
    have hcount : admittedIn t [.admitted nowMs] = 1 := by
      simp [admittedIn, PolicyEvent.AdmittedBefore, hopen]
    rw [List.drop_left, hcount]
    refine ⟨hstart, h.limit, ?_, hlast, by simp [Refilling]⟩
    simp only [htaken]
    omega
  | refuses pc none =>
    have htaken := bmod_pred (hc pc) (hsound.tokens.trans_lt hmax)
    rw [List.drop_length]
    refine ⟨hstart, h.limit, ?_, hlast, by simp [Refilling]⟩
    show ((admitted + 0 : Nat) : Int) + max ((st.tokens - 1).bmod (2 ^ 32)) 0 ≤ perMinute
    rw [htaken]
    omega
  | ignores response =>
    exact h.silent rfl h.limit rfl rfl fun _ => id
  | applies accepted =>
    exact h.silent rfl h.limit rfl rfl fun _ => id
  | pullsLimit pc =>
    rw [pc] at hpulled
    exact h.silent rfl hpulled rfl rfl fun _ => id
  | @pullsTokens l pc =>
    -- the condition leaves only a store that changes nothing
    have hsame : st.tokens = l := by
      unfold WindowKept at hc
      rw [pc] at hc
      rcases hc with hsame | hnone | hover
      · exact hsame
      · omega
      · simp only at hover
        omega
    exact h.silent rfl h.limit hsame.symm rfl fun _ => id
  | pullsClock pc =>
    exact h.silent rfl h.limit rfl rfl fun _ => id
  | @pullsStart t' pc =>
    have hle : st.lastRefillMs ≤ t' := by
      unfold WindowKept at hc
      rw [pc] at hc
      exact hc.1
    rw [List.drop_left]
    exact ⟨hstart, h.limit, htokens, hlast.trans hle, h.refilling⟩

/-- What a step adds to the log. -/
theorem log_acts (hacts : PolicyActs nowMs st action st') :
    st'.log = st.log ∨ st'.log = st.log ++ [.admitted nowMs] ∨
      ∃ t, st'.log = st.log ++ [.refilled t] := by
  cases hacts with
  | unlimited pc none => exact Or.inr (Or.inl rfl)
  | admits pc some => exact Or.inr (Or.inl rfl)
  | starts pc => exact Or.inr (Or.inr ⟨_, rfl⟩)
  | pullsStart pc => exact Or.inr (Or.inr ⟨_, rfl⟩)
  | _ => exact Or.inl rfl

/-- A refill opens a window. -/
theorem windowOpen_refilled {t : Int} (hsound : LimitSound perMinute st) (hlimit : 0 < perMinute)
    (hc : WindowKept st (action, nowMs)) (hacts : PolicyActs nowMs st action st')
    (hlog : st'.log = st.log ++ [.refilled t]) :
    WindowOpen perMinute { st' with clock := nowMs } t 0 := by
  have hread := hsound.consuming
  have hpulled := hsound.pulling
  have htokens := hsound.tokens
  unfold ConsumingSound at hread
  unfold PullingSound at hpulled
  cases hacts with
  | @starts t' pc =>
    obtain rfl : t' = t := by simpa using hlog
    rw [pc] at hread
    exact ⟨hread.2, hread.1, by simp only [Nat.cast_zero]; omega, le_refl _, by simp [Refilling]⟩
  | @pullsStart t' pc =>
    obtain rfl : t' = t := by simpa using hlog
    rw [pc] at hpulled
    unfold WindowKept at hc
    rw [pc] at hc
    refine ⟨hpulled.2, hpulled.1, by simp only [Nat.cast_zero]; omega, le_refl _, ?_⟩
    intro t'' ht''
    refine ⟨?_, rfl⟩
    rcases ht'' with ⟨l, hrefilling⟩ | hrefilled
    · have := hc.2
      rw [show st.consuming = .refilling l t'' from hrefilling] at this
      exact this
    · have := hc.2
      rw [show st.consuming = .refilled t'' from hrefilled] at this
      exact this
  | _ => simp at hlog

/-- The limiter behind every refill of its log. -/
def WindowsSound (perMinute : Int) (st : Policy) : Prop :=
  ∀ before t after, st.log = before ++ .refilled t :: after →
    WindowSound perMinute st t (admittedIn t after)

theorem windowSound_next {t : Int} {admitted : Nat} {event : List PolicyEvent}
    (hsound : LimitSound perMinute st) (h : WindowSound perMinute st t admitted)
    (hlimit : 0 < perMinute) (hmax : perMinute < 2 ^ 31) (hc : WindowKept st (action, nowMs))
    (hclock : st.clock ≤ nowMs) (hacts : PolicyActs nowMs st action st')
    (hlog : st'.log = st.log ++ event) :
    WindowSound perMinute { st' with clock := nowMs } t (admitted + admittedIn t event) := by
  by_cases hopen : nowMs < t + Policy.refillWindowMs
  · have hnext := windowOpen_next hsound (h.2 (hclock.trans_lt hopen)) hlimit hmax hc hclock hopen
      hacts
    have hevent : st'.log.drop st.log.length = event := by rw [hlog, List.drop_left]
    rw [hevent] at hnext
    have htokens := hnext.tokens
    exact ⟨by omega, fun _ => hnext⟩
  · have hnone : admittedIn t event = 0 := by
      rcases log_acts hacts with hsame | hadmits | ⟨t', hrefills⟩
      · rw [hsame] at hlog
        rw [List.self_eq_append_right.mp hlog]
        rfl
      · rw [List.append_cancel_left (hlog.symm.trans hadmits)]
        simp [admittedIn, PolicyEvent.AdmittedBefore, not_lt.mp hopen]
      · rw [List.append_cancel_left (hlog.symm.trans hrefills)]
        rfl
    rw [hnone]
    exact ⟨h.1, fun hstill => absurd hstill hopen⟩

theorem windowsSound_next (hsound : LimitSound perMinute st) (h : WindowsSound perMinute st)
    (hlimit : 0 < perMinute) (hmax : perMinute < 2 ^ 31) (hc : WindowKept st (action, nowMs))
    (hclock : st.clock ≤ nowMs) (hacts : PolicyActs nowMs st action st') :
    WindowsSound perMinute { st' with clock := nowMs } := by
  intro before t after hsplit
  change st'.log = before ++ .refilled t :: after at hsplit
  rcases log_acts hacts with hsame | hevent
  · have hnext := windowSound_next hsound (h before t after (hsame ▸ hsplit)) hlimit hmax hc hclock
      hacts (hsame.trans (List.append_nil _).symm)
    exact hnext
  · obtain ⟨event, hevent⟩ : ∃ event, st'.log = st.log ++ [event] := by
      rcases hevent with hadmits | ⟨t', hrefills⟩
      · exact ⟨_, hadmits⟩
      · exact ⟨_, hrefills⟩
    -- the refill is this step's, or it was in the log before
    rcases List.eq_nil_or_concat after with rfl | ⟨older, last, rfl⟩
    · obtain ⟨-, hrefilled⟩ := List.append_inj' (hevent.symm.trans hsplit) rfl
      rw [hrefilled] at hevent
      exact ⟨by simp only [admittedIn, List.countP_nil, Nat.cast_zero]; omega,
        fun _ => windowOpen_refilled hsound hlimit hc hacts hevent⟩
    · have hlonger : st'.log = (before ++ .refilled t :: older) ++ [last] := by
        rw [hsplit]
        simp
      obtain ⟨hlog, hlast⟩ := List.append_inj' (hevent.symm.trans hlonger) rfl
      have hcount : admittedIn t (older ++ [last]) = admittedIn t older + admittedIn t [event] := by
        rw [hlast]
        exact List.countP_append
      rw [List.concat_eq_append, hcount]
      exact windowSound_next hsound (h before t older hlog) hlimit hmax hc hclock hacts hevent

/-- **The limit holds**: in every run in which every pull returns the same limit and whose steps all
meet `WindowKept`, at most that many connections are admitted in the minute behind any refill. -/
theorem admitted_le {startMs : Int} {steps : List (PolicyAction × Int)}
    {before after : List PolicyEvent} {t : Int} (hstart : 0 < startMs) (hlimit : 0 < perMinute)
    (hmax : perMinute < 2 ^ 31) (hpulls : PullsReturn perMinute steps)
    (hrun : run policyNext (.start startMs) steps = some st)
    (hc : Along policyNext WindowKept (.start startMs) steps)
    (hlog : st.log = before ++ .refilled t :: after) : (admittedIn t after : Int) ≤ perMinute := by
  have hall := along_and_mem hc hpulls
  have hend : LimitSound perMinute st ∧ WindowsSound perMinute st := by
    refine run_invariant (I := fun st => LimitSound perMinute st ∧ WindowsSound perMinute st) ?_
      ⟨limitSound_start hlimit hstart, ?_⟩ hall hrun
    · rintro st ⟨action, nowMs⟩ st' ⟨hsound, hwindows⟩ ⟨hkept, hpull⟩ hnext
      obtain ⟨hclock, st₁, hacts, rfl⟩ := policyNext_acts hnext
      exact ⟨limitSound_next hsound hmax hpull hkept hclock hacts,
        windowsSound_next hsound hwindows hlimit hmax hkept hclock hacts⟩
    · intro before t after hsplit
      exact absurd hsplit.symm (by simp [Policy.start])
  exact (hend.2 before t after hlog).1

/-- A pull that returns a limit of one, made without a pause. -/
def pullOne (nowMs : Int) : List (PolicyAction × Int) :=
  [(.respond (.limit 1), nowMs), (.pull, nowMs), (.pull, nowMs), (.pull, nowMs), (.pull, nowMs)]

/-- A connection that finds the window open, without a pause. -/
def connect (nowMs : Int) : List (PolicyAction × Int) :=
  [(.arrive, nowMs), (.consume, nowMs), (.consume, nowMs), (.consume, nowMs)]

/-- A connection that finds it over. -/
def connectLate (nowMs : Int) : List (PolicyAction × Int) :=
  connect nowMs ++ [(.consume, nowMs), (.consume, nowMs)]

/-- A connection refills the window, another is refused in it, and the next pull comes late. -/
def politePulls : List (PolicyAction × Int) :=
  pullOne 1000 ++ connectLate 61000 ++ connect 62000 ++ pullOne 121000 ++ connect 121000

theorem admitted_le_politePulls :
    ∃ st, run policyNext (.start 1000) politePulls = some st ∧
      st.log = [.refilled 1000] ++ .refilled 61000 ::
        [.admitted 61000, .refilled 121000, .admitted 121000] ∧
      (admittedIn 61000 [.admitted 61000, .refilled 121000, .admitted 121000] : Int) ≤ 1 := by
  obtain ⟨st, hrun, hlog⟩ :
      ∃ st, run policyNext (.start 1000) politePulls = some st ∧
        st.log = [.refilled 1000] ++ .refilled 61000 ::
          [.admitted 61000, .refilled 121000, .admitted 121000] := by decide
  exact ⟨st, hrun, hlog, admitted_le (by decide) (by decide) (by decide) (by decide) hrun
    (by decide) hlog⟩

/-- The pull comes ten seconds behind the refill, and brings what was known. -/
def pullWithin : List (PolicyAction × Int) :=
  pullOne 1000 ++ connectLate 61000 ++ pullOne 71000 ++ connect 71000

/-- Two connections are admitted in a minute that may admit one. -/
theorem admitted_twice :
    ∃ st, run policyNext (.start 1000) pullWithin = some st ∧
      st.log = [.refilled 1000] ++ .refilled 61000 ::
        [.admitted 61000, .refilled 71000, .admitted 71000] ∧
      admittedIn 61000 [.admitted 61000, .refilled 71000, .admitted 71000] = 2 := by
  decide

end

end RealtimeServer
