import RealtimeServer.Core.Connections

/-!
# Heartbeat timeouts

Model of the timeout check of `HeartbeatThread` (`Core/ServerCore.cpp`), of `UpdateActivity` and
`IsTimedOut` (`Core/ServerSession.h`) and of `SessionManager::GetAll`, next to the threads of
`Core/Connections`. `UpdateActivity` reads the clock and then stores the time, `IsTimedOut` reads
the clock and then that time, and what it returns is acted on later: in each of these places another
thread may go on.

* `Watched`: the invariant, of the times, of the tests and of the pass that is under way.
* **`timeouts_exact`**: a test comes out positive exactly when the session had no activity for the
  timeout before it, and only then does the thread disconnect it; and behind a pass, every session
  that was in the map when the pass began is disconnected, or has been active since the timeout
  before it began.
-/

namespace RealtimeServer

open Unordered Guarded

/-- `GetAll`. -/
def SessionManager.getAll (order : Reorder Nat) (m : SessionManager) : List SessionRef :=
  (order.apply m.sessions.keys).filterMap m.sessions.lookup

/-- Where the heartbeat thread is. -/
inductive HeartbeatStage
  /-- In `sleep_for`, at least up to this time. -/
  | asleep (wakeMs : Int)
  /-- In its loop, with the sessions it has not come to. -/
  | checking (rest : List SessionRef)
  /-- In `IsTimedOut`, having read the clock. -/
  | testing (s : SessionRef) (now : Int) (rest : List SessionRef)
  /-- About to call `HandleDisconnect`. -/
  | disconnecting (s : SessionRef) (rest : List SessionRef)
  /-- In `HandleDisconnect`, behind a `Disconnect` that returned true. -/
  | closing (s : SessionRef) (rest : List SessionRef)
  deriving DecidableEq

/-- The sessions of the pass that the thread is not through with. -/
def HeartbeatStage.left : HeartbeatStage → List SessionRef
  | asleep _ => []
  | checking rest | closing _ rest => rest
  | testing s _ rest | disconnecting s rest => s :: rest

/-- What is of interest for the timeouts. -/
inductive TimeoutEvent
  /-- `UpdateActivity`. -/
  | active (s : SessionRef) (now : Int)
  /-- `IsTimedOut`, with the time it read and what it returned. -/
  | tested (s : SessionRef) (now : Int) (timedOut : Bool)
  /-- The heartbeat thread calls `HandleDisconnect`. -/
  | disconnects (s : SessionRef)
  deriving DecidableEq

/-- The connections, their times, and the heartbeat thread. -/
structure Timeouts where
  conns : Connections
  lastActivityMs : SessionRef → Int
  /-- The last reading of the steady clock. -/
  clock : Int
  stage : HeartbeatStage
  /-- When the last `GetAll` was called, and what it returned; no thread reads it. -/
  began : Int
  snapshot : List SessionRef
  log : List TimeoutEvent

namespace Timeouts

/-- `CHECK_INTERVAL`, in milliseconds. -/
def checkInterval : Int := 5000

/-- The thread starts with a sleep. -/
def start : Timeouts :=
  { conns := .empty
    lastActivityMs := fun _ => 0
    clock := 0
    stage := .asleep checkInterval
    began := 0
    snapshot := []
    log := [] }

/-- The store of `UpdateActivity`, of a time it read now or before. -/
def updateActivity (s : SessionRef) (now : Int) (st : Timeouts) : Timeouts :=
  { st with
    lastActivityMs := Function.update st.lastActivityMs s now
    clock := max st.clock now
    log := st.log ++ [.active s now] }

end Timeouts

/-- What happens next. -/
inductive TimeoutAction
  /-- `Init` of a new session, which no other thread knows yet, and `Add`. -/
  | accept (now : Int)
  /-- Any other step of `Core/Connections`. -/
  | record (a : RecordAction)
  /-- `HandleRecv` comes to `UpdateActivity`. -/
  | receive (s : SessionRef) (now : Int)
  | getAll (order : Reorder Nat) (now : Int)
  /-- `IsTimedOut` reads the clock. -/
  | readClock (now : Int)
  /-- It reads the time of the last activity. -/
  | load
  | disconnect
  /-- `HandleDisconnect` returns. -/
  | disconnected
  /-- The loop is over, and behind the idle rooms the thread goes to sleep. -/
  | sleep (now : Int)

def RecordAction.isAdd : RecordAction → Bool
  | add => true
  | _ => false

def TimeoutAction.isGetAll : TimeoutAction → Bool
  | getAll .. => true
  | _ => false

/-- One step; the steady clock does not go back, and the receives of a session come one by one. -/
def timeoutNext (timeoutMs : Int) (st : Timeouts) : TimeoutAction → Option Timeouts
  | .accept now =>
    if st.lastActivityMs st.conns.nextSession ≤ now then
      some ({ st with conns := st.conns.add }.updateActivity st.conns.nextSession now)
    else none
  | .record a =>
    if a.isAdd then none else (recordNext st.conns a).map fun conns => { st with conns := conns }
  | .receive s now =>
    if (s < st.conns.nextSession ∧ st.conns.accepting s = .admitted) ∧
        st.lastActivityMs s ≤ now then
      some (st.updateActivity s now)
    else none
  | .getAll order now =>
    match st.stage with
    | .asleep wakeMs =>
      if wakeMs ≤ now ∧ st.clock ≤ now then
        let sessions := st.conns.sessionManager.getAll order
        some { st with
          clock := now
          stage := .checking sessions
          began := now
          snapshot := sessions }
      else none
    | _ => none
  | .readClock now =>
    match st.stage with
    | .checking (s :: rest) =>
      if st.clock ≤ now then some { st with clock := now, stage := .testing s now rest } else none
    | _ => none
  | .load =>
    match st.stage with
    | .testing s now rest =>
      let timedOut := decide (timeoutMs < now - st.lastActivityMs s)
      some { st with
        stage := if timedOut then .disconnecting s rest else .checking rest
        log := st.log ++ [.tested s now timedOut] }
    | _ => none
  | .disconnect =>
    match st.stage with
    | .disconnecting s rest =>
      some { st with
        conns := st.conns.disconnect s
        stage := if st.conns.Down s then .checking rest else .closing s rest
        log := st.log ++ [.disconnects s] }
    | _ => none
  | .disconnected =>
    match st.stage with
    | .closing s rest =>
      if st.conns.closing s = .done then some { st with stage := .checking rest } else none
    | _ => none
  | .sleep now =>
    match st.stage with
    | .checking [] =>
      if st.clock ≤ now then
        some { st with clock := now, stage := .asleep (now + Timeouts.checkInterval) }
      else none
    | _ => none

/-! ## The records -/

section

variable {c c' : Connections} {a : RecordAction} {s t : SessionRef}

namespace Connections

theorem down_world (h : c.Down s) (t : SessionRef) :
    ((c.world.disconnect t).session s).disconnected = true := by
  by_cases hst : s = t
  · rw [hst, World.session_disconnect_self]
  · rw [World.session_disconnect_ne hst]
    exact h

/-- Behind `Disconnect`. -/
theorem down_behind (c : Connections) (s : SessionRef) : (c.disconnect s).Down s := by
  unfold disconnect
  split
  · assumption
  · exact down_disconnect_self c.world s

end Connections

/-- What a step of another thread keeps: who is disconnected stays so, and the map has sessions that
were added. -/
structure RecordsKept (c c' : Connections) : Prop where
  nextSession : c'.nextSession = c.nextSession
  down : ∀ s, c.Down s → c'.Down s
  sessions : ∀ id s, c'.sessionManager.sessions.lookup id = some s →
    c.sessionManager.sessions.lookup id = some s

theorem lookup_remove {m : SessionManager} {id : Nat} {sessionId : Nat}
    (h : (m.remove sessionId).sessions.lookup id = some s) : m.sessions.lookup id = some s := by
  unfold SessionManager.remove at h
  by_cases hid : id = sessionId
  · subst hid
    rw [AList.lookup_erase] at h
    exact absurd h (by simp)
  · rwa [AList.lookup_erase_ne hid] at h

theorem recordsKept_disconnect (c : Connections) (s : SessionRef) :
    RecordsKept c (c.disconnect s) := by
  refine ⟨?_, fun t ht => ?_, fun id t h => ?_⟩
  · unfold Connections.disconnect
    split <;> rfl
  · unfold Connections.disconnect
    split
    · exact ht
    · exact Connections.down_world ht s
  · unfold Connections.disconnect at h
    split at h <;> exact h

theorem recordsKept_next (hadd : a.isAdd = false) (h : recordNext c a = some c') :
    RecordsKept c c' := by
  cases a with
  | add => exact absurd hadd (by simp [RecordAction.isAdd])
  | consumeToken s token =>
    obtain ⟨-, rfl⟩ := of_guard h
    cases token <;> exact ⟨rfl, fun _ ht => ht, fun _ _ h => h⟩
  | reject s =>
    obtain ⟨-, rfl⟩ := of_guard h
    exact ⟨rfl, fun _ ht => Connections.down_world ht s, fun _ _ h => h⟩
  | drop s =>
    obtain ⟨-, rfl⟩ := of_guard h
    exact ⟨rfl, fun _ ht => ht, fun _ _ h => lookup_remove h⟩
  | countIn s =>
    obtain ⟨-, rfl⟩ := of_guard h
    exact ⟨rfl, fun _ ht => ht, fun _ _ h => h⟩
  | disconnect s =>
    obtain ⟨-, rfl⟩ := of_guard h
    exact recordsKept_disconnect c s
  | countOut s =>
    obtain ⟨-, rfl⟩ := of_guard h
    exact ⟨rfl, fun _ ht => ht, fun _ _ h => h⟩
  | remove s =>
    obtain ⟨-, rfl⟩ := of_guard h
    exact ⟨rfl, fun _ ht => ht, fun _ _ h => lookup_remove h⟩
  | post s =>
    obtain ⟨-, rfl⟩ := of_guard h
    unfold Connections.post
    split <;> exact ⟨rfl, fun _ ht => ht, fun _ _ h => h⟩
  | wsaSend i fails =>
    simp only [recordNext] at h
    split at h
    · exact absurd h (by simp)
    · rename_i s hposting
      obtain rfl := Option.some.inj h
      cases fails with
      | false => exact ⟨rfl, fun _ ht => ht, fun _ _ h => h⟩
      | true => exact ⟨rfl, fun _ ht => Connections.down_world ht s, fun _ _ h => h⟩

theorem mem_getAll {m : SessionManager} {order : Reorder Nat} :
    s ∈ m.getAll order ↔ ∃ id, m.sessions.lookup id = some s := by
  unfold SessionManager.getAll
  rw [List.mem_filterMap]
  constructor
  · rintro ⟨id, -, h⟩
    exact ⟨id, h⟩
  · rintro ⟨id, h⟩
    refine ⟨id, Reorder.mem_apply order |>.mpr ?_, h⟩
    exact AList.mem_keys.mpr (AList.lookup_isSome.mp (by rw [h]; rfl))

end

/-! ## What the log says -/

/-- Every test comes out positive exactly when the session has not been active for the timeout. -/
def TestsExact (timeoutMs : Int) (log : List TimeoutEvent) : Prop :=
  ∀ before after s now timedOut, log = before ++ .tested s now timedOut :: after →
    (timedOut = true ↔ ∀ t, .active s t ∈ before → t + timeoutMs < now)

/-- The thread disconnects a session only behind a positive test. -/
def DisconnectsTested (log : List TimeoutEvent) : Prop :=
  ∀ before after s, log = before ++ .disconnects s :: after → ∃ now, .tested s now true ∈ before

section

variable {timeoutMs : Int} {log before after : List TimeoutEvent} {e x : TimeoutEvent}
  {st st' : Timeouts} {action : TimeoutAction} {s : SessionRef}

theorem split_snoc (h : log ++ [e] = before ++ x :: after) :
    (before = log ∧ x = e) ∨ ∃ after', log = before ++ x :: after' := by
  rcases List.eq_nil_or_concat after with rfl | ⟨after', last, rfl⟩
  · obtain ⟨rfl, hx⟩ := List.append_inj' h rfl
    exact Or.inl ⟨rfl, (List.cons.inj hx).1.symm⟩
  · refine Or.inr ⟨after', ?_⟩
    have hassoc : before ++ x :: (after' ++ [last]) = (before ++ x :: after') ++ [last] := by
      simp
    rw [List.concat_eq_append, hassoc] at h
    exact (List.append_inj' h rfl).1

theorem testsExact_snoc (h : TestsExact timeoutMs log)
    (he : ∀ s now timedOut, e = .tested s now timedOut →
      (timedOut = true ↔ ∀ t, .active s t ∈ log → t + timeoutMs < now)) :
    TestsExact timeoutMs (log ++ [e]) := by
  intro before after s now timedOut hsplit
  rcases split_snoc hsplit with ⟨rfl, hlast⟩ | ⟨after', hbefore⟩
  · exact he s now timedOut hlast.symm
  · exact h before after' s now timedOut hbefore

theorem disconnectsTested_snoc (h : DisconnectsTested log)
    (he : ∀ s, e = .disconnects s → ∃ now, .tested s now true ∈ log) :
    DisconnectsTested (log ++ [e]) := by
  intro before after s hsplit
  rcases split_snoc hsplit with ⟨rfl, hlast⟩ | ⟨after', hbefore⟩
  · exact he s hlast.symm
  · exact h before after' s hbefore

/-! ## The invariant -/

/-- **The invariant**: the times are those of the last activities; the tests are exact; and of the
sessions in the pass, all that are behind are disconnected, or have been active. -/
structure Watched (timeoutMs : Int) (st : Timeouts) : Prop where
  stamps : ∀ s t, .active s t ∈ st.log → t ≤ st.lastActivityMs s
  last : ∀ s < st.conns.nextSession, .active s (st.lastActivityMs s) ∈ st.log
  mapped : ∀ id s, st.conns.sessionManager.sessions.lookup id = some s → s < st.conns.nextSession
  known : ∀ s ∈ st.snapshot, s < st.conns.nextSession
  pending : ∀ s ∈ st.stage.left, s ∈ st.snapshot
  began : st.began ≤ st.clock
  testing : ∀ s now rest, st.stage = .testing s now rest → st.began ≤ now
  swept : ∀ s ∈ st.snapshot,
    s ∈ st.stage.left ∨ st.conns.Down s ∨ st.began ≤ st.lastActivityMs s + timeoutMs
  positive : ∀ s rest, st.stage = .disconnecting s rest → ∃ now, .tested s now true ∈ st.log
  tests : TestsExact timeoutMs st.log
  disconnects : DisconnectsTested st.log

theorem watched_start (timeoutMs : Int) : Watched timeoutMs .start where
  stamps s t h := absurd h List.not_mem_nil
  last s hs := absurd hs (Nat.not_lt_zero s)
  mapped id s h := absurd h (by simp [Timeouts.start, Connections.empty, Server.empty])
  known s hs := absurd hs List.not_mem_nil
  pending s hs := absurd hs List.not_mem_nil
  began := le_refl 0
  testing s now rest h := absurd h (by simp [Timeouts.start])
  swept s hs := absurd hs List.not_mem_nil
  positive s rest h := absurd h (by simp [Timeouts.start])
  tests before after s now timedOut h := absurd h (by simp [Timeouts.start])
  disconnects before after s h := absurd h (by simp [Timeouts.start])

/-- An activity, of a session that is there or is added by the step. -/
theorem Watched.active (h : Watched timeoutMs st) {conns : Connections} {now : Int}
    (hnow : st.lastActivityMs s ≤ now) (hle : st.conns.nextSession ≤ conns.nextSession)
    (hnew : ∀ t < conns.nextSession, t = s ∨ t < st.conns.nextSession)
    (hdown : ∀ t < st.conns.nextSession, st.conns.Down t → conns.Down t)
    (hmapped : ∀ id t, conns.sessionManager.sessions.lookup id = some t → t < conns.nextSession) :
    Watched timeoutMs ({ st with conns := conns }.updateActivity s now) := by
  have hlast : ∀ t, st.lastActivityMs t ≤ Function.update st.lastActivityMs s now t := by
    intro t
    by_cases hts : t = s
    · subst hts
      rw [Function.update_self]
      exact hnow
    · rw [Function.update_of_ne hts]
  refine ⟨fun t time ht => ?_, fun t ht => ?_, hmapped,
    fun t ht => (h.known t ht).trans_le hle, h.pending, h.began.trans (le_max_left _ _), h.testing,
    fun t ht => ?_, fun t rest hstage => ?_, ?_, ?_⟩
  · rcases List.mem_append.mp ht with hold | hnow'
    · exact (h.stamps t time hold).trans (hlast t)
    · obtain ⟨rfl, rfl⟩ := TimeoutEvent.active.inj (List.mem_singleton.mp hnow')
      change time ≤ Function.update st.lastActivityMs t time t
      rw [Function.update_self]
  · change .active t (Function.update st.lastActivityMs s now t) ∈ st.log ++ [.active s now]
    by_cases hts : t = s
    · subst hts
      rw [Function.update_self]
      exact List.mem_append_right _ List.mem_cons_self
    · rw [Function.update_of_ne hts]
      exact List.mem_append_left _ (h.last t ((hnew t ht).resolve_left hts))
  · rcases h.swept t ht with hleft | hdisconnected | hactive
    · exact Or.inl hleft
    · exact Or.inr (Or.inl (hdown t (h.known t ht) hdisconnected))
    · exact Or.inr (Or.inr (hactive.trans (Int.add_le_add_right (hlast t) timeoutMs)))
  · obtain ⟨time, htime⟩ := h.positive t rest hstage
    exact ⟨time, List.mem_append_left _ htime⟩
  · exact testsExact_snoc h.tests fun t time timedOut he => absurd he (by simp)
  · exact disconnectsTested_snoc h.disconnects fun t he => absurd he (by simp)

/-- Another thread moves the records. -/
theorem Watched.records (h : Watched timeoutMs st) {conns : Connections}
    (hkept : RecordsKept st.conns conns) : Watched timeoutMs { st with conns := conns } where
  stamps := h.stamps
  last t ht := h.last t (hkept.nextSession ▸ ht)
  mapped id t ht := hkept.nextSession ▸ h.mapped id t (hkept.sessions id t ht)
  known t ht := hkept.nextSession ▸ h.known t ht
  pending := h.pending
  began := h.began
  testing := h.testing
  swept t ht := (h.swept t ht).imp id (Or.imp (hkept.down t) id)
  positive := h.positive
  tests := h.tests
  disconnects := h.disconnects

/-- The heartbeat thread goes on to another stage, with no event. -/
theorem Watched.stage (h : Watched timeoutMs st) {stage : HeartbeatStage} {now : Int}
    (hnow : st.clock ≤ now) (hleft : ∀ s ∈ stage.left, s ∈ st.stage.left)
    (hbehind : ∀ s ∈ st.stage.left, s ∉ stage.left → st.conns.Down s)
    (htesting : ∀ s time rest, stage = .testing s time rest → st.began ≤ time)
    (hpositive : ∀ s rest, stage ≠ .disconnecting s rest) :
    Watched timeoutMs { st with clock := now, stage := stage } where
  stamps := h.stamps
  last := h.last
  mapped := h.mapped
  known := h.known
  pending t ht := h.pending t (hleft t ht)
  began := h.began.trans hnow
  testing := htesting
  swept t ht := by
    by_cases hstill : t ∈ stage.left
    · exact Or.inl hstill
    · rcases h.swept t ht with hin | hother
      · exact Or.inr (Or.inl (hbehind t hin hstill))
      · exact Or.inr hother
  positive t rest hstage := absurd hstage (hpositive t rest)
  tests := h.tests
  disconnects := h.disconnects

/-- **The test**: it finds the last activity. -/
theorem Watched.test (h : Watched timeoutMs st) {now : Int} {rest : List SessionRef}
    (hstage : st.stage = .testing s now rest) : Watched timeoutMs
      { st with
        stage := if decide (timeoutMs < now - st.lastActivityMs s) then .disconnecting s rest
          else .checking rest
        log := st.log ++ [.tested s now (decide (timeoutMs < now - st.lastActivityMs s))] } := by
  have hpending : ∀ t ∈ s :: rest, t ∈ st.snapshot := by
    have hall := h.pending
    rwa [hstage] at hall
  have hknown := h.known s (hpending s List.mem_cons_self)
  have hbegan := h.testing s now rest hstage
  have hswept := h.swept
  rw [hstage] at hswept
  have hactive : ∀ t time, .active t time ∈ st.log ++
      [.tested s now (decide (timeoutMs < now - st.lastActivityMs s))] →
      .active t time ∈ st.log := by
    intro t time ht
    rcases List.mem_append.mp ht with hold | hnew
    · exact hold
    · exact absurd (List.mem_singleton.mp hnew) (by simp)
  refine ⟨fun t time ht => h.stamps t time (hactive t time ht),
    fun t ht => List.mem_append_left _ (h.last t ht), h.mapped, h.known, ?_, h.began,
    ?_, ?_, ?_, ?_, ?_⟩
  · intro t ht
    by_cases hout : timeoutMs < now - st.lastActivityMs s
    · simp only [hout, decide_true, if_true] at ht
      exact hpending t ht
    · simp only [hout, decide_false] at ht
      exact hpending t (List.mem_cons_of_mem s ht)
  · intro t time rest' hnew
    by_cases hout : timeoutMs < now - st.lastActivityMs s
    · simp [hout] at hnew
    · simp [hout] at hnew
  · intro t ht
    by_cases hout : timeoutMs < now - st.lastActivityMs s
    · simp only [hout, decide_true, if_true]
      exact hswept t ht
    · simp only [hout, decide_false]
      rcases hswept t ht with hleft | hother
      · rcases List.mem_cons.mp hleft with rfl | hrest
        · -- it has been active since the timeout before the clock was read
          refine Or.inr (Or.inr ?_)
          omega
        · exact Or.inl hrest
      · exact Or.inr hother
  · intro t rest' hnew
    by_cases hout : timeoutMs < now - st.lastActivityMs s
    · simp only [hout, decide_true, if_true, HeartbeatStage.disconnecting.injEq] at hnew
      obtain ⟨rfl, -⟩ := hnew
      exact ⟨now, by simp [hout]⟩
    · simp [hout] at hnew
  · refine testsExact_snoc h.tests fun t time timedOut he => ?_
    obtain ⟨rfl, rfl, rfl⟩ := TimeoutEvent.tested.inj he
    rw [decide_eq_true_eq]
    constructor
    · intro hout time htime
      have hstamp := h.stamps _ time htime
      omega
    · intro hall
      have hlast := hall _ (h.last _ hknown)
      omega
  · exact disconnectsTested_snoc h.disconnects fun t he => absurd he (by simp)

theorem Watched.disconnect (h : Watched timeoutMs st) {rest : List SessionRef}
    (hstage : st.stage = .disconnecting s rest) : Watched timeoutMs
      { st with
        conns := st.conns.disconnect s
        stage := if st.conns.Down s then .checking rest else .closing s rest
        log := st.log ++ [.disconnects s] } := by
  have hkept := recordsKept_disconnect st.conns s
  have hleft : (if st.conns.Down s then HeartbeatStage.checking rest
      else .closing s rest).left = rest := by
    split <;> rfl
  have hpending : ∀ t ∈ s :: rest, t ∈ st.snapshot := by
    have hall := h.pending
    rwa [hstage] at hall
  have hswept := h.swept
  rw [hstage] at hswept
  refine ⟨fun t time ht => ?_, fun t ht => ?_, fun id t ht => ?_, fun t ht => ?_,
    fun t ht => ?_, h.began, fun t time rest' hnew => ?_, fun t ht => ?_, fun t rest' hnew => ?_,
    ?_, ?_⟩
  · rcases List.mem_append.mp ht with hold | hnew
    · exact h.stamps t time hold
    · exact absurd (List.mem_singleton.mp hnew) (by simp)
  · exact List.mem_append_left _ (h.last t (hkept.nextSession ▸ ht))
  · exact hkept.nextSession ▸ h.mapped id t (hkept.sessions id t ht)
  · exact hkept.nextSession ▸ h.known t ht
  · rw [hleft] at ht
    exact hpending t (List.mem_cons_of_mem s ht)
  · split at hnew <;> exact absurd hnew (by simp)
  · rw [hleft]
    rcases hswept t ht with hin | hdown | hactive
    · rcases List.mem_cons.mp hin with rfl | hrest
      · exact Or.inr (Or.inl (Connections.down_behind st.conns t))
      · exact Or.inl hrest
    · exact Or.inr (Or.inl (hkept.down t hdown))
    · exact Or.inr (Or.inr hactive)
  · split at hnew <;> exact absurd hnew (by simp)
  · exact testsExact_snoc h.tests fun t time timedOut he => absurd he (by simp)
  · refine disconnectsTested_snoc h.disconnects fun t he => ?_
    obtain rfl := TimeoutEvent.disconnects.inj he
    exact h.positive s rest hstage

theorem Watched.accept (h : Watched timeoutMs st) {now : Int}
    (hnow : st.lastActivityMs st.conns.nextSession ≤ now) :
    Watched timeoutMs
      ({ st with conns := st.conns.add }.updateActivity st.conns.nextSession now) := by
  refine h.active hnow (Nat.le_succ _) (fun t ht => Nat.lt_succ_iff_lt_or_eq.mp ht |>.symm)
    (fun t ht hdown => ?_) fun id t hlookup => ?_
  · unfold Connections.Down
    rwa [Connections.session_add_ne ht.ne]
  · change AList.lookup id (st.conns.sessionManager.sessions.insert _ st.conns.nextSession) = some t
      at hlookup
    by_cases hid : id = st.conns.sessionManager.nextSessionId
    · rw [hid, AList.lookup_insert] at hlookup
      obtain rfl := Option.some.inj hlookup
      exact Nat.lt_succ_self _
    · rw [AList.lookup_insert_ne hid] at hlookup
      exact Nat.lt_succ_of_lt (h.mapped id t hlookup)

/-- A pass begins. -/
theorem Watched.getAll (h : Watched timeoutMs st) {order : Reorder Nat} {now : Int} :
    Watched timeoutMs { st with
      clock := now
      stage := .checking (st.conns.sessionManager.getAll order)
      began := now
      snapshot := st.conns.sessionManager.getAll order } where
  stamps := h.stamps
  last := h.last
  mapped := h.mapped
  known t ht := by
    obtain ⟨id, hlookup⟩ := mem_getAll.mp ht
    exact h.mapped id t hlookup
  pending t ht := ht
  began := le_refl now
  testing t time rest hstage := absurd hstage (by simp)
  swept t ht := Or.inl ht
  positive t rest hstage := absurd hstage (by simp)
  tests := h.tests
  disconnects := h.disconnects

theorem watched_next (h : Watched timeoutMs st)
    (hnext : timeoutNext timeoutMs st action = some st') : Watched timeoutMs st' := by
  cases action with
  | accept now =>
    obtain ⟨hnow, rfl⟩ := of_guard hnext
    exact h.accept hnow
  | record a =>
    simp only [timeoutNext] at hnext
    split at hnext
    · exact absurd hnext (by simp)
    · rename_i hadd
      obtain ⟨conns, hconns, rfl⟩ := Option.map_eq_some_iff.mp hnext
      exact h.records (recordsKept_next (Bool.eq_false_iff.mpr hadd) hconns)
  | receive s now =>
    obtain ⟨⟨⟨hs, -⟩, hnow⟩, rfl⟩ := of_guard hnext
    exact h.active hnow (le_refl _) (fun t ht => Or.inr ht) (fun t _ hdown => hdown) h.mapped
  | getAll order now =>
    simp only [timeoutNext] at hnext
    split at hnext
    · obtain ⟨-, rfl⟩ := of_guard hnext
      exact h.getAll
    · exact absurd hnext (by simp)
  | readClock now =>
    simp only [timeoutNext] at hnext
    split at hnext
    · rename_i s rest hstage
      obtain ⟨hnow, rfl⟩ := of_guard hnext
      refine h.stage hnow (fun t ht => ?_) (fun t ht hnot => ?_) (fun t time rest' hnew => ?_)
        fun t rest' => by simp
      · rw [hstage]
        exact ht
      · rw [hstage] at ht
        exact absurd ht hnot
      · obtain ⟨-, rfl, -⟩ := HeartbeatStage.testing.inj hnew
        exact h.began.trans hnow
    · exact absurd hnext (by simp)
  | load =>
    simp only [timeoutNext] at hnext
    split at hnext
    · rename_i s now rest hstage
      obtain rfl := Option.some.inj hnext
      exact h.test hstage
    · exact absurd hnext (by simp)
  | disconnect =>
    simp only [timeoutNext] at hnext
    split at hnext
    · rename_i s rest hstage
      obtain rfl := Option.some.inj hnext
      exact h.disconnect hstage
    · exact absurd hnext (by simp)
  | disconnected =>
    simp only [timeoutNext] at hnext
    split at hnext
    · rename_i s rest hstage
      obtain ⟨-, rfl⟩ := of_guard hnext
      refine h.stage (le_refl _) (fun t ht => ?_) (fun t ht hnot => ?_)
        (fun t time rest' => by simp) fun t rest' => by simp
      · rw [hstage]
        exact ht
      · rw [hstage] at ht
        exact absurd ht hnot
    · exact absurd hnext (by simp)
  | sleep now =>
    simp only [timeoutNext] at hnext
    split at hnext
    · rename_i hstage
      obtain ⟨hnow, rfl⟩ := of_guard hnext
      refine h.stage hnow (fun t ht => absurd ht List.not_mem_nil) (fun t ht _ => ?_)
        (fun t time rest' => by simp) fun t rest' => by simp
      rw [hstage] at ht
      exact absurd ht List.not_mem_nil
    · exact absurd hnext (by simp)

/-! ## Runs -/

/-- Within a pass. -/
theorem pass_next (hno : action.isGetAll = false)
    (hnext : timeoutNext timeoutMs st action = some st') :
    st'.began = st.began ∧ st'.snapshot = st.snapshot := by
  cases action with
  | accept now =>
    obtain ⟨-, rfl⟩ := of_guard hnext
    exact ⟨rfl, rfl⟩
  | record a =>
    simp only [timeoutNext] at hnext
    split at hnext
    · exact absurd hnext (by simp)
    · obtain ⟨conns, -, rfl⟩ := Option.map_eq_some_iff.mp hnext
      exact ⟨rfl, rfl⟩
  | receive s now =>
    obtain ⟨-, rfl⟩ := of_guard hnext
    exact ⟨rfl, rfl⟩
  | getAll order now => exact absurd hno (by simp [TimeoutAction.isGetAll])
  | load | disconnect =>
    simp only [timeoutNext] at hnext
    split at hnext
    · obtain rfl := Option.some.inj hnext
      exact ⟨rfl, rfl⟩
    · exact absurd hnext (by simp)
  | readClock now | sleep now | disconnected =>
    simp only [timeoutNext] at hnext
    split at hnext
    · obtain ⟨-, rfl⟩ := of_guard hnext
      exact ⟨rfl, rfl⟩
    · exact absurd hnext (by simp)

end

section

variable {timeoutMs now wakeMs : Int} {order : Reorder Nat} {st st' : Timeouts}
  {before pass : List TimeoutAction}

/-- **Timeouts are exact.** However the threads take turns, every test of the heartbeat thread comes
out positive exactly when the session has not been active for the timeout before the clock was read,
and the thread disconnects no session but behind such a test. And when a pass is over, every session
that was in the map as the pass began is disconnected, or has been active since the timeout before
it began. -/
theorem timeouts_exact (hbefore : run (timeoutNext timeoutMs) .start before = some st)
    (hpass : run (timeoutNext timeoutMs) st (.getAll order now :: pass) = some st')
    (hno : ∀ action ∈ pass, action.isGetAll = false) (hover : st'.stage = .asleep wakeMs) :
    TestsExact timeoutMs st'.log ∧ DisconnectsTested st'.log ∧
      ∀ id s, st.conns.sessionManager.sessions.lookup id = some s →
        st'.conns.Down s ∨ ∃ t, .active s t ∈ st'.log ∧ now ≤ t + timeoutMs := by
  have h : Watched timeoutMs st :=
    run_preserves (I := Watched timeoutMs) (fun _ _ _ hi hnext => watched_next hi hnext)
      (watched_start timeoutMs) hbefore
  obtain ⟨began, hbegan, hrest⟩ := run_cons_inv hpass
  have hstart := watched_next h hbegan
  have h' : Watched timeoutMs st' :=
    run_preserves (I := Watched timeoutMs) (fun _ _ _ hi hnext => watched_next hi hnext) hstart
      hrest
  -- the pass is the one that began
  have hsame : st'.began = began.began ∧ st'.snapshot = began.snapshot := by
    refine run_invariant (C := fun _ action => True ∧ action.isGetAll = false)
      (I := fun st => st.began = began.began ∧ st.snapshot = began.snapshot)
      (fun _ _ _ hi hc hnext => ?_) ⟨rfl, rfl⟩
      (along_and_mem (along_of_forall (fun _ _ => trivial) _ _) hno) hrest
    have hkeeps := pass_next hc.2 hnext
    exact ⟨hkeeps.1.trans hi.1, hkeeps.2.trans hi.2⟩
  refine ⟨h'.tests, h'.disconnects, fun id s hlookup => ?_⟩
  have htaken : began.began = now ∧ began.snapshot = st.conns.sessionManager.getAll order := by
    simp only [timeoutNext] at hbegan
    split at hbegan
    · obtain ⟨-, rfl⟩ := of_guard hbegan
      exact ⟨rfl, rfl⟩
    · exact absurd hbegan (by simp)
  have hmem : s ∈ st'.snapshot := by
    rw [hsame.2, htaken.2]
    exact mem_getAll.mpr ⟨id, hlookup⟩
  rcases h'.swept s hmem with hleft | hdown | hactive
  · rw [hover] at hleft
    exact absurd hleft List.not_mem_nil
  · exact Or.inl hdown
  · rw [hsame.1, htaken.1] at hactive
    exact Or.inr ⟨_, h'.last s (h'.known s hmem), hactive⟩

/-- Two sessions come. -/
def twoCome : List TimeoutAction :=
  [.accept 0, .record (.consumeToken 0 true), .record (.countIn 0), .accept 100,
    .record (.consumeToken 1 true), .record (.countIn 1)]

/-- The second one is active as it is tested, and the first one times out. -/
def oneTimesOut : List TimeoutAction :=
  [.readClock 31000, .receive 1 31001, .load, .readClock 31002, .load, .disconnect,
    .record (.countOut 0), .record (.remove 0), .disconnected, .sleep 31003]

theorem timeouts_oneTimesOut :
    ∃ st, run (timeoutNext 30000) .start twoCome = some st ∧
      ∃ st', run (timeoutNext 30000) st (.getAll .none 31000 :: oneTimesOut) = some st' ∧
        TestsExact 30000 st'.log ∧ DisconnectsTested st'.log ∧
        ∀ id s, st.conns.sessionManager.sessions.lookup id = some s →
          st'.conns.Down s ∨ ∃ t, .active s t ∈ st'.log ∧ 31000 ≤ t + 30000 := by
  obtain ⟨st, hbefore, st', hpass, hover⟩ :
      ∃ st, run (timeoutNext 30000) .start twoCome = some st ∧
        ∃ st', run (timeoutNext 30000) st (.getAll .none 31000 :: oneTimesOut) = some st' ∧
          st'.stage = .asleep 36003 := by
    decide +kernel
  exact ⟨st, hbefore, st', hpass, timeouts_exact hbefore hpass (by decide) hover⟩

end

end RealtimeServer
