import RealtimeServer.Lib.Deltas
import RealtimeServer.Lib.Run
import RealtimeServer.Utils.AuthService

/-!
# The heartbeat report

Model of `RegistryThread` (`Core/ServerCore.cpp`) apart from its pull of the policy, which
`Core/TrafficPolicy` has. The counters are atomics of their own that other threads count up, so
every load is a step. A response that never came has status code 0.

* **`conserved_iff`**: what the control plane has been told adds up to the counters as they were
  read for the last report that got through, in exactly the runs whose successful reports all meet
  `Informed`: each counter was last read as the control plane knows it. The thread forgets what a
  failed report carried, so a failed report that found a counter moved breaks it.
* `report_dropped`: one connection, reported in a POST that fails.
-/

namespace RealtimeServer

open Guarded Deltas

/-- The settings of `server.cfg` the report is made with. -/
structure HeartbeatConfig where
  gameServerApiKey : Bytes
  gameServerVersion : Bytes
  maxTotalPlayers : Int

/-- The counters of `ServerStats` the report is made of, and the number of connections. -/
structure HeartbeatStats where
  totalConnections : UInt64
  currentConnections : UInt64
  totalRateLimitRejections : UInt64
  totalOversizedPacketRejections : UInt64

/-- What other threads do to them. -/
inductive Counting
  | connected
  | disconnected
  | rateLimited
  | oversized
  deriving DecidableEq

/-- `STATS_INC`, `STATS_DEC`. -/
def HeartbeatStats.count (stats : HeartbeatStats) : Counting → HeartbeatStats
  | .connected =>
    { stats with
      totalConnections := stats.totalConnections + 1
      currentConnections := stats.currentConnections + 1 }
  | .disconnected => { stats with currentConnections := stats.currentConnections - 1 }
  | .rateLimited =>
    { stats with totalRateLimitRejections := stats.totalRateLimitRejections + 1 }
  | .oversized =>
    { stats with totalOversizedPacketRejections := stats.totalOversizedPacketRejections + 1 }

/-- A report: the totals as they were read, what it says of them, and the text that is posted. -/
structure HeartbeatReport where
  totalConnections : UInt64
  totalRejections : UInt64
  recentConnections : UInt64
  recentRejections : UInt64
  body : Bytes
  deriving DecidableEq

/-- Where `RegistryThread` is in its loop. -/
inductive Reporting
  | sleeping
  /-- It has read the clock and the connections. -/
  | rateLimit (nowMs : Int) (totalConnections : UInt64)
  /-- It has read the first of the rejection counters. -/
  | oversized (nowMs : Int) (totalConnections totalRateLimitRejections : UInt64)
  /-- It has computed what it reports. -/
  | players (nowMs : Int) (totalConnections totalRejections recentConnections
      recentRejections : UInt64)
  /-- In `HttpClient::Post`. -/
  | posting (nowMs : Int) (report : HeartbeatReport)

/-- `RegistryThread` and what it shares. -/
structure Registry where
  stats : HeartbeatStats
  prevTotalConnections : UInt64
  prevTotalRejections : UInt64
  reporting : Reporting
  /-- `m_lastControlPlaneStatusCode`. -/
  lastControlPlaneStatusCode : Int
  /-- `m_lastControlPlaneReportUnixMs`. -/
  lastControlPlaneReportUnixMs : Int
  /-- The reports and their responses, in order; no thread reads it. -/
  reports : List (HeartbeatReport × HttpResponse)

/-- The increase of a counter as `RegistryThread` computes it. -/
def recentCount (prevTotal total : UInt64) : UInt64 :=
  if total ≥ prevTotal then total - prevTotal else total

/-- The text of a report. -/
def heartbeatBody (cfg : HeartbeatConfig) (currentPlayers : Int)
    (recentConnections recentRejections : UInt64) : Bytes :=
  utf8 ("\x7b\"currentPlayers\":" ++ toString currentPlayers ++ ",\"maxPlayers\":" ++
      toString cfg.maxTotalPlayers ++ ",\"version\":\"") ++ cfg.gameServerVersion ++
    utf8 ("\",\"recentConnections\":" ++ toString recentConnections.toNat ++
      ",\"recentRejections\":" ++ toString recentRejections.toNat ++ "\x7d")

namespace Registry

/-- The thread as it starts, with the counters at 0. -/
def start : Registry :=
  { stats := ⟨0, 0, 0, 0⟩
    prevTotalConnections := 0
    prevTotalRejections := 0
    reporting := .sleeping
    lastControlPlaneStatusCode := 0
    lastControlPlaneReportUnixMs := 0
    reports := [] }

section

variable (cfg : HeartbeatConfig) (st : Registry)

/-- The thread wakes up; without an API key it goes back to sleep. -/
def wake (nowMs : Int) : Option Registry :=
  match st.reporting with
  | .sleeping =>
    if cfg.gameServerApiKey = [] then some st
    else some { st with reporting := .rateLimit nowMs st.stats.totalConnections }
  | _ => none

/-- The thread goes on to the next load; `currentPlayers` is an `int`. -/
def goOn : Option Registry :=
  match st.reporting with
  | .sleeping | .posting .. => none
  | .rateLimit nowMs totalConnections =>
    some { st with
      reporting := .oversized nowMs totalConnections st.stats.totalRateLimitRejections }
  | .oversized nowMs totalConnections totalRateLimitRejections =>
    let totalRejections := totalRateLimitRejections + st.stats.totalOversizedPacketRejections
    some { st with
      prevTotalConnections := totalConnections
      prevTotalRejections := totalRejections
      reporting := .players nowMs totalConnections totalRejections
        (recentCount st.prevTotalConnections totalConnections)
        (recentCount st.prevTotalRejections totalRejections) }
  | .players nowMs totalConnections totalRejections recentConnections recentRejections =>
    let currentPlayers := (st.stats.currentConnections.toNat : Int).bmod (2 ^ 32)
    let report : HeartbeatReport :=
      { totalConnections := totalConnections
        totalRejections := totalRejections
        recentConnections := recentConnections
        recentRejections := recentRejections
        body := heartbeatBody cfg currentPlayers recentConnections recentRejections }
    some { st with reporting := .posting nowMs report }

/-- The response comes. It is logged, whether it is `ok` or not. -/
def respond (resp : HttpResponse) : Option Registry :=
  match st.reporting with
  | .posting nowMs report =>
    some { st with
      lastControlPlaneStatusCode := resp.statusCode
      lastControlPlaneReportUnixMs := nowMs
      reporting := .sleeping
      reports := st.reports ++ [(report, resp)] }
  | _ => none

end

end Registry

/-- What happens next. -/
inductive RegistryAction
  | count (counting : Counting)
  | wake (nowMs : Int)
  | goOn
  | respond (resp : HttpResponse)

/-- One step. -/
def registryNext (cfg : HeartbeatConfig) (st : Registry) : RegistryAction → Option Registry
  | .count counting => some { st with stats := st.stats.count counting }
  | .wake nowMs => st.wake cfg nowMs
  | .goOn => st.goOn cfg
  | .respond resp => st.respond resp

/-! ## What the control plane knows -/

/-- The report got through. -/
def GotThrough (report : HeartbeatReport × HttpResponse) : Bool := decide report.2.ok

/-- `totalConnections` as it was read for a report. -/
def connectionsRead (report : HeartbeatReport × HttpResponse) : ℕ :=
  report.1.totalConnections.toNat

/-- The rejection counters as they were read for it. -/
def rejectionsRead (report : HeartbeatReport × HttpResponse) : ℕ := report.1.totalRejections.toNat

/-- The reports that got through add up to the counters as they were read for the last of them. -/
def Registry.Conserved (st : Registry) : Prop :=
  Deltas.Conserved GotThrough connectionsRead
      (fun report => report.1.recentConnections.toNat) st.reports ∧
    Deltas.Conserved GotThrough rejectionsRead
      (fun report => report.1.recentRejections.toNat) st.reports

instance (st : Registry) : Decidable st.Conserved := by
  unfold Registry.Conserved; infer_instance

/-- The control plane knows the counter as it was last read, for whatever report; where the counter
has come round to a smaller value, it knows of nothing. -/
def KnowsLast (read : HeartbeatReport × HttpResponse → ℕ)
    (reports : List (HeartbeatReport × HttpResponse)) (now : ℕ) : Prop :=
  CatchesUp (lastTotal read (reports.filter GotThrough)) (lastTotal read reports) now

instance (read : HeartbeatReport × HttpResponse → ℕ)
    (reports : List (HeartbeatReport × HttpResponse)) (now : ℕ) :
    Decidable (KnowsLast read reports now) := by
  unfold KnowsLast; infer_instance

/-- A report that gets through finds the control plane knowing both counters as they were last
read. -/
def Informed (st : Registry) (action : RegistryAction) : Prop :=
  match action, st.reporting with
  | .respond resp, .posting _ report => resp.ok →
    KnowsLast connectionsRead st.reports report.totalConnections.toNat ∧
      KnowsLast rejectionsRead st.reports report.totalRejections.toNat
  | _, _ => True

instance (st : Registry) (action : RegistryAction) : Decidable (Informed st action) := by
  unfold Informed
  split <;> infer_instance

/-! ## What a step keeps -/

section

variable {cfg : HeartbeatConfig} {st st' : Registry} {action : RegistryAction}

/-- The totals `RegistryThread` compares with are those of its last report. -/
def PrevRead (st : Registry) : Prop :=
  st.prevTotalConnections.toNat = lastTotal connectionsRead st.reports ∧
    st.prevTotalRejections.toNat = lastTotal rejectionsRead st.reports

/-- What a report says of the totals it was made from, behind the earlier reports. -/
def Computed (reports : List (HeartbeatReport × HttpResponse)) (totalConnections totalRejections
    recentConnections recentRejections : UInt64) : Prop :=
  recentConnections.toNat =
      increase (lastTotal connectionsRead reports) totalConnections.toNat ∧
    recentRejections.toNat = increase (lastTotal rejectionsRead reports) totalRejections.toNat

/-- The totals the next report will be compared with. -/
def PrevIs (st : Registry) (totalConnections totalRejections : UInt64) : Prop :=
  st.prevTotalConnections = totalConnections ∧ st.prevTotalRejections = totalRejections

/-- **The invariant**: what the thread carries through a pass of its loop. -/
def RegistrySound (st : Registry) : Prop :=
  match st.reporting with
  | .sleeping | .rateLimit .. | .oversized .. => PrevRead st
  | .players _ totalConnections totalRejections recentConnections recentRejections =>
    PrevIs st totalConnections totalRejections ∧
      Computed st.reports totalConnections totalRejections recentConnections recentRejections
  | .posting _ report =>
    PrevIs st report.totalConnections report.totalRejections ∧
      Computed st.reports report.totalConnections report.totalRejections report.recentConnections
        report.recentRejections

theorem toNat_recentCount (prevTotal total : UInt64) :
    (recentCount prevTotal total).toNat = increase prevTotal.toNat total.toNat := by
  unfold recentCount increase
  by_cases h : prevTotal ≤ total
  · rw [if_pos h, if_pos (UInt64.le_iff_toNat_le.mp h), UInt64.toNat_sub_of_le _ _ h]
  · rw [if_neg h, if_neg (mt UInt64.le_iff_toNat_le.mpr h)]

/-- What a step does to the reports. -/
inductive RegistryActs (st st' : Registry) : RegistryAction → Prop
  | quiet (action : RegistryAction) (reports : st'.reports = st.reports)
      (quiet : ∀ resp, action ≠ .respond resp) : RegistryActs st st' action
  | responds (nowMs : Int) (report : HeartbeatReport) (resp : HttpResponse)
      (posting : st.reporting = .posting nowMs report)
      (reports : st'.reports = st.reports ++ [(report, resp)]) :
      RegistryActs st st' (.respond resp)

theorem registryNext_acts (h : registryNext cfg st action = some st') :
    RegistryActs st st' action := by
  cases action with
  | count counting =>
    obtain rfl := Option.some.inj h
    exact .quiet _ rfl (by simp)
  | wake nowMs =>
    change st.wake cfg nowMs = some st' at h
    unfold Registry.wake at h
    split at h
    · split at h <;> obtain rfl := Option.some.inj h <;> exact .quiet _ rfl (by simp)
    · exact absurd h (by simp)
  | goOn =>
    change st.goOn cfg = some st' at h
    unfold Registry.goOn at h
    split at h
    · exact absurd h (by simp)
    · exact absurd h (by simp)
    all_goals
      obtain rfl := Option.some.inj h
      exact .quiet _ rfl (by simp)
  | respond resp =>
    change st.respond resp = some st' at h
    unfold Registry.respond at h
    split at h
    · rename_i nowMs report hposting
      obtain rfl := Option.some.inj h
      exact .responds nowMs report resp hposting rfl
    · exact absurd h (by simp)

theorem registrySound_start : RegistrySound .start := ⟨rfl, rfl⟩

theorem registrySound_next (hi : RegistrySound st) (h : registryNext cfg st action = some st') :
    RegistrySound st' := by
  unfold RegistrySound at hi
  cases action with
  | count counting =>
    obtain rfl := Option.some.inj h
    unfold RegistrySound
    exact hi
  | wake nowMs =>
    change st.wake cfg nowMs = some st' at h
    unfold Registry.wake at h
    split at h
    · rename_i hsleeping
      rw [hsleeping] at hi
      split at h
      · obtain rfl := Option.some.inj h
        unfold RegistrySound
        rw [hsleeping]
        exact hi
      · obtain rfl := Option.some.inj h
        exact hi
    · exact absurd h (by simp)
  | goOn =>
    change st.goOn cfg = some st' at h
    unfold Registry.goOn at h
    split at h
    · exact absurd h (by simp)
    · exact absurd h (by simp)
    · rename_i hstage
      rw [hstage] at hi
      obtain rfl := Option.some.inj h
      exact hi
    · rename_i hstage
      rw [hstage] at hi
      obtain rfl := Option.some.inj h
      obtain ⟨hconnections, hrejections⟩ := hi
      refine ⟨⟨rfl, rfl⟩, ?_, ?_⟩
      · rw [toNat_recentCount, hconnections]
      · rw [toNat_recentCount, hrejections]
    · rename_i hstage
      rw [hstage] at hi
      obtain rfl := Option.some.inj h
      exact hi
  | respond resp =>
    change st.respond resp = some st' at h
    unfold Registry.respond at h
    split at h
    · rename_i hstage
      rw [hstage] at hi
      obtain rfl := Option.some.inj h
      obtain ⟨⟨hconnections, hrejections⟩, -⟩ := hi
      refine ⟨?_, ?_⟩
      · rw [lastTotal_snoc, hconnections]
        rfl
      · rw [lastTotal_snoc, hrejections]
        rfl
    · exact absurd h (by simp)

/-- **One report**: behind it the books balance exactly if it was lost or found the control plane
informed. -/
theorem registryConserved_next (hsound : RegistrySound st) (hbefore : st.Conserved)
    (h : registryNext cfg st action = some st') : st'.Conserved ↔ Informed st action := by
  cases registryNext_acts h with
  | quiet _ reports quiet =>
    have hinformed : Informed st action := by
      unfold Informed
      split
      · exact absurd rfl (quiet _)
      · trivial
    refine iff_of_true ?_ hinformed
    unfold Registry.Conserved
    rw [reports]
    exact hbefore
  | responds nowMs report resp posting reports =>
    unfold RegistrySound at hsound
    rw [posting] at hsound
    unfold Registry.Conserved Informed
    simp only [posting]
    rw [reports]
    by_cases hok : resp.ok
    · have harrived : GotThrough (report, resp) = true := decide_eq_true hok
      rw [conserved_arrived harrived hbefore.1, conserved_arrived harrived hbefore.2,
        hsound.2.1, hsound.2.2]
      constructor
      · intro hall _
        exact ⟨catchesUp_iff.mp hall.1, catchesUp_iff.mp hall.2⟩
      · intro hinformed
        exact ⟨catchesUp_iff.mpr (hinformed hok).1, catchesUp_iff.mpr (hinformed hok).2⟩
    · have hlost : GotThrough (report, resp) = false := decide_eq_false hok
      rw [conserved_lost hlost, conserved_lost hlost]
      exact iff_of_true hbefore fun h => absurd h hok

/-- **The books of the control plane**: in a run, what the control plane has been told adds up to
the counters after every step exactly if every report that gets through finds it informed. -/
theorem conserved_iff (cfg : HeartbeatConfig) (steps : List RegistryAction) :
    (∀ before st, before <+: steps → run (registryNext cfg) .start before = some st →
        st.Conserved) ↔
      Along (registryNext cfg) Informed .start steps := by
  refine reached_iff_along (J := RegistrySound)
    (fun _ _ _ hsound h => registrySound_next hsound h)
    (fun _ _ _ hsound hbefore h => registryConserved_next hsound hbefore h)
    (fun st action hnone => ?_) registrySound_start ⟨conserved_nil, conserved_nil⟩
  -- a step that cannot be taken is not a response that came
  unfold Informed
  split
  · rename_i hposting
    simp [registryNext, Registry.respond, hposting] at hnone
  · trivial

/-- One pass of the loop, with the response it gets. -/
def reportPass (statusCode : Int) : List RegistryAction :=
  [.wake 0, .goOn, .goOn, .goOn, .respond ⟨statusCode, []⟩]

/-- A failed report that has nothing to tell does no harm. -/
example : Along (registryNext ⟨[107], [49], 100⟩) Informed .start
    ([.count .connected] ++ reportPass 200 ++ reportPass 500 ++ [.count .oversized] ++
      reportPass 200) := by
  decide +kernel

/-- A client connects, the report that tells of it fails, and the next one gets through. -/
def failedReport : List RegistryAction := [.count .connected] ++ reportPass 500 ++ reportPass 200

/-- The control plane never hears of the connection. -/
theorem report_dropped :
    ∃ st, run (registryNext ⟨[107], [49], 100⟩) .start failedReport = some st ∧
      (st.reports.map fun report => (report.1.totalConnections, report.1.recentConnections)) =
        [(1, 1), (1, 0)] ∧ ¬ st.Conserved := by
  decide +kernel

end

end RealtimeServer
