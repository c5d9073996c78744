import RealtimeServer.Utils.AuthWorkers

/-!
# The logger, and stopping it and the auth service

Model of `Log`, `Shutdown` and `WorkerLoop` of `Logger` (`Utils/Logger.h`) as a program for the
threads of `Lib/Monitor`, with one worker, next to the auth service of `Utils/AuthWorkers`. Both set
`m_running` to false without the mutex their workers test it under.

* **`stop_stuck_iff`**: `Stop` and `Shutdown` never wait for a worker that sleeps on for good, in
  the runs in which every `notify_all` is heard; and one that is not heard can leave them waiting.
* `stop_stuck`: the worker has tested the flag, the flag goes down and everyone is notified, and
  then the worker goes to sleep.
-/

namespace RealtimeServer

open Guarded
open Monitor (Entry Outcome Program Pool Thread Heard)

/-- `LogLevel`. -/
inductive LogLevel
  | info | warn | error
  deriving DecidableEq

/-- `Logger::Entry`. -/
structure LogEntry where
  level : LogLevel
  text : Bytes
  deriving DecidableEq

/-- Where the worker is behind its `wait`. -/
inductive LogWork
  /-- With the mutex, about to swap the queue for an empty one. -/
  | behindWait
  /-- With the mutex still. -/
  | swapped (batch : List (Entry LogEntry))
  /-- Writing what it has. -/
  | writing (batch : List (Entry LogEntry))
  /-- The flag is down; about to lock the mutex again. -/
  | locking
  /-- With the mutex, about to look for messages that are left. -/
  | checking
  /-- With the mutex still, out of the loop. -/
  | leaving
  /-- With the mutex still, at the end of the loop. -/
  | looping
  deriving DecidableEq

inductive LogEvent
  /-- The worker writes an entry: to `cerr` or `cout`, and to the file where there is one. -/
  | wrote (entry : LogEntry)
  deriving DecidableEq

namespace LogWork

def holds : LogWork → Bool
  | behindWait | swapped _ | checking | leaving | looping => true
  | writing _ | locking => false

/-- `WorkerLoop` behind its `wait`. -/
def step (work : LogWork) (queue : List (Entry LogEntry)) (running : Bool) (_input : Unit) :
    Option (Outcome LogEntry LogWork LogEvent) :=
  match work with
  | behindWait => some ⟨.work (swapped queue), [], []⟩
  | swapped batch => some ⟨.work (writing batch), queue, []⟩
  | writing (entry :: batch) => some ⟨.work (writing batch), queue, [.wrote entry.2]⟩
  | writing [] => some ⟨if running then .again else .work locking, queue, []⟩
  | locking => some ⟨.work checking, queue, []⟩
  | checking => some ⟨.work (if queue = [] then leaving else looping), queue, []⟩
  | leaving => some ⟨.exit, queue, []⟩
  | looping => some ⟨.again, queue, []⟩

end LogWork

/-- `Logger::WorkerLoop`. -/
def logProgram : Program LogEntry LogWork LogEvent Unit where
  behindWait := .behindWait
  holds := LogWork.holds
  step := LogWork.step
  holds_behindWait := rfl
  guarded := by
    intro work queue running input outcome hstep hfree
    cases work with
    | writing batch =>
      cases batch with
      | nil =>
        obtain rfl := Option.some.inj hstep
        rfl
      | cons entry batch =>
        obtain rfl := Option.some.inj hstep
        rfl
    | locking =>
      obtain rfl := Option.some.inj hstep
      rfl
    | _ => exact absurd hfree (by simp [LogWork.holds])

/-- The logger with its threads. -/
abbrev LogPool := Pool LogEntry LogWork LogEvent

abbrev LogAction := Monitor.Action LogEntry Unit

/-- A step of it. -/
abbrev logNext : LogPool → LogAction → Option LogPool := Monitor.next logProgram

/-- A step of the auth service or of the logger. -/
abbrev servicesNext : AuthPool × LogPool → AuthAction ⊕ LogAction → Option (AuthPool × LogPool) :=
  both authNext logNext

/-- Every `notify_all`, of `Stop` and of `Shutdown`, finds no worker between its test and its
sleep. -/
abbrev StopsHeard : AuthPool × LogPool → AuthAction ⊕ LogAction → Prop := Each Heard Heard

/-- **Stopping and the lost wake-up**: in every run of the auth service with any number of workers,
of the logger, and of the threads that use and stop them, `Stop` and `Shutdown` wait for no worker
that is asleep with nobody left to wake it, where every `notify_all` is heard; and a `notify_all`
that is not heard can leave them waiting so. -/
theorem stop_stuck_iff {workers : ℕ} {steps : List (AuthAction ⊕ LogAction)}
    {st : AuthPool × LogPool}
    (hrun : run servicesNext (.start workers, .start 1) steps = some st) :
    (Along servicesNext StopsHeard (.start workers, .start 1) steps →
        ¬ st.1.Stuck ∧ ¬ st.2.Stuck) ∧
      ∀ step, ¬ StopsHeard st step → ∃ more st', run servicesNext st (step :: more) = some st' ∧
        (st'.1.Stuck ∨ st'.2.Stuck) := by
  constructor
  · intro hc
    have halert : Monitor.Alert st.1 ∧ Monitor.Alert st.2 :=
      both_invariant (fun _ _ _ h hc hnext => Monitor.alert_next h hc hnext)
        (fun _ _ _ h hc hnext => Monitor.alert_next h hc hnext) (Monitor.alert_start workers)
        (Monitor.alert_start 1) hc hrun
    exact ⟨Monitor.not_stuck_of_alert halert.1, Monitor.not_stuck_of_alert halert.2⟩
  · intro step hunheard
    have hlocks : Monitor.Exclusive authProgram st.1 ∧ Monitor.Exclusive logProgram st.2 :=
      both_invariant (C := fun _ _ => True) (D := fun _ _ => True)
        (fun _ _ _ h _ hnext => Monitor.exclusive_next h hnext)
        (fun _ _ _ h _ hnext => Monitor.exclusive_next h hnext)
        (Monitor.exclusive_start workers) (Monitor.exclusive_start 1)
        (along_of_forall (by rintro st (a | a) <;> trivial) _ _) hrun
    cases step with
    | inl action =>
      obtain ⟨actions, auth, hstuck, hauth⟩ :=
        Monitor.stuck_of_unheard ⟨0, []⟩ hlocks.1 hunheard
      exact ⟨actions.map .inl, (auth, st.2), run_both_inl st.2 hstuck, Or.inl hauth⟩
    | inr action =>
      obtain ⟨actions, log, hstuck, hlog⟩ := Monitor.stuck_of_unheard () hlocks.2 hunheard
      exact ⟨actions.map .inr, (st.1, log), run_both_inr st.1 hstuck, Or.inr hlog⟩

/-- Both workers have gone to sleep when the stops begin. -/
def stopAsleep : List (AuthAction ⊕ LogAction) :=
  List.replicate 3 (.inl (.goOn 0 ⟨0, []⟩)) ++ List.replicate 3 (.inr (.goOn 0 ())) ++
    [.inl .stop, .inl .stop, .inr .stop, .inr .stop]

theorem stop_stopAsleep :
    ∃ st, run servicesNext (.start 1, .start 1) stopAsleep = some st ∧
      st.1.stopping = .joining 0 ∧ st.2.stopping = .joining 0 ∧ ¬ st.1.Stuck ∧ ¬ st.2.Stuck := by
  obtain ⟨st, hrun, hauth, hlog⟩ :
      ∃ st, run servicesNext (.start 1, .start 1) stopAsleep = some st ∧
        st.1.stopping = .joining 0 ∧ st.2.stopping = .joining 0 := by decide +kernel
  exact ⟨st, hrun, hauth, hlog, (stop_stuck_iff hrun).1 (by decide +kernel)⟩

/-- The workers test, `Stop` and `Shutdown` take the flags down and notify, and then the workers go
to sleep. -/
def stopUnheard : List (AuthAction ⊕ LogAction) :=
  List.replicate 2 (.inl (.goOn 0 ⟨0, []⟩)) ++ List.replicate 2 (.inr (.goOn 0 ())) ++
    [.inl .stop, .inl .stop, .inr .stop, .inr .stop, .inl (.goOn 0 ⟨0, []⟩), .inr (.goOn 0 ())]

/-- `Stop` and `Shutdown` wait for workers that sleep for good. -/
theorem stop_stuck :
    ∃ st, run servicesNext (.start 1, .start 1) stopUnheard = some st ∧ st.1.Stuck ∧
      st.2.Stuck := by
  decide +kernel

end RealtimeServer
