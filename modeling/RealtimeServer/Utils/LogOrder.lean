import RealtimeServer.Lib.TwoRuns
import RealtimeServer.Utils.Logger

/-!
# What the logger writes

The entries go from the callers of `Log` through the queue and the worker's batch to the streams.
Here they are followed on the threads of `Utils/Logger`: any number of callers, one worker, and a
thread in `Shutdown`.

* `pushes`: the entries of a run, in the order in which `Log` pushed them, with their callers.
* `drained_of_run`: what was pushed is written, in the worker's batch, or in the queue.
* **`logged_in_order`**: the worker writes the entries in that order, each once; and when `Shutdown`
  returns, all entries that were pushed before it began are written.
-/

namespace RealtimeServer

open Guarded
open Monitor (Entry Outcome Program Pool Thread)

/-- The entry a step pushes. -/
def pushed (st : LogPool) : LogAction → List (Entry LogEntry)
  | .goOn k _ =>
    match st.threads[k]? with
    | some (.calls entry .locked) => [(k, entry)]
    | _ => []
  | _ => []

/-- What `Log` pushed in a run. -/
def pushes (st : LogPool) (actions : List LogAction) : List (Entry LogEntry) :=
  (trace logNext pushed st actions).flatten

/-- What the worker has written. -/
def written (log : List (ℕ × LogEvent)) : List LogEntry :=
  log.map fun event => match event.2 with | .wrote entry => entry

/-- `batch`, as far as it is not written. -/
def LogWork.batch : LogWork → List (Entry LogEntry)
  | swapped batch | writing batch => batch
  | behindWait | locking | checking | leaving | looping => []

def threadBatch : Thread LogEntry LogWork → List (Entry LogEntry)
  | .works work => work.batch
  | _ => []

/-- The batch of the worker, which is the first thread. -/
def workerBatch (threads : List (Thread LogEntry LogWork)) : List (Entry LogEntry) :=
  (threads[0]?.map threadBatch).getD []

/-- It has seen the flag down. -/
def sawDown : Thread LogEntry LogWork → Bool
  | .works .locking | .works .checking | .works .leaving | .works .looping | .exited => true
  | _ => false

/-- It has left the loop. -/
def leftLoop : Thread LogEntry LogWork → Bool
  | .works .leaving | .exited => true
  | _ => false

/-- **The invariant** of the entries that were pushed up to here. -/
structure Drained (entries : List (Entry LogEntry)) (st : LogPool) : Prop where
  all : written st.log ++ (workerBatch st.threads).map Prod.snd ++ st.queue.map Prod.snd =
    entries.map Prod.snd
  /-- Each call has pushed its entry, unless it is still about to. -/
  calls : ∀ k entry calling, st.threads[k]? = some (.calls entry calling) →
    entries.filter (fun e => e.1 = k) = if calling = .locked then [] else [(k, entry)]
  /-- An entry comes from a call. -/
  named : ∀ e ∈ entries, e.1 < st.threads.length

section

variable {st st' : LogPool} {action : LogAction} {entries : List (Entry LogEntry)} {k : ℕ}
  {old new : Thread LogEntry LogWork}

theorem drained_start : Drained [] (.start 1) where
  all := rfl
  calls k entry calling h := by
    have hwaits := List.eq_of_mem_replicate (List.mem_of_getElem? h)
    exact absurd hwaits (by simp)
  named e he := absurd he List.not_mem_nil

theorem workerBatch_set {threads : List (Thread LogEntry LogWork)} (hold : threads[k]? = some old)
    (hbatch : threadBatch new = threadBatch old) :
    workerBatch (threads.set k new) = workerBatch threads := by
  obtain ⟨hk, -⟩ := List.getElem?_eq_some_iff.mp hold
  unfold workerBatch
  by_cases hzero : k = 0
  · subst hzero
    rw [List.getElem?_set_self hk, hold]
    exact hbatch
  · rw [List.getElem?_set_ne hzero]

theorem calls_set {threads : List (Thread LogEntry LogWork)} (hnew : new.isCall = false)
    {entry : LogEntry} {calling : Monitor.Calling} {j : ℕ}
    (h : (threads.set k new)[j]? = some (.calls entry calling)) :
    threads[j]? = some (.calls entry calling) := by
  obtain ⟨hj, hget⟩ := List.getElem?_eq_some_iff.mp h
  by_cases hjk : k = j
  · subst hjk
    rw [List.getElem_set_self] at hget
    rw [hget] at hnew
    exact absurd hnew (by simp [Thread.isCall])
  · rwa [List.getElem?_set_ne hjk] at h

/-- A thread that is in no call goes on, and carries what it did. -/
theorem Drained.become (h : Drained entries st) (hold : st.threads[k]? = some old)
    (hbatch : threadBatch new = threadBatch old) (hnew : new.isCall = false) :
    Drained entries (st.become k new) where
  all := by
    change _ ++ (workerBatch (st.threads.set k new)).map Prod.snd ++ _ = _
    rw [workerBatch_set hold hbatch]
    exact h.all
  calls j entry calling hj := h.calls j entry calling (calls_set hnew hj)
  named e he := (h.named e he).trans_eq (List.length_set).symm

/-- A call goes on, behind its push. -/
theorem Drained.calling (h : Drained entries st) {entry : LogEntry}
    {calling calling' : Monitor.Calling}
    (hold : st.threads[k]? = some (.calls entry calling))
    (hlocked : calling = .locked ↔ calling' = .locked) :
    Drained entries (st.become k (.calls entry calling')) where
  all := by
    change _ ++ (workerBatch (st.threads.set k (.calls entry calling'))).map Prod.snd ++ _ = _
    have hbatch : threadBatch (.calls entry calling') = threadBatch (.calls entry calling) := rfl
    rw [workerBatch_set hold hbatch]
    exact h.all
  calls j entry' calling'' hj := by
    obtain ⟨hk, -⟩ := List.getElem?_eq_some_iff.mp hold
    by_cases hjk : k = j
    · subst hjk
      obtain ⟨rfl, rfl⟩ := Thread.calls.inj
        (Option.some.inj ((List.getElem?_set_self hk).symm.trans hj))
      rw [h.calls k _ calling hold, if_congr hlocked rfl rfl]
    · exact h.calls j entry' calling'' ((List.getElem?_set_ne hjk).symm.trans hj)
  named e he := (h.named e he).trans_eq (List.length_set).symm

theorem Drained.push (h : Drained entries st) {entry : LogEntry}
    (hold : st.threads[k]? = some (.calls entry .locked)) : Drained (entries ++ [(k, entry)])
      { st.become k (.calls entry .pushed) with queue := st.queue ++ [(k, entry)] } where
  all := by
    change written st.log ++ (workerBatch (st.threads.set k _)).map Prod.snd ++
      (st.queue ++ [(k, entry)]).map Prod.snd = _
    have hbatch : threadBatch (.calls entry .pushed) = threadBatch (.calls entry .locked) := rfl
    rw [workerBatch_set hold hbatch, List.map_append, List.map_append, ← h.all,
      List.append_assoc _ _ (st.queue.map Prod.snd ++ _)]
    simp only [List.append_assoc]
  calls j entry' calling hj := by
    obtain ⟨hk, -⟩ := List.getElem?_eq_some_iff.mp hold
    rw [List.filter_append]
    by_cases hjk : k = j
    · subst hjk
      obtain ⟨rfl, rfl⟩ := Thread.calls.inj
        (Option.some.inj ((List.getElem?_set_self hk).symm.trans hj))
      rw [h.calls k _ .locked hold]
      simp
    · have hrest : ([(k, entry)] : List (Entry LogEntry)).filter (fun e => e.1 = j) = [] := by
        simp [hjk]
      rw [hrest, List.append_nil]
      exact h.calls j entry' calling ((List.getElem?_set_ne hjk).symm.trans hj)
  named e he := by
    obtain ⟨hk, -⟩ := List.getElem?_eq_some_iff.mp hold
    change e.1 < (st.threads.set k _).length
    rw [List.length_set]
    rcases List.mem_append.mp he with he | he
    · exact h.named e he
    · obtain rfl := List.mem_singleton.mp he
      exact hk

/-- **A step of the worker**: what it takes over, and what it writes. -/
theorem Drained.work (h : Drained entries st) {work : LogWork}
    {outcome : Outcome LogEntry LogWork LogEvent} (hold : st.threads[0]? = some (.works work))
    (hstep : LogWork.step work st.queue st.running () = some outcome) :
    Drained entries { st.become 0 (.ofOnward outcome.onward) with
      queue := outcome.queue
      log := st.log ++ outcome.events.map fun event => (0, event) } where
  all := by
    obtain ⟨hlen, -⟩ := List.getElem?_eq_some_iff.mp hold
    have hbefore : workerBatch st.threads = work.batch := by
      unfold workerBatch
      rw [hold]
      rfl
    have hbehind : workerBatch (st.threads.set 0 (.ofOnward outcome.onward)) =
        threadBatch (.ofOnward outcome.onward) := by
      unfold workerBatch
      rw [List.getElem?_set_self hlen]
      rfl
    have hall := h.all
    rw [hbefore] at hall
    change written (st.log ++ _) ++ (workerBatch (st.threads.set 0 _)).map Prod.snd ++
      outcome.queue.map Prod.snd = _
    rw [hbehind, ← hall]
    unfold written
    rw [List.map_append]
    cases work with
    | writing batch =>
      cases batch with
      | nil =>
        obtain rfl := Option.some.inj hstep
        cases st.running <;> simp [Thread.ofOnward, threadBatch, LogWork.batch]
      | cons entry batch =>
        obtain rfl := Option.some.inj hstep
        simp [Thread.ofOnward, threadBatch, LogWork.batch]
    | checking =>
      obtain rfl := Option.some.inj hstep
      cases hqueue : st.queue <;> simp [Thread.ofOnward, threadBatch, LogWork.batch]
    | _ =>
      obtain rfl := Option.some.inj hstep
      simp [Thread.ofOnward, threadBatch, LogWork.batch]
  calls j entry calling hj := by
    have hnew : (Thread.ofOnward outcome.onward : Thread LogEntry LogWork).isCall = false := by
      cases outcome.onward <;> rfl
    exact h.calls j entry calling (calls_set hnew hj)
  named e he := (h.named e he).trans_eq (List.length_set).symm

/-- The worker is the first thread. -/
theorem worker_zero {work : LogWork} (hjoined : Monitor.Joined st) (hworkers : st.workers = 1)
    (hthread : st.threads[k]? = some (.works work)) : k = 0 := by
  by_contra hne
  have hcall := hjoined.callers k _ (by omega) hthread
  exact absurd hcall (by simp [Thread.isCall])

theorem threadBatch_wake (thread : Thread LogEntry LogWork) :
    threadBatch thread.wake = threadBatch thread := by
  cases thread with
  | waits waiting => cases waiting <;> rfl
  | _ => rfl

theorem drained_next (hjoined : Monitor.Joined st) (hworkers : st.workers = 1)
    (h : Drained entries st) (hnext : logNext st action = some st') :
    Drained (entries ++ pushed st action) st' := by
  cases Monitor.acts_next hnext with
  | calls entry free =>
    rw [show pushed st (.call entry) = [] from rfl, List.append_nil]
    have hlen := hjoined.workers
    rw [hworkers] at hlen
    refine ⟨?_, fun j entry' calling hj => ?_, fun e he => ?_⟩
    · change _ ++ (workerBatch (st.threads ++ [_])).map Prod.snd ++ _ = _
      unfold workerBatch
      rw [List.getElem?_append_left (by omega)]
      exact h.all
    · by_cases hold : j < st.threads.length
      · rw [List.getElem?_append_left hold] at hj
        exact h.calls j entry' calling hj
      · rw [List.getElem?_append_right (not_lt.mp hold)] at hj
        obtain ⟨-, rfl⟩ := Thread.calls.inj (List.mem_singleton.mp (List.mem_of_getElem? hj))
        rw [if_pos rfl, List.filter_eq_nil_iff]
        intro e he
        have hnamed := h.named e he
        simp only [decide_eq_true_eq]
        omega
    · rw [List.length_append]
      exact (h.named e he).trans_le (Nat.le_add_right _ _)
  | locks k input waiting thread =>
    simp only [pushed, thread, List.append_nil]
    exact h.become thread rfl rfl
  | fails k input thread =>
    simp only [pushed, thread, List.append_nil]
    exact h.become thread rfl rfl
  | passes k input thread =>
    simp only [pushed, thread, List.append_nil]
    exact h.become thread rfl rfl
  | blocks k input thread =>
    simp only [pushed, thread, List.append_nil]
    exact h.become thread rfl rfl
  | works k input work outcome thread step lock =>
    simp only [pushed, thread, List.append_nil]
    obtain rfl := worker_zero hjoined hworkers thread
    exact h.work thread step
  | pushes k input entry thread =>
    simp only [pushed, thread]
    exact h.push thread
  | unlocks k input entry thread =>
    simp only [pushed, thread, List.append_nil]
    exact h.calling thread (by simp)
  | notifies k j entry thread sleeper =>
    rw [show pushed st (.notifyOne k (some j)) = [] from rfl, List.append_nil]
    have hwoken : Drained entries (st.become j (.waits .woken)) := h.become sleeper rfl rfl
    have hne : j ≠ k := by
      rintro rfl
      rw [thread] at sleeper
      exact absurd sleeper (by simp)
    exact hwoken.calling ((List.getElem?_set_ne hne).trans thread) (by simp)
  | notifiesNone k entry thread =>
    rw [show pushed st (.notifyOne k none) = [] from rfl, List.append_nil]
    exact h.calling thread (by simp)
  | wakes k thread =>
    rw [show pushed st (.wakeUp k) = [] from rfl, List.append_nil]
    exact h.become thread rfl rfl
  | notifiesAll =>
    rw [show pushed st .stop = [] from rfl, List.append_nil]
    refine ⟨?_, fun j entry calling hj => ?_, fun e he => ?_⟩
    · change _ ++ (workerBatch (st.threads.map Thread.wake)).map Prod.snd ++ _ = _
      have hsame : workerBatch (st.threads.map Thread.wake) = workerBatch st.threads := by
        unfold workerBatch
        rw [List.getElem?_map, Option.map_map]
        cases st.threads[0]? with
        | none => rfl
        | some thread => exact threadBatch_wake thread
      rw [hsame]
      exact h.all
    · rw [List.getElem?_map] at hj
      obtain ⟨thread, hthread, hwoken⟩ := Option.map_eq_some_iff.mp hj
      have hcall : thread = .calls entry calling := by
        cases thread with
        | waits waiting => cases waiting <;> exact absurd hwoken (by simp [Thread.wake])
        | calls entry' calling' => exact hwoken
        | _ => exact absurd hwoken (by simp [Thread.wake])
      exact h.calls j entry calling (hcall ▸ hthread)
    · rw [List.length_map]
      exact h.named e he
  | halts =>
    rw [show pushed st .stop = [] from rfl, List.append_nil]
    exact ⟨h.all, h.calls, h.named⟩
  | joins =>
    rw [show pushed st .stop = [] from rfl, List.append_nil]
    exact ⟨h.all, h.calls, h.named⟩
  | joined =>
    rw [show pushed st .stop = [] from rfl, List.append_nil]
    exact ⟨h.all, h.calls, h.named⟩

/-! ## The end of the loop -/

theorem sawDown_wake (thread : Thread LogEntry LogWork) : sawDown thread.wake = sawDown thread := by
  cases thread with
  | waits waiting => cases waiting <;> rfl
  | _ => rfl

theorem leftLoop_wake (thread : Thread LogEntry LogWork) :
    leftLoop thread.wake = leftLoop thread := by
  cases thread with
  | waits waiting => cases waiting <;> rfl
  | _ => rfl

/-- A property of threads that a step gives to none but those that have it. -/
theorem eachThread_next {P : Thread LogEntry LogWork → Bool} {Q : Prop}
    (hwake : ∀ thread : Thread LogEntry LogWork, P thread.wake = P thread)
    (hwaits : ∀ waiting, P (.waits waiting) = false)
    (hcalls : ∀ entry calling, P (.calls entry calling) = false)
    (hbehind : P (.works .behindWait) = false)
    (h : ∀ thread ∈ st.threads, P thread = true → Q)
    (hworks : ∀ (k : ℕ) (work : LogWork) (outcome : Outcome LogEntry LogWork LogEvent),
      st.threads[k]? = some (.works work) →
      LogWork.step work st.queue st.running () = some outcome →
      P (.ofOnward outcome.onward) = true → Q)
    (hnext : logNext st action = some st') : ∀ thread ∈ st'.threads, P thread = true → Q := by
  have hset : ∀ {k : ℕ} {new : Thread LogEntry LogWork}, (P new = true → Q) →
      ∀ thread ∈ st.threads.set k new, P thread = true → Q := by
    intro k new hnew thread hmem hP
    rcases List.mem_or_eq_of_mem_set hmem with hold | rfl
    · exact h thread hold hP
    · exact hnew hP
  cases Monitor.acts_next hnext with
  | calls entry free =>
    intro thread hmem hP
    rcases List.mem_append.mp hmem with hold | hnew
    · exact h thread hold hP
    · rw [List.mem_singleton.mp hnew, hcalls] at hP
      exact absurd hP (by simp)
  | locks => exact hset (by simp [hwaits])
  | fails => exact hset (by simp [hwaits])
  | passes => exact hset fun hP => absurd (hbehind.symm.trans hP) (by simp)
  | blocks => exact hset (by simp [hwaits])
  | works k input work outcome thread step lock => exact hset (hworks k work outcome thread step)
  | pushes => exact hset (by simp [hcalls])
  | unlocks => exact hset (by simp [hcalls])
  | notifies k j entry thread sleeper =>
    intro other hmem hP
    rcases List.mem_or_eq_of_mem_set hmem with hold | rfl
    · exact hset (by simp [hwaits]) other hold hP
    · exact absurd hP (by simp [hcalls])
  | notifiesNone => exact hset (by simp [hcalls])
  | wakes => exact hset (by simp [hwaits])
  | halts => exact h
  | notifiesAll =>
    intro thread hmem hP
    obtain ⟨sleeper, hsleeper, rfl⟩ := List.mem_map.mp hmem
    exact h sleeper hsleeper (by rwa [hwake] at hP)
  | joins => exact h
  | joined => exact h

theorem staysDown_next (hnext : logNext st action = some st') (hdown : st.running = false) :
    st'.running = false := by
  cases Monitor.acts_next hnext <;> first | exact hdown | rfl

/-- The worker looks for entries that are left only when the flag is down. -/
theorem down_next (h : ∀ thread ∈ st.threads, sawDown thread = true → st.running = false)
    (hnext : logNext st action = some st') :
    ∀ thread ∈ st'.threads, sawDown thread = true → st'.running = false := by
  have hkept : ∀ thread ∈ st'.threads, sawDown thread = true → st.running = false := by
    refine eachThread_next sawDown_wake (fun _ => rfl) (fun _ _ => rfl) rfl h ?_ hnext
    intro k work outcome hthread hstep hsaw
    have hmem := List.mem_of_getElem? hthread
    cases work with
    | writing batch =>
      cases batch with
      | nil =>
        obtain rfl := Option.some.inj hstep
        cases hrunning : st.running with
        | false => rfl
        | true =>
          rw [hrunning] at hsaw
          exact absurd hsaw (by simp [Thread.ofOnward, sawDown])
      | cons entry batch =>
        obtain rfl := Option.some.inj hstep
        exact absurd hsaw (by simp [Thread.ofOnward, sawDown])
    | behindWait =>
      obtain rfl := Option.some.inj hstep
      exact absurd hsaw (by simp [Thread.ofOnward, sawDown])
    | swapped batch =>
      obtain rfl := Option.some.inj hstep
      exact absurd hsaw (by simp [Thread.ofOnward, sawDown])
    | _ => exact h _ hmem rfl
  exact fun thread hmem hsaw => staysDown_next hnext (hkept thread hmem hsaw)

theorem written_next (hnext : logNext st action = some st') :
    written st.log <+: written st'.log := by
  cases Monitor.acts_next hnext with
  | works k input work outcome thread step lock =>
    unfold written
    rw [List.map_append]
    exact List.prefix_append _ _
  | _ => exact List.prefix_rfl

/-- A worker that has left its loop has written what was pushed before, as there was nothing left in
the queue. -/
theorem left_next {early later : List (Entry LogEntry)} (hjoined : Monitor.Joined st)
    (hworkers : st.workers = 1) (hdrained : Drained (early ++ later) st)
    (h : ∀ thread ∈ st.threads, leftLoop thread = true → early.map Prod.snd <+: written st.log)
    (hnext : logNext st action = some st') :
    ∀ thread ∈ st'.threads, leftLoop thread = true → early.map Prod.snd <+: written st'.log := by
  have hkept : ∀ thread ∈ st'.threads, leftLoop thread = true →
      early.map Prod.snd <+: written st.log := by
    refine eachThread_next leftLoop_wake (fun _ => rfl) (fun _ _ => rfl) rfl h ?_ hnext
    intro k work outcome hthread hstep hleft
    have hmem := List.mem_of_getElem? hthread
    cases work with
    | leaving => exact h _ hmem rfl
    | checking =>
      obtain rfl := worker_zero hjoined hworkers hthread
      obtain rfl := Option.some.inj hstep
      have hempty : st.queue = [] := by
        by_contra hsome
        simp [hsome, Thread.ofOnward, leftLoop] at hleft
      have hall := hdrained.all
      unfold workerBatch at hall
      rw [hthread, hempty] at hall
      change written st.log ++ [] ++ [] = _ at hall
      rw [List.append_nil, List.append_nil, List.map_append] at hall
      rw [hall]
      exact List.prefix_append _ _
    | writing batch =>
      cases batch with
      | nil =>
        obtain rfl := Option.some.inj hstep
        cases hrunning : st.running <;>
          exact absurd hleft (by simp [hrunning, Thread.ofOnward, leftLoop])
      | cons entry batch =>
        obtain rfl := Option.some.inj hstep
        exact absurd hleft (by simp [Thread.ofOnward, leftLoop])
    | _ =>
      obtain rfl := Option.some.inj hstep
      exact absurd hleft (by simp [Thread.ofOnward, leftLoop])
  exact fun thread hmem hleft => (hkept thread hmem hleft).trans (written_next hnext)

end

/-! ## Runs -/

section

variable {st st' : LogPool} {before after actions : List LogAction}

theorem pushes_snoc {s : LogPool} {action : LogAction} (hrun : run logNext s actions = some st) :
    pushes s (actions ++ [action]) = pushes s actions ++ pushed st action := by
  unfold pushes
  rw [trace_snoc hrun, List.flatten_append, List.flatten_singleton]

theorem pushes_append {s : LogPool} (hrun : run logNext s before = some st)
    (after : List LogAction) : pushes s (before ++ after) = pushes s before ++ pushes st after := by
  unfold pushes
  rw [trace_append hrun, List.flatten_append]

theorem drained_of_run (hrun : run logNext (.start 1) actions = some st) :
    Drained (pushes (.start 1) actions) st := by
  refine run_history (I := fun actions st => Drained (pushes (.start 1) actions) st)
    drained_start (fun actions st action st' hbefore hi hnext => ?_) hrun
  rw [pushes_snoc hbefore]
  exact drained_next (Monitor.joined_of_run hbefore) (Monitor.workers_of_run hbefore) hi hnext

/-- **The log is complete and in order.** In every run of the logger the worker has written a start
of the entries that were pushed, in their order, and the rest is in its batch and in the queue; a
call that is behind its push has its entry in there once. And when `Shutdown` has returned, every
entry that was pushed before it began is written. -/
theorem logged_in_order (hbefore : run logNext (.start 1) before = some st)
    (hafter : run logNext st after = some st') :
    (written st'.log ++ (workerBatch st'.threads).map Prod.snd ++ st'.queue.map Prod.snd =
        (pushes (.start 1) (before ++ after)).map Prod.snd) ∧
      (∀ k entry calling, st'.threads[k]? = some (.calls entry calling) →
        (pushes (.start 1) (before ++ after)).filter (fun e => e.1 = k) =
          if calling = .locked then [] else [(k, entry)]) ∧
      (st.stopping = .idle → st'.stopping = .returned →
        (pushes (.start 1) before).map Prod.snd <+: written st'.log) := by
  have hrun : run logNext (.start 1) (before ++ after) = some st' := by
    rw [run_append, hbefore]
    exact hafter
  have hdrained := drained_of_run hrun
  refine ⟨hdrained.all, hdrained.calls, fun hidle hreturned => ?_⟩
  have hstarted : ∀ thread ∈ st.threads, leftLoop thread = true → False := by
    intro thread hmem hleft
    have hdown : ∀ thread ∈ st.threads, sawDown thread = true → st.running = false := by
      refine run_preserves (I := fun st : LogPool =>
        ∀ thread ∈ st.threads, sawDown thread = true → st.running = false)
        (fun _ _ _ h hnext => down_next h hnext) (fun thread hmem hsaw => ?_) hbefore
      rw [List.eq_of_mem_replicate hmem] at hsaw
      exact absurd hsaw (by simp [sawDown])
    have hsaw : sawDown thread = true := by
      cases thread with
      | works work => cases work <;> first | rfl | exact absurd hleft (by simp [leftLoop])
      | exited => rfl
      | _ => exact absurd hleft (by simp [leftLoop])
    -- nobody leaves while the flag is up
    have hrunning := hdown thread hmem hsaw
    rw [(Monitor.joined_of_run hbefore).flag.mpr hidle] at hrunning
    exact absurd hrunning (by simp)
  have hwritten : ∀ thread ∈ st'.threads, leftLoop thread = true →
      (pushes (.start 1) before).map Prod.snd <+: written st'.log := by
    refine run_history (I := fun _ st' => ∀ thread ∈ st'.threads, leftLoop thread = true →
      (pushes (.start 1) before).map Prod.snd <+: written st'.log)
      (fun thread hmem hleft => (hstarted thread hmem hleft).elim) ?_ hafter
    intro after mid action mid' hmid hi hnext
    have hrunmid : run logNext (.start 1) (before ++ after) = some mid := by
      rw [run_append, hbefore]
      exact hmid
    have hdrainedmid := drained_of_run hrunmid
    rw [pushes_append hbefore] at hdrainedmid
    exact left_next (Monitor.joined_of_run hrunmid) (Monitor.workers_of_run hrunmid) hdrainedmid hi
      hnext
  have hjoined := Monitor.joined_of_run hrun
  have hexited : st'.threads[0]? = some Thread.exited := by
    refine hjoined.returned hreturned 0 ?_
    rw [Monitor.workers_of_run hrun]
    exact Nat.one_pos
  exact hwritten _ (List.mem_of_getElem? hexited) rfl

/-- Two calls push their entries; `Shutdown` begins, the worker writes them, and is joined. -/
def logTwo : List LogAction :=
  [.call ⟨.info, [97]⟩, .goOn 1 (), .goOn 1 (), .call ⟨.error, [98]⟩, .goOn 2 (), .goOn 2 ()]

def shutdownBehind : List LogAction :=
  [.stop, .stop] ++ List.replicate 10 (.goOn 0 ()) ++ [.stop, .stop]

theorem logged_logTwo :
    ∃ st, run logNext (.start 1) logTwo = some st ∧
      ∃ st', run logNext st shutdownBehind = some st' ∧ st'.stopping = .returned ∧
        [⟨.info, [97]⟩, ⟨.error, [98]⟩] <+: written st'.log := by
  obtain ⟨st, hbefore, hidle, st', hafter, hreturned⟩ :
      ∃ st, run logNext (.start 1) logTwo = some st ∧ st.stopping = .idle ∧
        ∃ st', run logNext st shutdownBehind = some st' ∧ st'.stopping = .returned := by
    decide +kernel
  have hpushes : (pushes (.start 1) logTwo).map Prod.snd =
      [⟨.info, [97]⟩, ⟨.error, [98]⟩] := by
    decide +kernel
  have hwritten := (logged_in_order hbefore hafter).2.2 hidle hreturned
  exact ⟨st, hbefore, st', hafter, hreturned, hpushes ▸ hwritten⟩

end

end RealtimeServer
