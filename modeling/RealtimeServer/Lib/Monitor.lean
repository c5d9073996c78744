import Mathlib.Data.List.Basic
import RealtimeServer.Lib.Run

/-!
# A queue served by threads that sleep on a condition variable

One mutex, one condition variable, a queue and a flag `running`. A worker waits until there is a job
in the queue or the flag is down, does what its `Program` says, and waits again. A caller pushes a
job with the mutex held, lets the mutex go and calls `notify_one`. One stopper takes the flag down
without the mutex, calls `notify_all` and joins the workers, one after the other.

`wait(lock, pred)` locks the mutex and tests; where the test fails, giving up the mutex and going to
sleep is one step of its own. A sleeper may wake up for nothing. Who holds the mutex shows from
where the threads are (`Thread.holds`).

* `acts_next`: what a step can do.
* `exclusive_of_run`: one thread holds the mutex, or none. `joined_of_run`: what the stopper has
  waited for when it returns.
* **`alert_next`**, `not_stuck_of_alert`: no worker sleeps on while the stopper waits for it, in the
  runs in which every `notify_all` is heard: it finds no worker between its test and its sleep.
* **`stuck_of_unheard`**: a `notify_all` that finds one there can leave it asleep for good.
-/

namespace Monitor

open Guarded

/-- Where a worker is in its `wait`. -/
inductive Waiting
  /-- About to lock the mutex. -/
  | entering
  /-- It holds the mutex, and is about to test. -/
  | testing
  /-- The test has failed; it holds the mutex, and is about to go to sleep. -/
  | blocking
  | blocked
  /-- Awake again, and about to lock the mutex. -/
  | woken
  deriving DecidableEq

/-- Where a caller is. -/
inductive Calling
  /-- It holds the mutex, and is about to push. -/
  | locked
  /-- It still holds the mutex. -/
  | pushed
  /-- About to `notify_one`. -/
  | notifying
  | returned
  deriving DecidableEq

/-- Where the stopper is. -/
inductive Stopping
  | idle
  /-- The flag is down, and it is about to `notify_all`. -/
  | notifyAll
  /-- About to join this worker. -/
  | joining (k : ℕ)
  | returned
  deriving DecidableEq

/-- It waits for the workers. -/
def Stopping.joins : Stopping → Bool
  | joining _ => true
  | _ => false

/-- Where a worker goes on. -/
inductive Onward (Work : Type*)
  | work (work : Work)
  /-- To its next `wait`; it gives up the mutex if it has it. -/
  | again
  /-- Out of its loop. -/
  | exit

/-- A job in the queue, with the number of the thread that pushed it. -/
abbrev Entry (Job : Type*) := ℕ × Job

/-- What a step of a worker leaves behind. -/
structure Outcome (Job Work Event : Type*) where
  onward : Onward Work
  queue : List (Entry Job)
  events : List Event

/-- What a worker does between two waits. -/
structure Program (Job Work Event Input : Type*) where
  /-- Where it comes out of its `wait`, with the mutex. -/
  behindWait : Work
  /-- It holds the mutex there. -/
  holds : Work → Bool
  /-- The next step, from the queue, the flag and what comes from outside. -/
  step : Work → List (Entry Job) → Bool → Input → Option (Outcome Job Work Event)
  holds_behindWait : holds behindWait = true
  /-- The queue is guarded by the mutex. -/
  guarded : ∀ work queue running input outcome, step work queue running input = some outcome →
    holds work = false → outcome.queue = queue

variable {Job Work Event Input : Type*}

/-- A thread. -/
inductive Thread (Job Work : Type*)
  | waits (waiting : Waiting)
  | works (work : Work)
  | exited
  | calls (job : Job) (calling : Calling)
  deriving DecidableEq

namespace Thread

/-- It holds the mutex. -/
def holds (P : Program Job Work Event Input) : Thread Job Work → Bool
  | waits .testing | waits .blocking => true
  | waits _ => false
  | works work => P.holds work
  | exited => false
  | calls _ .locked | calls _ .pushed => true
  | calls _ _ => false

/-- A sleeper wakes up. -/
def wake : Thread Job Work → Thread Job Work
  | waits .blocked => waits .woken
  | thread => thread

/-- It is asleep. -/
def asleep : Thread Job Work → Bool
  | waits .blocked => true
  | _ => false

/-- It is asleep, or has failed its test and is about to be. -/
def drowsy : Thread Job Work → Bool
  | waits .blocking | waits .blocked => true
  | _ => false

/-- It has failed its test and is about to go to sleep. -/
def dozing : Thread Job Work → Bool
  | waits .blocking => true
  | _ => false

/-- It is in a call, and has a notification to make. -/
def calling : Thread Job Work → Bool
  | calls _ .returned => false
  | calls _ _ => true
  | _ => false

/-- It is a caller. -/
def isCall : Thread Job Work → Bool
  | calls .. => true
  | _ => false

/-- It is through with its loop. -/
def isExited : Thread Job Work → Bool
  | exited => true
  | _ => false

/-- Where a worker is behind a step of its program. -/
def ofOnward : Onward Work → Thread Job Work
  | .work work => works work
  | .again => waits .entering
  | .exit => exited

end Thread

/-- The threads and what they share. -/
structure Pool (Job Work Event : Type*) where
  /-- The first threads are the workers; a call starts a new thread. -/
  workers : ℕ
  running : Bool
  queue : List (Entry Job)
  threads : List (Thread Job Work)
  stopping : Stopping
  /-- What the workers did, with their numbers; no thread reads it. -/
  log : List (ℕ × Event)

/-- What happens next. -/
inductive Action (Job Input : Type*)
  /-- A call locks the mutex. -/
  | call (job : Job)
  /-- The thread goes on. -/
  | goOn (k : ℕ) (input : Input)
  /-- A caller notifies this sleeper, or no one. -/
  | notifyOne (k : ℕ) (sleeper : Option ℕ)
  /-- The sleeper wakes up for nothing. -/
  | wakeUp (k : ℕ)
  /-- The stopper goes on. -/
  | stop
  deriving DecidableEq

namespace Pool

/-- The pool as it starts. -/
def start (workers : ℕ) : Pool Job Work Event :=
  { workers := workers
    running := true
    queue := []
    threads := List.replicate workers (.waits .entering)
    stopping := .idle
    log := [] }

section

variable (P : Program Job Work Event Input) (st : Pool Job Work Event)

/-- Nobody holds the mutex. -/
def Free : Prop := ∀ thread ∈ st.threads, thread.holds P = false

instance : Decidable (st.Free P) := by
  unfold Free; infer_instance

/-- The thread comes to here. -/
def become (k : ℕ) (thread : Thread Job Work) : Pool Job Work Event :=
  { st with threads := st.threads.set k thread }

/-- A thread goes on. -/
def goOn (k : ℕ) (input : Input) : Thread Job Work → Option (Pool Job Work Event)
  | .waits .entering | .waits .woken =>
    if st.Free P then some (st.become k (.waits .testing)) else none
  | .waits .testing =>
    if st.queue = [] ∧ st.running = true then some (st.become k (.waits .blocking))
    else some (st.become k (.works P.behindWait))
  | .waits .blocking => some (st.become k (.waits .blocked))
  | .waits .blocked => none
  | .works work =>
    match P.step work st.queue st.running input with
    | none => none
    | some outcome =>
      let thread := Thread.ofOnward outcome.onward
      if thread.holds P = true → P.holds work = true ∨ st.Free P then
        some { st.become k thread with
          queue := outcome.queue
          log := st.log ++ outcome.events.map fun event => (k, event) }
      else none
  | .exited => none
  | .calls job .locked =>
    some { st.become k (.calls job .pushed) with queue := st.queue ++ [(k, job)] }
  | .calls job .pushed => some (st.become k (.calls job .notifying))
  | .calls _ .notifying | .calls _ .returned => none

/-- A caller notifies one sleeper, where there is one. -/
def notifyOne (k : ℕ) (sleeper : Option ℕ) : Option (Pool Job Work Event) :=
  match st.threads[k]? with
  | some (.calls job .notifying) =>
    match sleeper with
    | some j =>
      match st.threads[j]? with
      | some (.waits .blocked) =>
        some ((st.become j (.waits .woken)).become k (.calls job .returned))
      | _ => none
    | none =>
      if st.threads.any Thread.asleep then none else some (st.become k (.calls job .returned))
  | _ => none

/-- The stopper goes on. -/
def stop : Option (Pool Job Work Event) :=
  match st.stopping with
  | .idle =>
    some { st with
      running := false
      stopping := if st.running then .notifyAll else .returned }
  | .notifyAll =>
    some { st with threads := st.threads.map Thread.wake, stopping := .joining 0 }
  | .joining k =>
    if k < st.workers then
      match st.threads[k]? with
      | some .exited => some { st with stopping := .joining (k + 1) }
      | _ => none
    else some { st with stopping := .returned }
  | .returned => none

end

end Pool

/-- One step. -/
def next (P : Program Job Work Event Input) (st : Pool Job Work Event) :
    Action Job Input → Option (Pool Job Work Event)
  | .call job =>
    if st.Free P then some { st with threads := st.threads ++ [.calls job .locked] } else none
  | .goOn k input =>
    match st.threads[k]? with
    | some thread => st.goOn P k input thread
    | none => none
  | .notifyOne k sleeper => st.notifyOne k sleeper
  | .wakeUp k =>
    match st.threads[k]? with
    | some (.waits .blocked) => some (st.become k (.waits .woken))
    | _ => none
  | .stop => st.stop

/-! ## What a step can do -/

section

variable {P : Program Job Work Event Input} {st st' : Pool Job Work Event}
  {action : Action Job Input}

/-- The steps, each with its guard. -/
inductive Acts (P : Program Job Work Event Input) (st : Pool Job Work Event) :
    Action Job Input → Pool Job Work Event → Prop
  | calls (job : Job) (free : st.Free P) :
      Acts P st (.call job) { st with threads := st.threads ++ [.calls job .locked] }
  | locks (k : ℕ) (input : Input) (waiting : Waiting)
      (thread : st.threads[k]? = some (.waits waiting))
      (outside : waiting = .entering ∨ waiting = .woken) (free : st.Free P) :
      Acts P st (.goOn k input) (st.become k (.waits .testing))
  | fails (k : ℕ) (input : Input) (thread : st.threads[k]? = some (.waits .testing))
      (none : st.queue = []) (running : st.running = true) :
      Acts P st (.goOn k input) (st.become k (.waits .blocking))
  | passes (k : ℕ) (input : Input) (thread : st.threads[k]? = some (.waits .testing))
      (ready : st.queue ≠ [] ∨ st.running = false) :
      Acts P st (.goOn k input) (st.become k (.works P.behindWait))
  | blocks (k : ℕ) (input : Input) (thread : st.threads[k]? = some (.waits .blocking)) :
      Acts P st (.goOn k input) (st.become k (.waits .blocked))
  | works (k : ℕ) (input : Input) (work : Work) (outcome : Outcome Job Work Event)
      (thread : st.threads[k]? = some (.works work))
      (step : P.step work st.queue st.running input = some outcome)
      (lock : (Thread.ofOnward outcome.onward : Thread Job Work).holds P = true →
        P.holds work = true ∨ st.Free P) :
      Acts P st (.goOn k input)
        { st.become k (Thread.ofOnward outcome.onward) with
          queue := outcome.queue
          log := st.log ++ outcome.events.map fun event => (k, event) }
  | pushes (k : ℕ) (input : Input) (job : Job)
      (thread : st.threads[k]? = some (.calls job .locked)) :
      Acts P st (.goOn k input)
        { st.become k (.calls job .pushed) with queue := st.queue ++ [(k, job)] }
  | unlocks (k : ℕ) (input : Input) (job : Job)
      (thread : st.threads[k]? = some (.calls job .pushed)) :
      Acts P st (.goOn k input) (st.become k (.calls job .notifying))
  | notifies (k j : ℕ) (job : Job) (thread : st.threads[k]? = some (.calls job .notifying))
      (sleeper : st.threads[j]? = some (.waits .blocked)) :
      Acts P st (.notifyOne k (some j))
        ((st.become j (.waits .woken)).become k (.calls job .returned))
  | notifiesNone (k : ℕ) (job : Job) (thread : st.threads[k]? = some (.calls job .notifying))
      (awake : ∀ thread ∈ st.threads, thread.asleep = false) :
      Acts P st (.notifyOne k none) (st.become k (.calls job .returned))
  | wakes (k : ℕ) (thread : st.threads[k]? = some (.waits .blocked)) :
      Acts P st (.wakeUp k) (st.become k (.waits .woken))
  | halts (idle : st.stopping = .idle) :
      Acts P st .stop
        { st with running := false, stopping := if st.running then .notifyAll else .returned }
  | notifiesAll (stopping : st.stopping = .notifyAll) :
      Acts P st .stop { st with threads := st.threads.map Thread.wake, stopping := .joining 0 }
  | joins (k : ℕ) (stopping : st.stopping = .joining k) (worker : k < st.workers)
      (exited : st.threads[k]? = some .exited) :
      Acts P st .stop { st with stopping := .joining (k + 1) }
  | joined (k : ℕ) (stopping : st.stopping = .joining k) (all : st.workers ≤ k) :
      Acts P st .stop { st with stopping := .returned }

theorem acts_goOn {k : ℕ} {input : Input} {thread : Thread Job Work}
    (hthread : st.threads[k]? = some thread) (h : st.goOn P k input thread = some st') :
    Acts P st (.goOn k input) st' := by
  cases thread with
  | exited => exact absurd h (by simp [Pool.goOn])
  | waits waiting =>
    cases waiting with
    | entering =>
      obtain ⟨hfree, rfl⟩ := of_guard h
      exact .locks k input _ hthread (Or.inl rfl) hfree
    | woken =>
      obtain ⟨hfree, rfl⟩ := of_guard h
      exact .locks k input _ hthread (Or.inr rfl) hfree
    | testing =>
      change (if st.queue = [] ∧ st.running = true then _ else _) = some st' at h
      split at h
      · rename_i hfails
        obtain rfl := Option.some.inj h
        exact .fails k input hthread hfails.1 hfails.2
      · rename_i hpasses
        obtain rfl := Option.some.inj h
        refine .passes k input hthread ?_
        by_cases hnone : st.queue = []
        · exact Or.inr (Bool.eq_false_iff.mpr fun hrunning => hpasses ⟨hnone, hrunning⟩)
        · exact Or.inl hnone
    | blocking =>
      obtain rfl := Option.some.inj h
      exact .blocks k input hthread
    | blocked => exact absurd h (by simp [Pool.goOn])
  | works work =>
    unfold Pool.goOn at h
    simp only at h
    split at h
    · exact absurd h (by simp)
    · rename_i outcome hstep
      obtain ⟨hlock, rfl⟩ := of_guard h
      exact .works k input work outcome hthread hstep hlock
  | calls job calling =>
    cases calling with
    | locked =>
      obtain rfl := Option.some.inj h
      exact .pushes k input job hthread
    | pushed =>
      obtain rfl := Option.some.inj h
      exact .unlocks k input job hthread
    | notifying => exact absurd h (by simp [Pool.goOn])
    | returned => exact absurd h (by simp [Pool.goOn])

theorem acts_notifyOne {k : ℕ} {sleeper : Option ℕ} (h : st.notifyOne k sleeper = some st') :
    Acts P st (.notifyOne k sleeper) st' := by
  unfold Pool.notifyOne at h
  split at h
  · rename_i job hthread
    split at h
    · rename_i j
      split at h
      · rename_i hsleeper
        obtain rfl := Option.some.inj h
        exact .notifies k j job hthread hsleeper
      · exact absurd h (by simp)
    · split at h
      · exact absurd h (by simp)
      · rename_i hawake
        obtain rfl := Option.some.inj h
        refine .notifiesNone k job hthread fun thread hmem => ?_
        rw [List.any_eq_true, not_exists] at hawake
        exact Bool.eq_false_iff.mpr fun hasleep => hawake thread ⟨hmem, hasleep⟩
  · exact absurd h (by simp)

theorem acts_stop (h : st.stop = some st') : Acts P st .stop st' := by
  unfold Pool.stop at h
  split at h
  · rename_i hidle
    obtain rfl := Option.some.inj h
    exact .halts hidle
  · rename_i hstopping
    obtain rfl := Option.some.inj h
    exact .notifiesAll hstopping
  · rename_i k hstopping
    split at h
    · rename_i hworker
      split at h
      · rename_i hexited
        obtain rfl := Option.some.inj h
        exact .joins k hstopping hworker hexited
      · exact absurd h (by simp)
    · rename_i hall
      obtain rfl := Option.some.inj h
      exact .joined k hstopping (not_lt.mp hall)
  · exact absurd h (by simp)

/-- **What a step can do.** -/
theorem acts_next (h : next P st action = some st') : Acts P st action st' := by
  cases action with
  | call job =>
    obtain ⟨hfree, rfl⟩ := of_guard h
    exact .calls job hfree
  | goOn k input =>
    unfold next at h
    simp only at h
    split at h
    · rename_i thread hthread
      exact acts_goOn hthread h
    · exact absurd h (by simp)
  | notifyOne k sleeper => exact acts_notifyOne h
  | wakeUp k =>
    unfold next at h
    simp only at h
    split at h
    · rename_i hthread
      obtain rfl := Option.some.inj h
      exact .wakes k hthread
    · exact absurd h (by simp)
  | stop => exact acts_stop h

/-! ## The mutex -/

/-- One thread holds the mutex, or none. -/
def Exclusive (P : Program Job Work Event Input) (st : Pool Job Work Event) : Prop :=
  st.threads.countP (Thread.holds P) ≤ 1

theorem countP_free (hfree : st.Free P) : st.threads.countP (Thread.holds P) = 0 :=
  List.countP_eq_zero.mpr fun thread hmem => Bool.eq_false_iff.mp (hfree thread hmem)

theorem Thread.holds_wake (thread : Thread Job Work) : thread.wake.holds P = thread.holds P := by
  cases thread with
  | waits waiting => cases waiting <;> rfl
  | _ => rfl

/-- A thread that comes to hold the mutex had it before, or nobody had. -/
theorem exclusive_become {k : ℕ} {old new : Thread Job Work} (h : Exclusive P st)
    (hold : st.threads[k]? = some old)
    (hlock : new.holds P = true → old.holds P = true ∨ st.Free P) :
    Exclusive P (st.become k new) := by
  obtain ⟨hk, hget⟩ := List.getElem?_eq_some_iff.mp hold
  unfold Exclusive Pool.become at *
  rw [List.countP_set hk, hget]
  by_cases hnew : new.holds P = true
  · rw [if_pos hnew]
    rcases hlock hnew with holds | hfree
    · rw [if_pos holds]
      omega
    · rw [countP_free hfree]
      omega
  · rw [if_neg hnew]
    omega

theorem exclusive_start (workers : ℕ) :
    Exclusive P (.start workers : Pool Job Work Event) := by
  unfold Exclusive Pool.start
  rw [List.countP_replicate]
  simp [Thread.holds]

theorem exclusive_next (h : Exclusive P st) (hnext : next P st action = some st') :
    Exclusive P st' := by
  cases acts_next hnext with
  | calls job free =>
    unfold Exclusive
    rw [List.countP_append, countP_free free]
    simp [Thread.holds]
  | locks k input waiting thread outside free =>
    exact exclusive_become h thread fun _ => Or.inr free
  | fails k input thread => exact exclusive_become h thread fun _ => Or.inl rfl
  | passes k input thread => exact exclusive_become h thread fun _ => Or.inl rfl
  | blocks k input thread => exact exclusive_become h thread (by simp [Thread.holds])
  | works k input work outcome thread step lock => exact exclusive_become h thread lock
  | pushes k input job thread => exact exclusive_become h thread fun _ => Or.inl rfl
  | unlocks k input job thread => exact exclusive_become h thread (by simp [Thread.holds])
  | notifies k j job thread sleeper =>
    have hwoken : Exclusive P (st.become j (.waits .woken)) :=
      exclusive_become h sleeper (by simp [Thread.holds])
    have hne : j ≠ k := by
      rintro rfl
      rw [thread] at sleeper
      exact absurd sleeper (by simp)
    have hcaller : (st.become j (.waits .woken)).threads[k]? = some (.calls job .notifying) :=
      (List.getElem?_set_ne hne).trans thread
    exact exclusive_become hwoken hcaller (by simp [Thread.holds])
  | notifiesNone k job thread => exact exclusive_become h thread (by simp [Thread.holds])
  | wakes k thread => exact exclusive_become h thread (by simp [Thread.holds])
  | halts => exact h
  | notifiesAll =>
    unfold Exclusive
    rw [List.countP_map]
    refine le_of_eq_of_le (List.countP_congr fun thread _ => ?_) h
    rw [Function.comp_apply, Thread.holds_wake]
  | joins => exact h
  | joined => exact h

theorem exclusive_of_run {workers : ℕ} {actions : List (Action Job Input)}
    (hrun : run (next P) (.start workers) actions = some st) : Exclusive P st :=
  run_preserves (fun _ _ _ h hnext => exclusive_next h hnext) (exclusive_start workers) hrun

/-- Two threads that hold the mutex are one. -/
theorem holder_unique {j k : ℕ} {other thread : Thread Job Work} (h : Exclusive P st)
    (hother : st.threads[j]? = some other) (hthread : st.threads[k]? = some thread)
    (hj : other.holds P = true) (hk : thread.holds P = true) : j = k := by
  by_contra hne
  have hdropped : Exclusive P (st.become k .exited) :=
    exclusive_become h hthread (by simp [Thread.holds])
  -- without the second holder, none would be left
  obtain ⟨hlen, hget⟩ := List.getElem?_eq_some_iff.mp hthread
  have hcount : (st.threads.set k .exited).countP (Thread.holds P) =
      st.threads.countP (Thread.holds P) - 1 := by
    rw [List.countP_set hlen, hget, if_pos hk]
    simp [Thread.holds]
  have hnone : (st.threads.set k .exited).countP (Thread.holds P) = 0 := by
    unfold Exclusive at h
    omega
  have hmem : other ∈ st.threads.set k .exited :=
    List.mem_iff_getElem?.mpr ⟨j, (List.getElem?_set_ne (Ne.symm hne)).trans hother⟩
  exact List.countP_eq_zero.mp hnone other hmem hj

/-! ## The stopper -/

/-- The flag is up until the stopper begins. -/
theorem flag_next (h : st.running = true ↔ st.stopping = .idle)
    (hnext : next P st action = some st') : st'.running = true ↔ st'.stopping = .idle := by
  cases acts_next hnext with
  | halts idle =>
    rw [h.mpr idle]
    simp
  | notifiesAll stopping =>
    rw [stopping] at h
    exact iff_of_false (mt h.mp (by simp)) (by simp)
  | joins k stopping =>
    rw [stopping] at h
    exact iff_of_false (mt h.mp (by simp)) (by simp)
  | joined k stopping =>
    rw [stopping] at h
    exact iff_of_false (mt h.mp (by simp)) (by simp)
  | _ => exact h

/-- **What the stopper has waited for**: the workers it has joined have left their loops, and there
is no thread but the workers and the callers. -/
structure Joined (st : Pool Job Work Event) : Prop where
  flag : st.running = true ↔ st.stopping = .idle
  workers : st.workers ≤ st.threads.length
  callers : ∀ j thread, st.workers ≤ j → st.threads[j]? = some thread → thread.isCall = true
  joined : ∀ k, st.stopping = .joining k → ∀ j < k, st.threads[j]? = some .exited
  returned : st.stopping = .returned → ∀ j < st.workers, st.threads[j]? = some .exited

theorem joined_start (workers : ℕ) : Joined (.start workers : Pool Job Work Event) where
  flag := iff_of_true rfl rfl
  workers := by simp [Pool.start]
  callers := by
    intro j thread hj hthread
    have hnone : (List.replicate workers (Thread.waits .entering : Thread Job Work))[j]? = none :=
      List.getElem?_eq_none (List.length_replicate.trans_le hj)
    exact absurd (hnone.symm.trans hthread) (by simp)
  joined := fun k hstopping => absurd hstopping (by simp [Pool.start])
  returned := fun hstopping => absurd hstopping (by simp [Pool.start])

theorem exited_set {threads : List (Thread Job Work)} {j k : ℕ} {old new : Thread Job Work}
    (hold : threads[k]? = some old) (hin : old.isExited = false)
    (h : threads[j]? = some .exited) : (threads.set k new)[j]? = some .exited := by
  have hne : k ≠ j := by
    rintro rfl
    obtain rfl := Option.some.inj (h.symm.trans hold)
    exact absurd hin (by simp [Thread.isExited])
  rw [List.getElem?_set_ne hne, h]

/-- A thread that is not through goes on, as what it is. -/
theorem joined_become {k : ℕ} {old new : Thread Job Work} (h : Joined st)
    (hold : st.threads[k]? = some old) (hin : old.isExited = false)
    (hcall : new.isCall = old.isCall) : Joined (st.become k new) where
  flag := h.flag
  workers := h.workers.trans_eq (List.length_set).symm
  callers := by
    intro j thread hj hthread
    by_cases hk : k = j
    · subst hk
      obtain ⟨hlen, -⟩ := List.getElem?_eq_some_iff.mp hold
      obtain rfl := Option.some.inj ((List.getElem?_set_self hlen).symm.trans hthread)
      rw [hcall]
      exact h.callers k old hj hold
    · exact h.callers j thread hj ((List.getElem?_set_ne hk).symm.trans hthread)
  joined := fun n hstopping j hj => exited_set hold hin (h.joined n hstopping j hj)
  returned := fun hstopping j hj => exited_set hold hin (h.returned hstopping j hj)

theorem joined_next (h : Joined st) (hnext : next P st action = some st') : Joined st' := by
  have hflag := flag_next h.flag hnext
  cases acts_next hnext with
  | calls job free =>
    have hexited : ∀ j : ℕ, st.threads[j]? = some Thread.exited →
        (st.threads ++ [.calls job .locked])[j]? = some Thread.exited := by
      intro j hj
      obtain ⟨hlen, -⟩ := List.getElem?_eq_some_iff.mp hj
      rw [List.getElem?_append_left hlen, hj]
    refine ⟨hflag, ?_, fun j thread hj hthread => ?_, ?_, ?_⟩
    · rw [List.length_append]
      exact h.workers.trans (Nat.le_add_right _ _)
    · by_cases hlen : j < st.threads.length
      · rw [List.getElem?_append_left hlen] at hthread
        exact h.callers j thread hj hthread
      · rw [List.getElem?_append_right (not_lt.mp hlen)] at hthread
        obtain rfl := List.mem_singleton.mp (List.mem_of_getElem? hthread)
        rfl
    · exact fun k hstopping j hj => hexited j (h.joined k hstopping j hj)
    · exact fun hstopping j hj => hexited j (h.returned hstopping j hj)
  | locks k input waiting thread => exact joined_become h thread rfl rfl
  | fails k input thread => exact joined_become h thread rfl rfl
  | passes k input thread => exact joined_become h thread rfl rfl
  | blocks k input thread => exact joined_become h thread rfl rfl
  | works k input work outcome thread =>
    have hnew : (Thread.ofOnward outcome.onward : Thread Job Work).isCall = false := by
      cases outcome.onward <;> rfl
    have hset := joined_become h thread rfl hnew
    exact ⟨hset.flag, hset.workers, hset.callers, hset.joined, hset.returned⟩
  | pushes k input job thread =>
    have hset : Joined (st.become k (.calls job .pushed)) := joined_become h thread rfl rfl
    exact ⟨hset.flag, hset.workers, hset.callers, hset.joined, hset.returned⟩
  | unlocks k input job thread => exact joined_become h thread rfl rfl
  | notifies k j job thread sleeper =>
    have hwoken : Joined (st.become j (.waits .woken)) := joined_become h sleeper rfl rfl
    have hne : j ≠ k := by
      rintro rfl
      rw [thread] at sleeper
      exact absurd sleeper (by simp)
    have hcaller : (st.become j (.waits .woken)).threads[k]? = some (.calls job .notifying) :=
      (List.getElem?_set_ne hne).trans thread
    exact joined_become hwoken hcaller rfl rfl
  | notifiesNone k job thread => exact joined_become h thread rfl rfl
  | wakes k thread => exact joined_become h thread rfl rfl
  | halts idle =>
    refine ⟨hflag, h.workers, h.callers, fun k hstopping => ?_, fun hstopping => ?_⟩
    · rw [h.flag.mpr idle] at hstopping
      exact absurd hstopping (by simp)
    · rw [h.flag.mpr idle] at hstopping
      exact absurd hstopping (by simp)
  | notifiesAll stopping =>
    refine ⟨hflag, h.workers.trans_eq (List.length_map _).symm, fun j thread hj hthread => ?_,
      fun k hstopping j hj => ?_, fun hstopping => absurd hstopping (by simp)⟩
    · rw [List.getElem?_map] at hthread
      obtain ⟨old, hold, rfl⟩ := Option.map_eq_some_iff.mp hthread
      have hcall := h.callers j old hj hold
      cases old with
      | calls job calling => rfl
      | _ => exact absurd hcall (by simp [Thread.isCall])
    · obtain rfl : 0 = k := by simpa using hstopping
      exact absurd hj (Nat.not_lt_zero j)
  | joins k stopping worker exited =>
    refine ⟨hflag, h.workers, h.callers, fun n hstopping j hj => ?_,
      fun hstopping => absurd hstopping (by simp)⟩
    obtain rfl : k + 1 = n := by simpa using hstopping
    rcases Nat.lt_succ_iff_lt_or_eq.mp hj with hlt | rfl
    · exact h.joined k stopping j hlt
    · exact exited
  | joined k stopping all =>
    refine ⟨hflag, h.workers, h.callers, fun n hstopping => absurd hstopping (by simp), ?_⟩
    exact fun _ j hj => h.joined k stopping j (hj.trans_le all)

theorem joined_of_run {workers : ℕ} {actions : List (Action Job Input)}
    (hrun : run (next P) (.start workers) actions = some st) : Joined st :=
  run_preserves (fun _ _ _ h hnext => joined_next h hnext) (joined_start workers) hrun

theorem workers_next (hnext : next P st action = some st') : st'.workers = st.workers := by
  cases acts_next hnext <;> rfl

theorem workers_of_run {workers : ℕ} {actions : List (Action Job Input)}
    (hrun : run (next P) (.start workers) actions = some st) : st.workers = workers :=
  run_preserves (I := fun st => st.workers = workers)
    (fun _ _ _ h hnext => (workers_next hnext).trans h) rfl hrun

/-- When the stopper has returned, no worker is in its loop. -/
theorem returned_threads {thread : Thread Job Work} (h : Joined st)
    (hreturned : st.stopping = .returned) (hmem : thread ∈ st.threads) :
    thread = .exited ∨ thread.isCall = true := by
  obtain ⟨j, hj⟩ := List.mem_iff_getElem?.mp hmem
  by_cases hworker : j < st.workers
  · exact Or.inl (Option.some.inj (hj.symm.trans (h.returned hreturned j hworker)))
  · exact Or.inr (h.callers j thread (not_lt.mp hworker) hj)

/-! ## Lost wake-ups -/

/-- The stopper waits for the workers, one of them is asleep, and no caller is left to wake it. -/
def Pool.Stuck (st : Pool Job Work Event) : Prop :=
  st.stopping.joins = true ∧
    (∃ thread ∈ st.threads, thread.asleep = true) ∧
    ∀ thread ∈ st.threads, thread.calling = false

instance (st : Pool Job Work Event) : Decidable st.Stuck := by
  unfold Pool.Stuck; infer_instance

/-- A `notify_all` finds no worker between its test and its sleep. -/
def Heard (st : Pool Job Work Event) (action : Action Job Input) : Prop :=
  match action with
  | .stop => st.stopping = .notifyAll → ∀ thread ∈ st.threads, thread.dozing = false
  | _ => True

instance (st : Pool Job Work Event) (action : Action Job Input) : Decidable (Heard st action) := by
  unfold Heard
  split <;> infer_instance

/-- **The invariant**: the flag is up until the stopper begins, and behind its `notify_all` no
worker is asleep or about to be. -/
structure Alert (st : Pool Job Work Event) : Prop where
  flag : st.running = true ↔ st.stopping = .idle
  awake : st.stopping ≠ .idle → st.stopping ≠ .notifyAll →
    ∀ thread ∈ st.threads, thread.drowsy = false

theorem drowsy_set {threads : List (Thread Job Work)} {k : ℕ} {new : Thread Job Work}
    (h : ∀ thread ∈ threads, thread.drowsy = false) (hnew : new.drowsy = false) :
    ∀ thread ∈ threads.set k new, thread.drowsy = false := by
  intro thread hmem
  rcases List.mem_or_eq_of_mem_set hmem with hold | rfl
  · exact h thread hold
  · exact hnew

theorem alert_start (workers : ℕ) : Alert (.start workers : Pool Job Work Event) :=
  ⟨iff_of_true rfl rfl, fun h => absurd rfl h⟩

theorem alert_next (h : Alert st) (hc : Heard st action) (hnext : next P st action = some st') :
    Alert st' := by
  refine ⟨flag_next h.flag hnext, ?_⟩
  cases acts_next hnext with
  | calls job free =>
    intro hidle hheard thread hmem
    rcases List.mem_append.mp hmem with hold | hnew
    · exact h.awake hidle hheard thread hold
    · obtain rfl := List.mem_singleton.mp hnew
      rfl
  | fails k input thread none running =>
    -- the test fails only while the flag is up
    exact fun hidle => absurd (h.flag.mp running) hidle
  | blocks k input thread =>
    intro hidle hheard
    have hdozing := h.awake hidle hheard _ (List.mem_of_getElem? thread)
    exact absurd hdozing (by simp [Thread.drowsy])
  | works k input work outcome thread step lock =>
    have hnew : (Thread.ofOnward outcome.onward : Thread Job Work).drowsy = false := by
      cases outcome.onward <;> rfl
    exact fun hidle hheard => drowsy_set (h.awake hidle hheard) hnew
  | notifies k j job thread sleeper =>
    exact fun hidle hheard => drowsy_set (drowsy_set (h.awake hidle hheard) rfl) rfl
  | halts idle =>
    rw [h.flag.mpr idle]
    exact fun _ hheard => absurd rfl hheard
  | notifiesAll stopping =>
    intro _ _ thread hmem
    obtain ⟨sleeper, hsleeper, rfl⟩ := List.mem_map.mp hmem
    have hdozing := hc stopping sleeper hsleeper
    cases sleeper with
    | waits waiting =>
      cases waiting with
      | blocking => exact absurd hdozing (by simp [Thread.dozing])
      | _ => rfl
    | _ => rfl
  | joins k stopping worker exited =>
    exact fun _ _ => h.awake (by simp [stopping]) (by simp [stopping])
  | joined k stopping all =>
    exact fun _ _ => h.awake (by simp [stopping]) (by simp [stopping])
  | _ => exact fun hidle hheard => drowsy_set (h.awake hidle hheard) rfl

theorem Thread.drowsy_of_asleep {thread : Thread Job Work} (h : thread.asleep = true) :
    thread.drowsy = true := by
  cases thread with
  | waits waiting => cases waiting <;> first | rfl | exact absurd h (by simp [Thread.asleep])
  | _ => exact absurd h (by simp [Thread.asleep])

/-- **No wake-up is lost** while the threads are alert. -/
theorem not_stuck_of_alert (h : Alert st) : ¬ st.Stuck := by
  rintro ⟨hjoins, ⟨thread, hmem, hasleep⟩, -⟩
  have hidle : st.stopping ≠ .idle := by
    intro hidle
    rw [hidle] at hjoins
    exact absurd hjoins (by simp [Stopping.joins])
  have hheard : st.stopping ≠ .notifyAll := by
    intro hnotify
    rw [hnotify] at hjoins
    exact absurd hjoins (by simp [Stopping.joins])
  have hawake := h.awake hidle hheard thread hmem
  rw [Thread.drowsy_of_asleep hasleep] at hawake
  exact absurd hawake (by simp)

/-! ## A wake-up that is lost -/

/-- A worker is about to fall asleep behind the `notify_all`, and no caller has a job to push. -/
structure Missed (st : Pool Job Work Event) (k : ℕ) : Prop where
  joins : st.stopping.joins = true
  dozing : st.threads[k]? = some (.waits .blocking)
  awake : ∀ thread ∈ st.threads, thread.asleep = false
  calls : ∀ job calling, .calls job calling ∈ st.threads →
    calling = .notifying ∨ calling = .returned

/-- The calls that are about to notify return. -/
theorem missed_settles {k : ℕ} (h : Missed st k) :
    ∃ actions st', run (next P) st actions = some st' ∧ Missed st' k ∧
      ∀ thread ∈ st'.threads, thread.calling = false := by
  generalize hn : st.threads.countP Thread.calling = n
  induction n generalizing st with
  | zero =>
    refine ⟨[], st, rfl, h, fun thread hmem => ?_⟩
    exact Bool.eq_false_iff.mpr (List.countP_eq_zero.mp hn thread hmem)
  | succ n ih =>
    have hpos : 0 < st.threads.countP Thread.calling := by
      rw [hn]
      exact Nat.succ_pos n
    obtain ⟨thread, hmem, hcalling⟩ := List.countP_pos_iff.mp hpos
    obtain ⟨j, hj⟩ := List.mem_iff_getElem?.mp hmem
    obtain ⟨job, rfl⟩ : ∃ job, thread = .calls job .notifying := by
      cases thread with
      | calls job calling =>
        rcases h.calls job calling hmem with rfl | rfl
        · exact ⟨job, rfl⟩
        · exact absurd hcalling (by simp [Thread.calling])
      | _ => exact absurd hcalling (by simp [Thread.calling])
    obtain ⟨hlen, hget⟩ := List.getElem?_eq_some_iff.mp hj
    have hne : j ≠ k := by
      rintro rfl
      rw [h.dozing] at hj
      exact absurd hj (by simp)
    have hnext : next P st (.notifyOne j none) = some (st.become j (.calls job .returned)) := by
      have hnone : st.threads.any Thread.asleep = false :=
        List.any_eq_false.mpr fun thread hmem => by simp [h.awake thread hmem]
      simp [next, Pool.notifyOne, hj, hnone]
    have hmissed : Missed (st.become j (.calls job .returned)) k := by
      refine ⟨h.joins, (List.getElem?_set_ne hne).trans h.dozing, fun thread hmem => ?_, ?_⟩
      · rcases List.mem_or_eq_of_mem_set hmem with hold | rfl
        · exact h.awake thread hold
        · rfl
      · intro job' calling hmem
        rcases List.mem_or_eq_of_mem_set hmem with hold | hnew
        · exact h.calls job' calling hold
        · exact Or.inr (Thread.calls.inj hnew).2
    have hcount : (st.become j (.calls job .returned)).threads.countP Thread.calling = n := by
      change (st.threads.set j (.calls job .returned)).countP Thread.calling = n
      rw [List.countP_set hlen, hget, hn]
      simp [Thread.calling]
    obtain ⟨actions, st', hrun, hrest⟩ := ih hmissed hcount
    refine ⟨.notifyOne j none :: actions, st', ?_, hrest⟩
    rw [run, hnext]
    exact hrun

/-- A `notify_all` leaves a worker that is about to fall asleep as it is. -/
theorem missed_notifyAll {k : ℕ} (h : Exclusive P st)
    (hdozing : st.threads[k]? = some (.waits .blocking)) :
    Missed { st with threads := st.threads.map Thread.wake, stopping := .joining 0 } k := by
  refine ⟨rfl, ?_, fun thread hmem => ?_, fun job calling hmem => ?_⟩
  · rw [List.getElem?_map, hdozing]
    rfl
  · obtain ⟨sleeper, -, rfl⟩ := List.mem_map.mp hmem
    cases sleeper with
    | waits waiting => cases waiting <;> rfl
    | _ => rfl
  · -- the mutex is the worker's
    obtain ⟨caller, hcaller, hwake⟩ := List.mem_map.mp hmem
    obtain rfl : caller = .calls job calling := by
      cases caller with
      | waits waiting => cases waiting <;> exact absurd hwake (by simp [Thread.wake])
      | _ => exact hwake
    obtain ⟨j, hj⟩ := List.mem_iff_getElem?.mp hcaller
    have hnot : (Thread.calls job calling : Thread Job Work).holds P ≠ true := by
      intro hholds
      obtain rfl := holder_unique h hj hdozing hholds rfl
      rw [hdozing] at hj
      exact absurd hj (by simp)
    cases calling with
    | locked => exact absurd rfl hnot
    | pushed => exact absurd rfl hnot
    | notifying => exact Or.inl rfl
    | returned => exact Or.inr rfl

/-- **A `notify_all` that is not heard** can leave a worker asleep for good: where it finds one
between its test and its sleep, some run behind it is stuck. -/
theorem stuck_of_unheard (input : Input) (h : Exclusive P st) (hunheard : ¬ Heard st action) :
    ∃ actions st', run (next P) st (action :: actions) = some st' ∧ st'.Stuck := by
  unfold Heard at hunheard
  split at hunheard
  · simp only [Classical.not_imp, not_forall, Bool.not_eq_false] at hunheard
    obtain ⟨hstopping, thread, hmem, hdozing⟩ := hunheard
    obtain ⟨k, hk⟩ := List.mem_iff_getElem?.mp hmem
    obtain rfl : thread = .waits .blocking := by
      unfold Thread.dozing at hdozing
      split at hdozing
      · rfl
      · exact absurd hdozing (by simp)
    have hnext : next P st .stop =
        some { st with threads := st.threads.map Thread.wake, stopping := .joining 0 } := by
      simp [next, Pool.stop, hstopping]
    obtain ⟨actions, st', hrun, hsettled, hcalls⟩ :=
      missed_settles (P := P) (missed_notifyAll h hk)
    have hblocks : next P st' (.goOn k input) = some (st'.become k (.waits .blocked)) := by
      simp [next, hsettled.dozing, Pool.goOn]
    refine ⟨actions ++ [.goOn k input], st'.become k (.waits .blocked), ?_, hsettled.joins,
      ?_, ?_⟩
    · rw [run, hnext]
      exact run_snoc hrun hblocks
    · obtain ⟨hlen, -⟩ := List.getElem?_eq_some_iff.mp hsettled.dozing
      exact ⟨_, List.mem_set hlen _, rfl⟩
    · intro thread hmem
      rcases List.mem_or_eq_of_mem_set hmem with hold | rfl
      · exact hcalls thread hold
      · rfl
  · exact absurd trivial hunheard

end

end Monitor
