import RealtimeServer.Game.RoomLifetime
import RealtimeServer.Lib.SpinLock

/-!
# The job queue under its spin lock

Model of `JobQueue` (`Utils/JobQueue.h`) and of `SpinLock` (`Utils/Lock.h`), as a client of
`Lib/SpinLock`: any number of threads call `Push` and `Empty`, and one, the owner of the jobs, calls
`Flush` as well. A section takes more than one step: `m_jobs.push` reads the queue and writes it
back, `std::swap` goes through a third queue. The jobs are of any type.

* `section_pushJob`, `section_takeJobs`: as a whole, a section does what a `PushJob` and the swap of
  a `Flush` do in one step of the rooms.
* **`flushed_in_order`**: whatever the threads do, one of them at a time is in its section; the
  owner runs the jobs in the order in which their pushes got the lock, none lost, none twice; each
  thread's pushes come in the order it made them, and one that returned comes before any that began
  later.
-/

namespace RealtimeServer

open Guarded
open SpinLock (Atomic AtomicAction Client Locked Thread)

/-- The variables of a thread that uses the queue. -/
structure JobCaller (α : Type*) where
  /-- It is the thread that calls `Flush`. -/
  owner : Bool
  /-- `jobs` in `Flush`. -/
  jobs : List α
  /-- It is in the call of `jobs.front()`. -/
  running : Bool
  /-- What a section keeps from one step to the next. -/
  scratch : List α
  /-- What its last `Empty` returned. -/
  wasEmpty : Option Bool
  /-- The jobs it has run; no thread reads it. -/
  executed : List α
  deriving DecidableEq

def JobCaller.new (α : Type*) (owner : Bool) : JobCaller α :=
  { owner := owner, jobs := [], running := false, scratch := [], wasEmpty := none, executed := [] }

/-- The jobs its `Flush` has still to run. -/
def JobCaller.left {α : Type*} (own : JobCaller α) : List α :=
  if own.running then own.jobs.tail else own.jobs

/-- What takes the lock. -/
inductive JobCall (α : Type*)
  | push (job : α)
  /-- The swap of `Flush`. -/
  | swap
  | empty
  deriving DecidableEq

/-- The loop of `Flush`. -/
inductive JobAct
  /-- `jobs.front()()`. -/
  | front
  /-- It has returned: `jobs.pop()`. -/
  | pop
  deriving DecidableEq

section

variable {α : Type*}

/-- The critical section of a call. -/
def JobCall.body : JobCall α → SpinLock.Body (List α) (JobCaller α)
  | push job =>
    [fun (jobs, own) => (jobs, { own with scratch := jobs }),
      fun (_, own) => (own.scratch ++ [job], own)]
  | swap =>
    [fun (jobs, own) => (jobs, { own with scratch := own.jobs }),
      fun (jobs, own) => (jobs, { own with jobs := jobs }),
      fun (_, own) => (own.scratch, own)]
  | empty => [fun (jobs, own) => (jobs, { own with wasEmpty := some jobs.isEmpty })]

/-- `Flush` begins with a queue of its own that is empty. -/
def JobCaller.ready (own : JobCaller α) : JobCall α → Bool
  | .push _ | .empty => true
  | .swap => own.owner && own.jobs.isEmpty && !own.running

def JobCaller.act (own : JobCaller α) : JobAct → Option (JobCaller α)
  | .front =>
    match own.jobs with
    | job :: _ =>
      if own.running then none
      else some { own with running := true, executed := own.executed ++ [job] }
    | [] => none
  | .pop => if own.running then some { own with running := false, jobs := own.jobs.tail } else none

/-- `JobQueue`. -/
def jobQueue (α : Type*) : Client (List α) (JobCaller α) (JobCall α) JobAct :=
  { ready := JobCaller.ready, body := JobCall.body, own := JobCaller.act }

/-- An empty queue, with its owner and some more threads. -/
def jobQueueStart (α : Type*) (others : ℕ) : Locked (List α) (JobCaller α) (JobCall α) :=
  .start [] (.new α true :: List.replicate others (.new α false))

abbrev JobQueueAction (α : Type*) := SpinLock.Action (JobCall α) JobAct

/-- The pushes of an atomic run, with the threads that made them. -/
def pushesOf (actions : List (AtomicAction (JobCall α) JobAct)) : List (ℕ × α) :=
  actions.filterMap fun
    | .perform k (.push job) => some (k, job)
    | _ => none

/-- The pushes of a run, in the order in which they got the lock. -/
def pushOrder (others : ℕ) (actions : List (JobQueueAction α)) : List (ℕ × α) :=
  pushesOf (SpinLock.linear (jobQueue α) (jobQueueStart α others) actions)

/-- The job of a `Push`. -/
def JobCall.job : JobCall α → Option α
  | push job => some job
  | swap | empty => none

/-- The jobs the thread has called `Push` with. -/
def pushCalls (k : ℕ) (actions : List (JobQueueAction α)) : List α :=
  (SpinLock.calledBy k actions).filterMap JobCall.job

/-- The pushes of one thread. -/
def pushedBy (k : ℕ) (pushes : List (ℕ × α)) : List α :=
  (pushes.filter fun push => push.1 = k).map Prod.snd

/-- The thread waits for the lock. -/
def Waits (k : ℕ) (st : Locked (List α) (JobCaller α) (JobCall α)) : Prop :=
  ∃ call own, st.threads[k]? = some (.spinning call own)

/-! ## The sections as a whole -/

theorem all_swap (jobs : List α) (own : JobCaller α) :
    JobCall.swap.body.all (jobs, own) =
      (own.jobs, { own with jobs := jobs, scratch := own.jobs }) := rfl

/-- `PushJob` of a room, in one step. -/
theorem section_pushJob (room : GameRoom) (job : Job) (own : JobCaller Job) :
    ((JobCall.push job).body.all (room.jobQueue, own)).1 = (room.pushJob job).jobQueue := rfl

/-- The swap of a `Flush`, in one step: the queue is empty then, and the `Flush` has its jobs. -/
theorem section_takeJobs {st : Threads} {r : RoomRef} (hr : r < st.srv.rooms.heap.length)
    (rest : List RoomRef) {own : JobCaller Job} (hready : own.ready .swap = true) :
    (JobCall.swap.body.all ((st.srv.room r).jobQueue, own)).1 =
        ((st.takeJobs r rest).srv.room r).jobQueue ∧
      (st.takeJobs r rest).flushing =
        some (r, (JobCall.swap.body.all ((st.srv.room r).jobQueue, own)).2.jobs) := by
  simp only [JobCaller.ready, Bool.and_eq_true, List.isEmpty_iff] at hready
  refine ⟨?_, rfl⟩
  have hroom : (st.takeJobs r rest).srv.room r = { st.srv.room r with jobQueue := [] } :=
    RoomManager.room_modify_self hr fun room => { room with jobQueue := [] }
  rw [all_swap, hready.1.2, hroom]

/-! ## The atomic queue -/

/-- In an atomic run: what was pushed was run, is left to the `Flush`, or is in the queue. -/
structure Flushed (actions : List (AtomicAction (JobCall α) JobAct))
    (st : Atomic (List α) (JobCaller α)) : Prop where
  owner : ∃ own, st.own[0]? = some own ∧ own.executed ++ own.left ++ st.data =
    (pushesOf actions).map Prod.snd
  only : ∀ k own, st.own[k]? = some own → own.owner = true → k = 0

theorem flushed_start (others : ℕ) :
    Flushed [] ⟨([] : List α), .new α true :: List.replicate others (.new α false)⟩ where
  owner := ⟨.new α true, rfl, rfl⟩
  only k own hk howner := by
    cases k with
    | zero => rfl
    | succ k =>
      obtain rfl := List.eq_of_mem_replicate (List.mem_of_getElem? hk)
      exact absurd howner (by simp [JobCaller.new])

variable {actions : List (AtomicAction (JobCall α) JobAct)} {st : Atomic (List α) (JobCaller α)}
  {own own' : JobCaller α} {k : ℕ}

/-- The thread's variables change, and what else there is. -/
theorem Flushed.change (h : Flushed actions st) (hown : st.own[k]? = some own)
    (howner : own'.owner = own.owner) {action : AtomicAction (JobCall α) JobAct} {data : List α}
    (hmoved : k = 0 → own'.executed ++ own'.left ++ data =
      own.executed ++ own.left ++ st.data ++ (pushesOf [action]).map Prod.snd)
    (hother : k ≠ 0 → data = st.data ++ (pushesOf [action]).map Prod.snd) :
    Flushed (actions ++ [action]) ⟨data, st.own.set k own'⟩ := by
  obtain ⟨hk, -⟩ := List.getElem?_eq_some_iff.mp hown
  have hpushes : (pushesOf (actions ++ [action])).map Prod.snd =
      (pushesOf actions).map Prod.snd ++ (pushesOf [action]).map Prod.snd := by
    unfold pushesOf
    rw [List.filterMap_append, List.map_append]
  constructor
  · obtain ⟨first, hfirst, heq⟩ := h.owner
    by_cases hzero : k = 0
    · subst hzero
      obtain rfl := Option.some.inj (hown.symm.trans hfirst)
      refine ⟨own', List.getElem?_set_self hk, ?_⟩
      rw [hpushes, ← heq]
      exact hmoved rfl
    · refine ⟨first, (List.getElem?_set_ne hzero).trans hfirst, ?_⟩
      rw [hpushes, ← heq, hother hzero]
      simp only [List.append_assoc]
  · intro j own₁ hj howner₁
    by_cases hjk : k = j
    · subst hjk
      rw [List.getElem?_set_self hk] at hj
      obtain rfl := Option.some.inj hj
      exact h.only k own hown (howner ▸ howner₁)
    · rw [List.getElem?_set_ne hjk] at hj
      exact h.only j own₁ hj howner₁

/-- **Every section and every step of the `Flush`** keeps the account of the jobs. -/
theorem flushed_next {action : AtomicAction (JobCall α) JobAct}
    {st' : Atomic (List α) (JobCaller α)} (h : Flushed actions st)
    (hnext : SpinLock.atomicNext (jobQueue α) st action = some st') :
    Flushed (actions ++ [action]) st' := by
  cases action with
  | perform k call =>
    simp only [SpinLock.atomicNext] at hnext
    split at hnext
    · rename_i own hown
      obtain ⟨hready, rfl⟩ := of_guard hnext
      cases call with
      | push job =>
        change Flushed _ ⟨st.data ++ [job], st.own.set k { own with scratch := st.data }⟩
        refine h.change hown ?_ (fun _ => ?_) fun _ => ?_
        · rfl
        · exact (List.append_assoc _ _ _).symm
        · rfl
      | swap =>
        have hswap : own.ready .swap = true := hready
        simp only [JobCaller.ready, Bool.and_eq_true, List.isEmpty_iff,
          Bool.not_eq_true'] at hswap
        obtain ⟨⟨howner, hjobs⟩, hidle⟩ := hswap
        have hzero := h.only k own hown howner
        change Flushed _ ⟨own.jobs, st.own.set k { own with jobs := st.data, scratch := own.jobs }⟩
        refine h.change hown ?_ (fun _ => ?_) fun hne => absurd hzero hne
        · rfl
        · change own.executed ++ (if own.running then st.data.tail else st.data) ++ own.jobs =
            own.executed ++ (if own.running then own.jobs.tail else own.jobs) ++ st.data ++ []
          simp [hidle, hjobs]
      | empty =>
        change Flushed _
          ⟨st.data, st.own.set k { own with wasEmpty := some st.data.isEmpty }⟩
        refine h.change hown ?_ (fun _ => ?_) fun _ => ?_
        · rfl
        · exact (List.append_nil _).symm
        · exact (List.append_nil _).symm
    · exact absurd hnext (by simp)
  | own k act =>
    simp only [SpinLock.atomicNext] at hnext
    split at hnext
    · rename_i own hown
      obtain ⟨own', hact, rfl⟩ := Option.map_eq_some_iff.mp hnext
      have hmoves : own'.owner = own.owner ∧
          own'.executed ++ own'.left = own.executed ++ own.left := by
        change own.act act = some own' at hact
        cases act with
        | front =>
          unfold JobCaller.act at hact
          cases hjobs : own.jobs with
          | nil =>
            rw [hjobs] at hact
            exact absurd hact (by simp)
          | cons job jobs =>
            rw [hjobs] at hact
            simp only at hact
            split at hact
            · exact absurd hact (by simp)
            · rename_i hidle
              obtain rfl := Option.some.inj hact
              simp [JobCaller.left, hjobs, hidle]
        | pop =>
          obtain ⟨hrunning, rfl⟩ := of_guard hact
          simp [JobCaller.left, hrunning]
      change Flushed _ ⟨st.data, st.own.set k own'⟩
      refine h.change hown hmoves.1 (fun _ => ?_) fun _ => ?_
      · rw [hmoves.2]
        exact (List.append_nil _).symm
      · exact (List.append_nil _).symm
    · exact absurd hnext (by simp)

/-! ## Under the lock -/

variable {others : ℕ} {runs more : List (JobQueueAction α)}
  {locked : Locked (List α) (JobCaller α) (JobCall α)}

theorem flushed_of_run (hrun : run (SpinLock.atomicNext (jobQueue α))
    ⟨[], .new α true :: List.replicate others (.new α false)⟩ actions = some st) :
    Flushed actions st :=
  run_history (flushed_start others) (fun _ _ _ _ _ h hnext => flushed_next h hnext) hrun

/-- No section touches what its thread has run, nor what the loop of its `Flush` looks at. -/
theorem executed_section (call : JobCall α) : ∀ step ∈ (jobQueue α).body call,
    ∀ x, (step x).2.executed = x.2.executed := by
  intro step hstep x
  cases call with
  | push job =>
    rcases List.mem_pair.mp hstep with rfl | rfl <;> rfl
  | swap =>
    simp only [jobQueue, JobCall.body, List.mem_cons, List.not_mem_nil, or_false] at hstep
    rcases hstep with rfl | rfl | rfl <;> rfl
  | empty =>
    obtain rfl := List.mem_singleton.mp hstep
    rfl

theorem pushedBy_pushesOf (k : ℕ) (actions : List (AtomicAction (JobCall α) JobAct)) :
    (SpinLock.performedBy k actions).filterMap JobCall.job = pushedBy k (pushesOf actions) := by
  unfold SpinLock.performedBy pushedBy pushesOf
  induction actions with
  | nil => rfl
  | cons action actions ih =>
    cases action with
    | own j act => exact ih
    | perform j call =>
      by_cases hj : j = k
      · cases call with
        | push job => simpa [hj, JobCall.job] using ih
        | swap =>
          simp only [List.filterMap_cons, hj, if_true, JobCall.job]
          exact ih
        | empty =>
          simp only [List.filterMap_cons, hj, if_true, JobCall.job]
          exact ih
      · cases call with
        | push job => simpa [hj] using ih
        | swap => simpa [hj] using ih
        | empty => simpa [hj] using ih

/-- A thread's pushes in the order of the lock, and the one it waits with. -/
theorem pushCalls_eq (k : ℕ)
    (hrun : run (SpinLock.next (jobQueue α)) (jobQueueStart α others) runs = some locked) :
    pushCalls k runs =
      pushedBy k (pushOrder others runs) ++ (locked.waiting k).filterMap JobCall.job := by
  have hcalls := SpinLock.called_of_run hrun k
  unfold pushCalls pushOrder
  rw [hcalls, List.filterMap_append, pushedBy_pushesOf]
  rfl

/-- **The job queue.** In every run of the owner and any number of other threads: two threads are
never in their sections at once; what the owner has run is a start of the pushes in the order of the
lock, and while nobody is in a section, the rest of them is what its `Flush` has left and what is in
the queue; each thread's pushes are in there once, in the order of its calls, but for one that waits
for the lock; and later pushes come behind. A thread that waits can be brought to get the lock. -/
theorem flushed_in_order
    (hrun : run (SpinLock.next (jobQueue α)) (jobQueueStart α others) runs = some locked) :
    (∀ (j k : ℕ) (one other : Thread (List α) (JobCaller α) (JobCall α)),
        locked.threads[j]? = some one → locked.threads[k]? = some other →
        one.isInside = true → other.isInside = true → j = k) ∧
      (∃ owner, locked.threads[0]? = some owner ∧
        owner.own.executed <+: (pushOrder others runs).map Prod.snd ∧
        ((∀ thread ∈ locked.threads, thread.isInside = false) →
          owner.own.executed ++ owner.own.left ++ locked.data =
            (pushOrder others runs).map Prod.snd)) ∧
      (∀ k, pushedBy k (pushOrder others runs) <+: pushCalls k runs ∧
        (¬ Waits k locked → pushedBy k (pushOrder others runs) = pushCalls k runs)) ∧
      (∀ more later, run (SpinLock.next (jobQueue α)) locked more = some later →
        pushOrder others runs <+: pushOrder others (runs ++ more)) ∧
      ∀ k, Waits k locked → ∃ more later thread,
        run (SpinLock.next (jobQueue α)) locked more = some later ∧
          later.threads[k]? = some thread ∧ thread.isInside = true := by
  obtain ⟨atomic, hatomic, hrefines⟩ := SpinLock.refines_of_run hrun
  have hflushed := flushed_of_run hatomic
  refine ⟨fun j k one other hone hother hj hk => ?_, ?_, fun k => ⟨?_, fun hnot => ?_⟩,
    fun more later hlater => ?_, ?_⟩
  · exact SpinLock.inside_unique hrefines.exclusive hone hother hj hk
  · obtain ⟨own, hown, heq⟩ := hflushed.owner
    change _ = (pushOrder others runs).map Prod.snd at heq
    rw [hrefines.own, List.getElem?_map] at hown
    obtain ⟨owner, howner, rfl⟩ := Option.map_eq_some_iff.mp hown
    have hmem := List.mem_of_getElem? howner
    refine ⟨owner, howner, ?_, fun hnone => ?_⟩
    · rw [← SpinLock.settled_keeps executed_section hrun hmem, ← heq, List.append_assoc]
      exact List.prefix_append _ _
    · obtain ⟨hdata, hown⟩ := hrefines.at_rest hnone
      have hsettled : owner.settled locked.data = owner.own := by
        have hget := hrefines.own_get howner
        rw [hown, List.getElem?_map, howner] at hget
        exact (Option.some.inj hget).symm
      rw [hsettled, hdata] at heq
      exact heq
  · rw [pushCalls_eq k hrun]
    exact List.prefix_append _ _
  · rw [pushCalls_eq k hrun]
    have hnone : locked.waiting k = [] := by
      unfold SpinLock.Locked.waiting
      split
      · rename_i call own hthread
        exact absurd ⟨call, own, hthread⟩ hnot
      · rfl
    rw [hnone]
    exact (List.append_nil _).symm
  · unfold pushOrder pushesOf
    rw [SpinLock.linear_append hrun, List.filterMap_append]
    exact List.prefix_append _ _
  · rintro k ⟨call, own, hthread⟩
    obtain ⟨more, later, hlater, hin⟩ := SpinLock.lock_progress hrun hthread
    exact ⟨more, later, _, hlater, hin, rfl⟩

/-- Two threads push at once, the second waiting for the first; the owner flushes, and a third job
is pushed while it runs the second. -/
def twoPushers : List (JobQueueAction ℕ) :=
  ([[.enter 1 (.push 7), .enter 2 (.push 8), .exchange 1, .exchange 2],
    List.replicate 3 (.goOn 1), [.exchange 2], List.replicate 3 (.goOn 2),
    [.enter 0 .swap, .exchange 0], List.replicate 4 (.goOn 0),
    [.own 0 .front, .own 0 .pop, .own 0 .front, .enter 1 (.push 9), .exchange 1],
    List.replicate 3 (.goOn 1)] : List (List (JobQueueAction ℕ))).flatten

theorem flushed_twoPushers :
    ∃ locked owner, run (SpinLock.next (jobQueue ℕ)) (jobQueueStart ℕ 2) twoPushers = some locked ∧
      locked.threads[0]? = some owner ∧ owner.own.executed = [7, 8] ∧ locked.data = [9] ∧
      owner.own.executed ++ owner.own.left ++ locked.data =
        (pushOrder 2 twoPushers).map Prod.snd ∧
      pushedBy 1 (pushOrder 2 twoPushers) = pushCalls 1 twoPushers := by
  obtain ⟨locked, hrun, hexecuted, hdata, hnone, hdone⟩ :
      ∃ locked, run (SpinLock.next (jobQueue ℕ)) (jobQueueStart ℕ 2) twoPushers = some locked ∧
        locked.threads[0]?.map (fun owner => owner.own.executed) = some [7, 8] ∧
        locked.data = [9] ∧ (∀ thread ∈ locked.threads, thread.isInside = false) ∧
        locked.waiting 1 = [] := by
    decide +kernel
  obtain ⟨-, ⟨owner, howner, -, hall⟩, hthreads, -⟩ := flushed_in_order hrun
  have hreturned : ¬ Waits 1 locked := by
    rintro ⟨call, own, hthread⟩
    simp [SpinLock.Locked.waiting, hthread] at hdone
  rw [howner] at hexecuted
  exact ⟨locked, owner, hrun, howner, Option.some.inj hexecuted, hdata, hall hnone,
    (hthreads 1).2 hreturned⟩

end

end RealtimeServer
