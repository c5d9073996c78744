import RealtimeServer.Lib.Monitor
import RealtimeServer.Lib.Tally
import RealtimeServer.Utils.AuthService

/-!
# The workers of the auth service

Model of `Start`, `Stop`, `ValidateAsync` and `WorkerLoop` of `AuthService`
(`Utils/AuthService.cpp`) as a program for the threads of `Lib/Monitor`. A job is the token of a
`ValidateAsync`, with the number of the thread that made the call; its callback is what the caller
gave with it. `Stop` is called once, by the destructor of `ServerCore`. HTTP requests and callbacks
return.

* **`callbacks_exactly_once`**: no job is taken twice and no callback is called twice; and when
  `Stop` returns, the callback of every job that was queued before it began has been called.
-/

namespace RealtimeServer

open Guarded
open Monitor (Entry Outcome Program Pool Thread)

/-- The path of the request to the session-server. -/
def validatePath (token : Bytes) : Bytes := utf8 "/auth/validate?token=" ++ token

/-- Where a worker is behind its `wait`. -/
inductive AuthWork
  /-- With the mutex, about to look into the queue. -/
  | behindWait
  /-- With the mutex still, out of the loop. -/
  | leaving
  /-- With the mutex still, and a job. -/
  | popped (job : Entry Bytes)
  /-- In `HttpClient::Get`. -/
  | requesting (job : Entry Bytes) (path : Bytes)
  /-- About to call the callback. -/
  | calling (job : Entry Bytes) (valid : Bool) (accountId : Bytes)
  deriving DecidableEq

inductive AuthEvent
  /-- A worker has taken the job of this call. -/
  | took (job : ℕ)
  /-- It calls its callback. -/
  | called (job : ℕ) (valid : Bool) (accountId : Bytes)
  deriving DecidableEq

namespace AuthWork

def holds : AuthWork → Bool
  | behindWait | leaving | popped _ => true
  | requesting .. | calling .. => false

/-- `WorkerLoop` behind its `wait`; `resp` is what `HttpClient::Get` returns. -/
def step (work : AuthWork) (queue : List (Entry Bytes)) (_running : Bool) (resp : HttpResponse) :
    Option (Outcome Bytes AuthWork AuthEvent) :=
  match work with
  | behindWait =>
    match queue with
    | [] => some ⟨.work leaving, [], []⟩
    | job :: jobs => some ⟨.work (popped job), jobs, [.took job.1]⟩
  | leaving => some ⟨.exit, queue, []⟩
  | popped job => some ⟨.work (requesting job (validatePath job.2)), queue, []⟩
  | requesting job _ => some ⟨.work (calling job (validate resp).1 (validate resp).2), queue, []⟩
  | calling job valid accountId => some ⟨.again, queue, [.called job.1 valid accountId]⟩

end AuthWork

/-- `AuthService::WorkerLoop`. -/
def authProgram : Program Bytes AuthWork AuthEvent HttpResponse where
  behindWait := .behindWait
  holds := AuthWork.holds
  step := AuthWork.step
  holds_behindWait := rfl
  guarded := by
    intro work queue running resp outcome hstep hfree
    cases work with
    | requesting job path =>
      obtain rfl := Option.some.inj hstep
      rfl
    | calling job valid accountId =>
      obtain rfl := Option.some.inj hstep
      rfl
    | _ => exact absurd hfree (by simp [AuthWork.holds])

/-- The auth service with its threads. -/
abbrev AuthPool := Pool Bytes AuthWork AuthEvent

abbrev AuthAction := Monitor.Action Bytes HttpResponse

/-- A step of it. -/
abbrev authNext : AuthPool → AuthAction → Option AuthPool := Monitor.next authProgram

/-! ## Where a job is -/

/-- How often the job of a call is in the queue. -/
def queuedJob (queue : List (Entry Bytes)) (i : ℕ) : ℕ := queue.countP fun job => job.1 = i

/-- How often it has been taken. -/
def takenJob (log : List (ℕ × AuthEvent)) (i : ℕ) : ℕ := log.countP fun entry => entry.2 = .took i

/-- The event is a call of its callback. -/
def AuthEvent.isCalled (i : ℕ) : AuthEvent → Bool
  | called job _ _ => job = i
  | took _ => false

/-- How often its callback has been called. -/
def calledJob (log : List (ℕ × AuthEvent)) (i : ℕ) : ℕ := log.countP fun entry => entry.2.isCalled i

/-- A worker has it in its hands. -/
def AuthWork.carries (i : ℕ) : AuthWork → Bool
  | popped job | requesting job _ | calling job _ _ => job.1 = i
  | behindWait | leaving => false

def threadCarries (i : ℕ) : Thread Bytes AuthWork → Bool
  | .works work => work.carries i
  | _ => false

def carriedJob (threads : List (Thread Bytes AuthWork)) (i : ℕ) : ℕ :=
  threads.countP (threadCarries i)

/-- The call has pushed its job. -/
def threadPushed : Thread Bytes AuthWork → Bool
  | .calls _ .locked => false
  | .calls _ _ => true
  | _ => false

def pushedJob (threads : List (Thread Bytes AuthWork)) (i : ℕ) : ℕ :=
  ((threads[i]?).any threadPushed).toNat

/-- **The invariant**: a job that was pushed is in the queue or was taken, once; and a job that was
taken is in the hands of a worker, or its callback has been called. -/
structure Counted (queue : List (Entry Bytes)) (threads : List (Thread Bytes AuthWork))
    (log : List (ℕ × AuthEvent)) (i : ℕ) : Prop where
  taken : queuedJob queue i + takenJob log i = pushedJob threads i
  called : carriedJob threads i + calledJob log i = takenJob log i

section

variable {queue queue' : List (Entry Bytes)} {threads : List (Thread Bytes AuthWork)}
  {log : List (ℕ × AuthEvent)} {events : List AuthEvent} {i k : ℕ}
  {old new : Thread Bytes AuthWork}

theorem carriedJob_set (hold : threads[k]? = some old) (new : Thread Bytes AuthWork) (i : ℕ) :
    carriedJob (threads.set k new) i + (threadCarries i old).toNat =
      carriedJob threads i + (threadCarries i new).toNat :=
  Tally.countP_set_add (threadCarries i) hold new

theorem pushedJob_set (hold : threads[k]? = some old) :
    pushedJob (threads.set k new) i =
      if i = k then (threadPushed new).toNat else pushedJob threads i := by
  obtain ⟨hk, -⟩ := List.getElem?_eq_some_iff.mp hold
  unfold pushedJob
  by_cases hi : i = k
  · subst hi
    rw [if_pos rfl, List.getElem?_set_self hk]
    rfl
  · rw [if_neg hi, List.getElem?_set_ne (Ne.symm hi)]

theorem pushedJob_of_get (hold : threads[k]? = some old) :
    pushedJob threads k = (threadPushed old).toNat := by
  unfold pushedJob
  rw [hold]
  rfl

theorem takenJob_append :
    takenJob (log ++ events.map fun event => (k, event)) i =
      takenJob log i + events.countP fun event => event = .took i := by
  unfold takenJob
  rw [List.countP_append, List.countP_map]
  rfl

theorem calledJob_append :
    calledJob (log ++ events.map fun event => (k, event)) i =
      calledJob log i + events.countP fun event => event.isCalled i := by
  unfold calledJob
  rw [List.countP_append, List.countP_map]
  rfl

/-- A step of a worker: what it takes out of the queue it has in its hands, and what it no longer
has it has called. -/
theorem counted_works (h : Counted queue threads log i) (hold : threads[k]? = some old)
    (hpushed : threadPushed new = threadPushed old)
    (hqueue : queuedJob queue' i + (events.countP fun event => event = .took i) =
      queuedJob queue i)
    (hcalled : (threadCarries i new).toNat + (events.countP fun event => event.isCalled i) =
      (threadCarries i old).toNat + events.countP fun event => event = .took i) :
    Counted queue' (threads.set k new) (log ++ events.map fun event => (k, event)) i := by
  have hcarried := carriedJob_set hold new i
  obtain ⟨htaken, hsame⟩ := h
  refine ⟨?_, ?_⟩
  · have hkept : pushedJob (threads.set k new) i = pushedJob threads i := by
      rw [pushedJob_set hold]
      split
      · rename_i hi
        rw [hi, pushedJob_of_get hold, hpushed]
      · rfl
    rw [takenJob_append, hkept]
    omega
  · rw [takenJob_append, calledJob_append]
    omega

/-- A thread that moves no job. -/
theorem counted_set (h : Counted queue threads log i) (hold : threads[k]? = some old)
    (hpushed : threadPushed new = threadPushed old)
    (hcarries : threadCarries i new = threadCarries i old) :
    Counted queue (threads.set k new) log i := by
  have hset := @counted_works queue queue threads log [] i k old new h hold hpushed rfl (by
    rw [hcarries]
    rfl)
  rwa [List.map_nil, List.append_nil] at hset

theorem counted_pushes {job : Bytes} (h : Counted queue threads log i)
    (hold : threads[k]? = some (.calls job .locked)) :
    Counted (queue ++ [(k, job)]) (threads.set k (.calls job .pushed)) log i := by
  have hcarried := carriedJob_set hold (.calls job .pushed) i
  obtain ⟨htaken, hsame⟩ := h
  refine ⟨?_, ?_⟩
  · rw [pushedJob_set hold]
    unfold queuedJob at htaken ⊢
    rw [List.countP_append, List.countP_singleton]
    by_cases hi : i = k
    · subst hi
      rw [pushedJob_of_get hold] at htaken
      have hnone : (threadPushed (.calls job .locked)).toNat = 0 := rfl
      have hone : (threadPushed (.calls job .pushed)).toNat = 1 := rfl
      rw [if_pos rfl, if_pos (decide_eq_true rfl)]
      omega
    · rw [if_neg hi, if_neg (by simp [Ne.symm hi])]
      exact htaken
  · have hsteady : carriedJob (threads.set k (.calls job .pushed)) i = carriedJob threads i :=
      hcarried
    rw [hsteady]
    exact hsame

theorem counted_calls {job : Bytes} (h : Counted queue threads log i) :
    Counted queue (threads ++ [.calls job .locked]) log i := by
  refine ⟨h.taken.trans ?_, ?_⟩
  · unfold pushedJob
    rw [List.getElem?_append]
    split
    · rfl
    · rename_i hlen
      rw [List.getElem?_eq_none (not_lt.mp hlen)]
      cases i - threads.length <;> rfl
  · unfold carriedJob
    rw [List.countP_append]
    exact h.called

theorem threadCarries_wake (i : ℕ) (thread : Thread Bytes AuthWork) :
    threadCarries i thread.wake = threadCarries i thread := by
  cases thread with
  | waits waiting => cases waiting <;> rfl
  | _ => rfl

theorem threadPushed_wake (thread : Thread Bytes AuthWork) :
    threadPushed thread.wake = threadPushed thread := by
  cases thread with
  | waits waiting => cases waiting <;> rfl
  | _ => rfl

theorem counted_wake (h : Counted queue threads log i) :
    Counted queue (threads.map Thread.wake) log i := by
  refine ⟨h.taken.trans ?_, Eq.trans ?_ h.called⟩
  · unfold pushedJob
    rw [List.getElem?_map]
    cases threads[i]? with
    | none => rfl
    | some thread =>
      exact congrArg Bool.toNat (threadPushed_wake thread).symm
  · unfold carriedJob
    rw [List.countP_map]
    refine congrArg (· + calledJob log i) (List.countP_congr fun thread _ => ?_)
    rw [Function.comp_apply, threadCarries_wake]

end

section

variable {st st' : AuthPool} {action : AuthAction} {i : ℕ}

/-- The job of a call is accounted for. -/
def JobCounted (i : ℕ) (st : AuthPool) : Prop := Counted st.queue st.threads st.log i

theorem jobCounted_start (workers i : ℕ) : JobCounted i (.start workers) := by
  refine ⟨?_, ?_⟩
  · unfold pushedJob Pool.start
    rw [List.getElem?_replicate]
    split <;> rfl
  · unfold carriedJob Pool.start
    rw [List.countP_replicate]
    rfl

theorem jobCounted_step {work : AuthWork} {resp : HttpResponse} {k : ℕ}
    {outcome : Outcome Bytes AuthWork AuthEvent} (h : JobCounted i st)
    (hthread : st.threads[k]? = some (.works work))
    (hstep : AuthWork.step work st.queue st.running resp = some outcome) :
    Counted outcome.queue (st.threads.set k (.ofOnward outcome.onward))
      (st.log ++ outcome.events.map fun event => (k, event)) i := by
  cases work with
  | behindWait =>
    cases hqueue : st.queue with
    | nil =>
      rw [hqueue] at hstep
      obtain rfl := Option.some.inj hstep
      exact counted_works h hthread rfl (by rw [hqueue]; rfl) rfl
    | cons job jobs =>
      rw [hqueue] at hstep
      obtain rfl := Option.some.inj hstep
      refine counted_works h hthread rfl ?_ ?_
      · rw [hqueue]
        simp [queuedJob, List.countP_cons]
      · simp [threadCarries, AuthWork.carries, AuthEvent.isCalled, Thread.ofOnward,
          Tally.toNat_eq_ite]
  | leaving =>
    obtain rfl := Option.some.inj hstep
    exact counted_works h hthread rfl rfl rfl
  | popped job =>
    obtain rfl := Option.some.inj hstep
    exact counted_works h hthread rfl rfl rfl
  | requesting job path =>
    obtain rfl := Option.some.inj hstep
    exact counted_works h hthread rfl rfl rfl
  | calling job valid accountId =>
    obtain rfl := Option.some.inj hstep
    refine counted_works h hthread rfl rfl ?_
    simp [threadCarries, AuthWork.carries, AuthEvent.isCalled, Thread.ofOnward,
      Tally.toNat_eq_ite]

theorem jobCounted_next (h : JobCounted i st) (hnext : authNext st action = some st') :
    JobCounted i st' := by
  cases Monitor.acts_next hnext with
  | calls job free => exact counted_calls h
  | locks k input waiting thread outside free => exact counted_set h thread rfl rfl
  | fails k input thread => exact counted_set h thread rfl rfl
  | passes k input thread => exact counted_set h thread rfl rfl
  | blocks k input thread => exact counted_set h thread rfl rfl
  | works k input work outcome thread step lock => exact jobCounted_step h thread step
  | pushes k input job thread => exact counted_pushes h thread
  | unlocks k input job thread => exact counted_set h thread rfl rfl
  | notifies k j job thread sleeper =>
    have hne : j ≠ k := by
      rintro rfl
      rw [thread] at sleeper
      exact absurd sleeper (by simp)
    have hwoken : Counted st.queue (st.threads.set j (.waits .woken)) st.log i :=
      counted_set h sleeper rfl rfl
    exact counted_set hwoken ((List.getElem?_set_ne hne).trans thread) rfl rfl
  | notifiesNone k job thread => exact counted_set h thread rfl rfl
  | wakes k thread => exact counted_set h thread rfl rfl
  | notifiesAll => exact counted_wake h
  | _ => exact h

/-- A thread goes on and still has pushed its job. -/
theorem pushed_set {threads : List (Thread Bytes AuthWork)} {k : ℕ}
    {old new : Thread Bytes AuthWork} (h : pushedJob threads i = 1) (hold : threads[k]? = some old)
    (hpushed : threadPushed old = true → threadPushed new = true) :
    pushedJob (threads.set k new) i = 1 := by
  rw [pushedJob_set hold]
  split
  · rename_i hi
    rw [hi, pushedJob_of_get hold, Bool.toNat_eq_one] at h
    rw [hpushed h]
    rfl
  · exact h

theorem pushedJob_next (h : pushedJob st.threads i = 1) (hnext : authNext st action = some st') :
    pushedJob st'.threads i = 1 := by
  cases Monitor.acts_next hnext with
  | calls job free =>
    refine Eq.trans ?_ h
    unfold pushedJob at h ⊢
    rw [List.getElem?_append]
    split
    · rfl
    · rename_i hlen
      rw [List.getElem?_eq_none (not_lt.mp hlen)] at h
      exact absurd h (by simp)
  | locks k input waiting thread => exact pushed_set h thread id
  | fails k input thread => exact pushed_set h thread id
  | passes k input thread => exact pushed_set h thread id
  | blocks k input thread => exact pushed_set h thread id
  | works k input work outcome thread =>
    exact pushed_set h thread fun hpushed => absurd hpushed (by simp [threadPushed])
  | pushes k input job thread => exact pushed_set h thread fun _ => rfl
  | unlocks k input job thread => exact pushed_set h thread fun _ => rfl
  | notifies k j job thread sleeper =>
    have hne : j ≠ k := by
      rintro rfl
      rw [thread] at sleeper
      exact absurd sleeper (by simp)
    have hwoken : pushedJob (st.threads.set j (.waits .woken)) i = 1 := pushed_set h sleeper id
    exact pushed_set hwoken ((List.getElem?_set_ne hne).trans thread) fun _ => rfl
  | notifiesNone k job thread => exact pushed_set h thread fun _ => rfl
  | wakes k thread => exact pushed_set h thread id
  | notifiesAll =>
    unfold pushedJob at h ⊢
    rw [List.getElem?_map]
    cases hget : st.threads[i]? with
    | none =>
      rw [hget] at h
      exact h
    | some thread =>
      rw [hget] at h
      exact (congrArg Bool.toNat (threadPushed_wake thread)).trans h
  | _ => exact h

end

/-! ## Who leaves, and when -/

/-- It is out of its `wait`, with the mutex. -/
def threadBehind : Thread Bytes AuthWork → Bool
  | .works .behindWait => true
  | _ => false

/-- It has seen that the queue is empty, and leaves. -/
def threadOut : Thread Bytes AuthWork → Bool
  | .exited | .works .leaving => true
  | _ => false

/-- **The invariant**: a worker that is out of its `wait` finds a job, or the flag is down; one that
leaves has found it down. -/
structure Leaving (queue : List (Entry Bytes)) (running : Bool)
    (threads : List (Thread Bytes AuthWork)) : Prop where
  behind : ∀ thread ∈ threads, threadBehind thread = true → queue ≠ [] ∨ running = false
  out : ∀ thread ∈ threads, threadOut thread = true → running = false

section

variable {st st' : AuthPool} {action : AuthAction} {i k : ℕ} {queue : List (Entry Bytes)}
  {running : Bool} {threads : List (Thread Bytes AuthWork)} {new : Thread Bytes AuthWork}

theorem leaving_start (workers : ℕ) :
    Leaving [] true (List.replicate workers (.waits .entering)) := by
  constructor
  · intro thread hmem hbehind
    rw [List.eq_of_mem_replicate hmem] at hbehind
    exact absurd hbehind (by simp [threadBehind])
  · intro thread hmem hout
    rw [List.eq_of_mem_replicate hmem] at hout
    exact absurd hout (by simp [threadOut])

theorem leaving_set (h : Leaving queue running threads)
    (hbehind : threadBehind new = true → queue ≠ [] ∨ running = false)
    (hout : threadOut new = true → running = false) :
    Leaving queue running (threads.set k new) := by
  constructor
  · intro thread hmem
    rcases List.mem_or_eq_of_mem_set hmem with hold | rfl
    · exact h.behind thread hold
    · exact hbehind
  · intro thread hmem
    rcases List.mem_or_eq_of_mem_set hmem with hold | rfl
    · exact h.out thread hold
    · exact hout

/-- A thread that is not on its way out of its loop. -/
theorem leaving_stays (h : Leaving queue running threads) (hbehind : threadBehind new = false)
    (hout : threadOut new = false) : Leaving queue running (threads.set k new) :=
  leaving_set h (fun hnew => absurd hnew (by simp [hbehind])) fun hnew =>
    absurd hnew (by simp [hout])

/-- While a worker is out of its `wait`, no other one is. -/
theorem behind_unique (h : Monitor.Exclusive authProgram st)
    (hthread : st.threads[k]? = some (.works .behindWait)) (new : Thread Bytes AuthWork)
    (hnew : threadBehind new = false) :
    ∀ thread ∈ st.threads.set k new, threadBehind thread = false := by
  intro thread hmem
  obtain ⟨j, hj⟩ := List.mem_iff_getElem?.mp hmem
  obtain ⟨hlen, -⟩ := List.getElem?_eq_some_iff.mp hthread
  by_cases hk : k = j
  · subst hk
    obtain rfl := Option.some.inj ((List.getElem?_set_self hlen).symm.trans hj)
    exact hnew
  · rw [List.getElem?_set_ne hk] at hj
    refine Bool.eq_false_iff.mpr fun hbehind => hk ?_
    have hworks : thread = .works .behindWait := by
      unfold threadBehind at hbehind
      split at hbehind
      · rfl
      · exact absurd hbehind (by simp)
    subst hworks
    exact Monitor.holder_unique h hthread hj rfl rfl

theorem leaving_step {work : AuthWork} {resp : HttpResponse}
    {outcome : Outcome Bytes AuthWork AuthEvent}
    (h : Leaving st.queue st.running st.threads) (hlock : Monitor.Exclusive authProgram st)
    (hthread : st.threads[k]? = some (.works work))
    (hstep : AuthWork.step work st.queue st.running resp = some outcome) :
    Leaving outcome.queue st.running (st.threads.set k (.ofOnward outcome.onward)) := by
  have hmem := List.mem_of_getElem? hthread
  cases work with
  | behindWait =>
    cases hqueue : st.queue with
    | nil =>
      -- nothing to do: the flag is down
      rw [hqueue] at hstep h
      obtain rfl := Option.some.inj hstep
      refine leaving_set h (fun hnew => absurd hnew (by simp [threadBehind, Thread.ofOnward])) ?_
      intro _
      exact (h.behind _ hmem rfl).resolve_left fun hsome => hsome rfl
    | cons job jobs =>
      rw [hqueue] at hstep
      obtain rfl := Option.some.inj hstep
      have halone := behind_unique hlock hthread (.works (.popped job)) rfl
      refine ⟨fun thread hthread hbehind => ?_, ?_⟩
      · rw [halone thread hthread] at hbehind
        exact absurd hbehind (by simp)
      · have hstays : Leaving _ _ (st.threads.set k (.works (.popped job))) :=
          leaving_stays h rfl rfl
        exact hstays.out
  | leaving =>
    obtain rfl := Option.some.inj hstep
    refine leaving_set h (fun hnew => absurd hnew (by simp [threadBehind, Thread.ofOnward])) ?_
    exact fun _ => h.out _ hmem rfl
  | popped job =>
    obtain rfl := Option.some.inj hstep
    exact leaving_stays h rfl rfl
  | requesting job path =>
    obtain rfl := Option.some.inj hstep
    exact leaving_stays h rfl rfl
  | calling job valid accountId =>
    obtain rfl := Option.some.inj hstep
    exact leaving_stays h rfl rfl

theorem threadBehind_wake (thread : Thread Bytes AuthWork) :
    threadBehind thread.wake = threadBehind thread := by
  cases thread with
  | waits waiting => cases waiting <;> rfl
  | _ => rfl

theorem threadOut_wake (thread : Thread Bytes AuthWork) :
    threadOut thread.wake = threadOut thread := by
  cases thread with
  | waits waiting => cases waiting <;> rfl
  | _ => rfl

theorem leaving_next (h : Leaving st.queue st.running st.threads)
    (hlock : Monitor.Exclusive authProgram st) (hnext : authNext st action = some st') :
    Leaving st'.queue st'.running st'.threads := by
  cases Monitor.acts_next hnext with
  | calls job free =>
    constructor
    · intro thread hmem hbehind
      rcases List.mem_append.mp hmem with hold | hnew
      · exact h.behind thread hold hbehind
      · rw [List.mem_singleton.mp hnew] at hbehind
        exact absurd hbehind (by simp [threadBehind])
    · intro thread hmem hout
      rcases List.mem_append.mp hmem with hold | hnew
      · exact h.out thread hold hout
      · rw [List.mem_singleton.mp hnew] at hout
        exact absurd hout (by simp [threadOut])
  | passes k input thread ready =>
    exact leaving_set h (fun _ => ready) fun hnew => absurd hnew (by simp [threadOut, authProgram])
  | works k input work outcome thread step lock => exact leaving_step h hlock thread step
  | pushes k input job thread =>
    have hset : Leaving st.queue st.running (st.threads.set k (.calls job .pushed)) :=
      leaving_stays h rfl rfl
    exact ⟨fun _ _ _ => Or.inl (by simp), hset.out⟩
  | notifies k j job thread sleeper =>
    have hwoken : Leaving st.queue st.running (st.threads.set j (.waits .woken)) :=
      leaving_stays h rfl rfl
    exact leaving_stays hwoken rfl rfl
  | halts idle => exact ⟨fun _ _ _ => Or.inr rfl, fun _ _ _ => rfl⟩
  | notifiesAll stopping =>
    constructor
    · intro thread hmem hbehind
      obtain ⟨sleeper, hsleeper, rfl⟩ := List.mem_map.mp hmem
      rw [threadBehind_wake] at hbehind
      exact h.behind sleeper hsleeper hbehind
    · intro thread hmem hout
      obtain ⟨sleeper, hsleeper, rfl⟩ := List.mem_map.mp hmem
      rw [threadOut_wake] at hout
      exact h.out sleeper hsleeper hout
  | joins => exact h
  | joined => exact h
  | _ => exact leaving_stays h rfl rfl

/-- **The invariant of one job**: it was pushed, and once a worker leaves it is not in the queue. -/
structure Served (i : ℕ) (queue : List (Entry Bytes)) (threads : List (Thread Bytes AuthWork)) :
    Prop where
  pushed : pushedJob threads i = 1
  gone : ∀ thread ∈ threads, threadOut thread = true → queuedJob queue i = 0

theorem gone_set (h : ∀ thread ∈ threads, threadOut thread = true → queuedJob queue i = 0)
    (hnew : threadOut new = true → queuedJob queue i = 0) :
    ∀ thread ∈ threads.set k new, threadOut thread = true → queuedJob queue i = 0 := by
  intro thread hmem
  rcases List.mem_or_eq_of_mem_set hmem with hold | rfl
  · exact h thread hold
  · exact hnew

theorem gone_stays (h : ∀ thread ∈ threads, threadOut thread = true → queuedJob queue i = 0)
    (hnew : threadOut new = false) :
    ∀ thread ∈ threads.set k new, threadOut thread = true → queuedJob queue i = 0 :=
  gone_set h fun hout => absurd hout (by simp [hnew])

theorem gone_step {work : AuthWork} {resp : HttpResponse}
    {outcome : Outcome Bytes AuthWork AuthEvent}
    (h : ∀ thread ∈ st.threads, threadOut thread = true → queuedJob st.queue i = 0)
    (hthread : st.threads[k]? = some (.works work))
    (hstep : AuthWork.step work st.queue st.running resp = some outcome) :
    ∀ thread ∈ st.threads.set k (.ofOnward outcome.onward), threadOut thread = true →
      queuedJob outcome.queue i = 0 := by
  have hmem := List.mem_of_getElem? hthread
  cases work with
  | behindWait =>
    cases hqueue : st.queue with
    | nil =>
      rw [hqueue] at hstep
      obtain rfl := Option.some.inj hstep
      exact fun _ _ _ => rfl
    | cons job jobs =>
      rw [hqueue] at hstep h
      obtain rfl := Option.some.inj hstep
      intro thread hthread hout
      have hgone : ∀ other ∈ st.threads.set k (.works (.popped job)), threadOut other = true → _ :=
        gone_stays h rfl
      have hnone := hgone thread hthread hout
      unfold queuedJob at hnone ⊢
      rw [List.countP_cons] at hnone
      exact (Nat.add_eq_zero_iff.mp hnone).1
  | leaving =>
    obtain rfl := Option.some.inj hstep
    exact gone_set h fun _ => h _ hmem rfl
  | popped job =>
    obtain rfl := Option.some.inj hstep
    exact gone_stays h rfl
  | requesting job path =>
    obtain rfl := Option.some.inj hstep
    exact gone_stays h rfl
  | calling job valid accountId =>
    obtain rfl := Option.some.inj hstep
    exact gone_stays h rfl

theorem served_next (h : Served i st.queue st.threads) (hnext : authNext st action = some st') :
    Served i st'.queue st'.threads := by
  refine ⟨pushedJob_next h.pushed hnext, ?_⟩
  cases Monitor.acts_next hnext with
  | calls job free =>
    intro thread hmem hout
    rcases List.mem_append.mp hmem with hold | hnew
    · exact h.gone thread hold hout
    · rw [List.mem_singleton.mp hnew] at hout
      exact absurd hout (by simp [threadOut])
  | works k input work outcome thread step lock => exact gone_step h.gone thread step
  | pushes k input job thread =>
    -- another job: this one was pushed before
    have hne : k ≠ i := by
      rintro rfl
      have hpushed := h.pushed
      rw [pushedJob_of_get thread] at hpushed
      exact absurd hpushed (by simp [threadPushed])
    intro other hmem hout
    have hgone : ∀ other ∈ st.threads.set k (.calls job .pushed), threadOut other = true → _ :=
      gone_stays h.gone rfl
    have hnone := hgone other hmem hout
    unfold queuedJob at hnone ⊢
    rw [List.countP_append, hnone, List.countP_singleton]
    simp [hne]
  | notifies k j job thread sleeper =>
    exact gone_stays (gone_stays h.gone rfl) rfl
  | notifiesAll =>
    intro thread hmem hout
    obtain ⟨sleeper, hsleeper, rfl⟩ := List.mem_map.mp hmem
    rw [threadOut_wake] at hout
    exact h.gone sleeper hsleeper hout
  | halts => exact h.gone
  | joins => exact h.gone
  | joined => exact h.gone
  | _ => exact gone_stays h.gone rfl

end

/-! ## Runs -/

section

variable {workers : ℕ} {st st' : AuthPool} {actions : List AuthAction} {i : ℕ}

theorem jobCounted_of_run (hrun : run authNext (.start workers) actions = some st) :
    JobCounted i st :=
  run_preserves (fun _ _ _ h hnext => jobCounted_next h hnext) (jobCounted_start workers i) hrun

theorem leaving_of_run (hrun : run authNext (.start workers) actions = some st) :
    Leaving st.queue st.running st.threads := by
  have hend : Monitor.Exclusive authProgram st ∧ Leaving st.queue st.running st.threads := by
    refine run_preserves (I := fun st : AuthPool =>
      Monitor.Exclusive authProgram st ∧ Leaving st.queue st.running st.threads) ?_
      ⟨Monitor.exclusive_start workers, leaving_start workers⟩ hrun
    intro st action st' h hnext
    exact ⟨Monitor.exclusive_next h.1 hnext, leaving_next h.2 h.1 hnext⟩
  exact hend.2

/-- **Every callback once**: in every run of the service with one worker or more, no job is taken
twice and no callback is called twice; and when `Stop` returns, the callback of every job whose
`ValidateAsync` had returned before `Stop` began has been called. -/
theorem callbacks_exactly_once {before after : List AuthAction} (hworkers : 1 ≤ workers)
    (hbefore : run authNext (.start workers) before = some st)
    (hafter : run authNext st after = some st') :
    (∀ job, takenJob st'.log job ≤ 1 ∧ calledJob st'.log job ≤ 1) ∧
      (st.stopping = .idle → st'.stopping = .returned → ∀ job token,
        st.threads[job]? = some (.calls token .returned) → calledJob st'.log job = 1) := by
  have hrun : run authNext (.start workers) (before ++ after) = some st' := by
    rw [run_append, hbefore]
    exact hafter
  refine ⟨fun job => ?_, fun hidle hreturned job token hcall => ?_⟩
  · have hcounted : JobCounted job st' := jobCounted_of_run hrun
    have htaken := hcounted.taken
    have hcalled := hcounted.called
    have hpushed : pushedJob st'.threads job ≤ 1 := Bool.toNat_le _
    omega
  · have hjoined := Monitor.joined_of_run hbefore
    have hserved : Served job st'.queue st'.threads := by
      refine run_preserves (I := fun st : AuthPool => Served job st.queue st.threads)
        (fun _ _ _ h hnext => served_next h hnext) ⟨?_, fun thread hmem hout => ?_⟩ hafter
      · rw [pushedJob_of_get hcall]
        rfl
      · -- nobody leaves before `Stop`
        have hdown := (leaving_of_run hbefore).out thread hmem hout
        rw [hjoined.flag.mpr hidle] at hdown
        exact absurd hdown (by simp)
    have hend := Monitor.joined_of_run hrun
    have hcounted : JobCounted job st' := jobCounted_of_run hrun
    have hnoneCarried : carriedJob st'.threads job = 0 := by
      refine List.countP_eq_zero.mpr fun thread hmem => ?_
      rcases Monitor.returned_threads hend hreturned hmem with rfl | hcall
      · simp [threadCarries]
      · cases thread with
        | calls token calling => simp [threadCarries]
        | _ => exact absurd hcall (by simp [Thread.isCall])
    have hnoneQueued : queuedJob st'.queue job = 0 := by
      have hfirst : st'.threads[0]? = some Thread.exited := by
        refine hend.returned hreturned 0 ?_
        rw [Monitor.workers_of_run hrun]
        exact hworkers
      exact hserved.gone _ (List.mem_of_getElem? hfirst) rfl
    have htaken := hcounted.taken
    have hcalled := hcounted.called
    have hpushed := hserved.pushed
    omega

/-- A call queues its job and returns. -/
def validateOne : List AuthAction :=
  [.call [116], .goOn 1 ⟨0, []⟩, .goOn 1 ⟨0, []⟩, .notifyOne 1 none]

/-- `Stop` begins; the worker does the job, the session-server not answering, and leaves; `Stop`
returns. -/
def stopBehind : List AuthAction :=
  [.stop, .stop] ++ List.replicate 10 (.goOn 0 ⟨0, []⟩) ++ [.stop, .stop]

theorem callbacks_validateOne :
    ∃ st, run authNext (.start 1) validateOne = some st ∧
      ∃ st', run authNext st stopBehind = some st' ∧ calledJob st'.log 1 = 1 := by
  obtain ⟨st, hbefore, hidle, hcall, st', hafter, hreturned⟩ :
      ∃ st, run authNext (.start 1) validateOne = some st ∧ st.stopping = .idle ∧
        st.threads[1]? = some (.calls [116] .returned) ∧
        ∃ st', run authNext st stopBehind = some st' ∧ st'.stopping = .returned := by
    decide +kernel
  exact ⟨st, hbefore, st', hafter,
    (callbacks_exactly_once (Nat.le_refl 1) hbefore hafter).2 hidle hreturned 1 [116] hcall⟩

end

end RealtimeServer
