import Mathlib.Data.List.Basic
import Mathlib.Logic.Function.Basic
import RealtimeServer.Lib.Run
import RealtimeServer.Lib.Tally

/-!
# Starting and stopping

Model of `ServerCore::Start` from `m_running.store(true)` on, of `Stop` and the destructor, and of
the loops they start and join (`Core/ServerCore.cpp`). A worker leaves its loop for nothing but the
null packet of a `Stop`, and `Start` returns only when it has joined all workers; the destructor,
which is behind it, is the only caller of `Stop` in the program. Any other thread may call it too
here, as often as it likes. Behind the body of the destructor the `std::thread` members are
destroyed, and one that is still joinable ends the program in `std::terminate`. The stops of the
health server, of `AuthService` and of the logger, which the destructor calls too, are left out.

* `Sound`: the invariant. The null packets that were posted are in the port, or a worker left its
  loop for each; only one call of `Stop` posts any.
* **`start_returns_iff`**: as long as nobody else calls `Stop` the server runs and no worker leaves;
  when `Start` has returned, each worker took one null packet, and none is left; and the server can
  still come to its end exactly when no `Stop` was through with its posts before `Start` had started
  its last worker (`Cut`), none has passed over the join of a thread that `Start` had not started
  (`Strayed`), and the program has not been terminated.
-/

namespace RealtimeServer

open Guarded

/-- The threads that `Start` starts beside the workers. -/
inductive Background
  | tick | heartbeat | stats | registry
  deriving DecidableEq

/-- The state of one of them; it tests `m_running` at the head of its loop. -/
inductive LoopState
  | unstarted | looping | ended | joined
  deriving DecidableEq

/-- `std::thread::joinable`. -/
def LoopState.joinable : LoopState → Bool
  | looping | ended => true
  | unstarted | joined => false

/-- What `GetQueuedCompletionStatus` returns. -/
inductive Completion
  | io
  /-- `PostQueuedCompletionStatus(m_hIOCP, 0, 0, NULL)`. -/
  | null
  deriving DecidableEq

/-- Where a call of `Stop` is. -/
inductive StopCall
  /-- Before `m_running.exchange(false)`. -/
  | called
  /-- In its loop of posts. -/
  | posting (i : Nat)
  /-- Before the joins of these threads. -/
  | joining (rest : List Background)
  | returned
  deriving DecidableEq

def StopCall.isPosting : StopCall → Bool
  | posting _ => true
  | called | joining _ | returned => false

/-- The threads it joins in `Stop`. -/
def stopJoins : List Background := [.tick, .heartbeat, .stats]

/-- The threads whose join is before the call. -/
def StopCall.toJoin : StopCall → List Background
  | posting _ => stopJoins
  | joining rest => rest
  | called | returned => []

/-- Where the main thread is. -/
inductive MainThread
  /-- In `Start`, with so many workers to start. -/
  | spawning (left : Nat)
  /-- Behind them, with these threads to start. -/
  | launching (left : List Background)
  /-- At the join of the `k`-th worker. -/
  | joining (k : Nat)
  /-- In the destructor, in the `k`-th call of `Stop`. -/
  | destroying (k : Nat)
  | joiningRegistry
  /-- Behind the body of the destructor, at the `std::thread` members. -/
  | destructing
  | gone
  /-- `std::terminate`. -/
  | terminated
  deriving DecidableEq

/-- The threads of the server. -/
structure Lifecycle where
  running : Bool
  /-- The workers that were started: who has left its loop. -/
  workers : List Bool
  /-- What the port has not reported yet. -/
  port : List Completion
  background : Background → LoopState
  main : MainThread
  stops : List StopCall
  /-- How many null packets were posted; no thread reads it. -/
  posted : Nat

/-- The number of workers: `hardware_concurrency() * workerThreadMultiplier`, or 4. -/
def threadCount (hardwareConcurrency workerThreadMultiplier : Int) : Nat :=
  if hardwareConcurrency * workerThreadMultiplier ≤ 0 then 4
  else (hardwareConcurrency * workerThreadMultiplier).toNat

theorem threadCount_pos (hardwareConcurrency workerThreadMultiplier : Int) :
    0 < threadCount hardwareConcurrency workerThreadMultiplier := by
  unfold threadCount
  split <;> omega

namespace Lifecycle

/-- Behind `m_running.store(true)`. -/
def start (threadCount : Nat) : Lifecycle :=
  { running := true
    workers := []
    port := []
    background := fun _ => .unstarted
    main := .spawning threadCount
    stops := []
    posted := 0 }

variable (st : Lifecycle)

/-- `if (t.joinable()) t.join();` -/
def join (thread : Background) : Option Lifecycle :=
  match st.background thread with
  | .unstarted | .joined => some st
  | .looping => none
  | .ended => some { st with background := Function.update st.background thread .joined }

/-- The main thread goes on. -/
def goOn : Option Lifecycle :=
  match st.main with
  | .spawning (left + 1) =>
    some { st with workers := st.workers ++ [false], main := .spawning left }
  | .spawning 0 => some { st with main := .launching [.tick, .heartbeat, .stats, .registry] }
  | .launching (thread :: left) =>
    some { st with
      background := Function.update st.background thread .looping
      main := .launching left }
  | .launching [] => some { st with main := .joining 0 }
  | .joining k =>
    match st.workers[k]? with
    | some true => some { st with main := .joining (k + 1) }
    | some false => none
    -- `Start` returns, and the destructor calls `Stop`
    | none =>
      some { st with stops := st.stops ++ [.called], main := .destroying st.stops.length }
  | .destroying k =>
    if st.stops[k]? = some .returned then some { st with main := .joiningRegistry } else none
  | .joiningRegistry => (st.join .registry).map fun st => { st with main := .destructing }
  | .destructing =>
    if [.tick, .heartbeat, .stats, .registry].any fun thread => (st.background thread).joinable then
      some { st with main := .terminated }
    else some { st with main := .gone }
  | .gone => none
  | .terminated => none

/-- The `k`-th call of `Stop` goes on. -/
def stop (k : Nat) : Option Lifecycle :=
  match st.stops[k]? with
  | some .called =>
    if st.running then
      some { st with running := false, stops := st.stops.set k (.posting 0) }
    else some { st with stops := st.stops.set k .returned }
  | some (.posting i) =>
    if i < st.workers.length then
      some { st with
        port := st.port ++ [.null]
        stops := st.stops.set k (.posting (i + 1))
        posted := st.posted + 1 }
    else some { st with stops := st.stops.set k (.joining stopJoins) }
  | some (.joining (thread :: rest)) =>
    (st.join thread).map fun st => { st with stops := st.stops.set k (.joining rest) }
  | some (.joining []) => some { st with stops := st.stops.set k .returned }
  | some .returned => none
  | none => none

/-- The `k`-th worker takes the next completion. -/
def worker (k : Nat) : Option Lifecycle :=
  match st.workers[k]?, st.port with
  | some false, .io :: port => some { st with port := port }
  | some false, .null :: port =>
    some { st with workers := st.workers.set k true, port := port }
  | _, _ => none

/-- A thread is at the head of its loop. -/
def loop (thread : Background) : Option Lifecycle :=
  if st.background thread = .looping then
    if st.running then some st
    else some { st with background := Function.update st.background thread .ended }
  else none

end Lifecycle

/-- What happens next. -/
inductive LifecycleAction
  | goOn
  | stop (k : Nat)
  | worker (k : Nat)
  | loop (thread : Background)
  /-- A receive, a send or an accept completes. -/
  | complete
  /-- Another thread calls `Stop`. -/
  | callStop
  deriving DecidableEq

def lifecycleNext (st : Lifecycle) : LifecycleAction → Option Lifecycle
  | .goOn => st.goOn
  | .stop k => st.stop k
  | .worker k => st.worker k
  | .loop thread => st.loop thread
  | .complete => some { st with port := st.port ++ [.io] }
  | .callStop => some { st with stops := st.stops ++ [.called] }

/-! ## The invariant -/

namespace MainThread

/-- The workers it has not started. -/
def toSpawn : MainThread → Nat
  | spawning left => left
  | _ => 0

/-- How many workers it has joined, of `n`. -/
def joined (n : Nat) : MainThread → Nat
  | spawning _ | launching _ => 0
  | joining k => k
  | destroying _ | joiningRegistry | destructing | gone | terminated => n

/-- The other threads it has not started. -/
def toLaunch : MainThread → List Background
  | spawning _ => [.tick, .heartbeat, .stats, .registry]
  | launching left => left
  | joining _ | destroying _ | joiningRegistry | destructing | gone | terminated => []

/-- `Start` has returned. -/
def Returned : MainThread → Prop
  | spawning _ | launching _ | joining _ => False
  | destroying _ | joiningRegistry | destructing | gone | terminated => True

end MainThread

/-- **The invariant**, with `n` workers to start. -/
structure Lifecycle.Sound (n : Nat) (st : Lifecycle) : Prop where
  spawned : st.workers.length + st.main.toSpawn = n
  /-- A worker leaves its loop for a null packet. -/
  conserved : st.port.count .null + st.workers.count true = st.posted
  posted : st.posted ≤ st.workers.length
  /-- Nobody is past the exchange while the flag is up. -/
  fresh : st.running = true → st.posted = 0 ∧ ∀ call ∈ st.stops, call = .called
  posting : ∀ k i : Nat, st.stops[k]? = some (.posting i) → i = st.posted
  single : ∀ j k i i' : Nat,
    st.stops[j]? = some (.posting i) → st.stops[k]? = some (.posting i') → j = k
  joined : ∀ j < st.main.joined n, st.workers[j]? = some true
  launched : ∀ thread, st.background thread = .unstarted ↔ thread ∈ st.main.toLaunch
  distinct : st.main.toLaunch.Nodup
  /-- The call of the destructor finds the flag down. -/
  own : ∀ k, st.main = .destroying k →
    st.stops[k]? = some .called ∨ st.stops[k]? = some .returned
  registry : st.main = .destructing → (st.background .registry).joinable = false
  atEnd : st.main = .gone → ∀ thread, (st.background thread).joinable = false

namespace Lifecycle

variable {n : Nat} {st st' : Lifecycle} {action : LifecycleAction}

theorem sound_start (n : Nat) : Sound n (start n) where
  spawned := Nat.zero_add n
  conserved := rfl
  posted := le_refl 0
  fresh _ := ⟨rfl, fun call hcall => absurd hcall List.not_mem_nil⟩
  posting k i h := absurd h (by simp [start])
  single j k i i' h := absurd h (by simp [start])
  joined j hj := absurd hj (Nat.not_lt_zero j)
  launched thread := by cases thread <;> simp [start, MainThread.toLaunch]
  distinct := by simp [start, MainThread.toLaunch]
  own k h := absurd h (by simp [start])
  registry h := absurd h (by simp [start])
  atEnd h := absurd h (by simp [start])

/-- All workers have left when `Start` has returned, each for one null packet. -/
theorem Sound.all_left (h : Sound n st) (hjoined : st.main.joined n = n) :
    (∀ exited ∈ st.workers, exited = true) ∧ st.posted = n ∧ st.port.count .null = 0 := by
  have hlen := h.spawned
  have hall : ∀ exited ∈ st.workers, exited = true := by
    intro exited hmem
    obtain ⟨j, hj, rfl⟩ := List.mem_iff_getElem.mp hmem
    have hexited := h.joined j (by omega)
    rw [List.getElem?_eq_getElem hj] at hexited
    exact Option.some.inj hexited
  have hn : n ≤ st.workers.length := by
    rcases Nat.eq_zero_or_pos n with rfl | hpos
    · exact Nat.zero_le _
    · have hlast := h.joined (n - 1) (by omega)
      obtain ⟨hlt, -⟩ := List.getElem?_eq_some_iff.mp hlast
      omega
  have hcount : st.workers.count true = st.workers.length :=
    List.count_eq_length.mpr fun exited hmem => (hall exited hmem).symm
  have hconserved := h.conserved
  have hposted := h.posted
  exact ⟨hall, by omega, by omega⟩

theorem get_set {l : List StopCall} {j k : Nat} {call call' : StopCall}
    (h : (l.set k call)[j]? = some call') :
    (j = k ∧ call' = call) ∨ (j ≠ k ∧ l[j]? = some call') := by
  by_cases hjk : j = k
  · subst hjk
    obtain ⟨hlt, hget⟩ := List.getElem?_eq_some_iff.mp h
    rw [List.getElem_set_self] at hget
    exact Or.inl ⟨rfl, hget.symm⟩
  · rw [List.getElem?_set_ne (Ne.symm hjk)] at h
    exact Or.inr ⟨hjk, h⟩

/-- A call that is past the exchange found the flag up: it is down now. -/
theorem Sound.down (h : Sound n st) {k : Nat} {call : StopCall} (hcall : st.stops[k]? = some call)
    (hpast : call ≠ .called) : st.running = false := by
  rw [← Bool.not_eq_true]
  intro hup
  exact hpast ((h.fresh hup).2 call (List.mem_of_getElem? hcall))

/-- A call goes on and posts nothing. -/
theorem Sound.set_call (h : Sound n st) {k : Nat} {call call' : StopCall}
    (hcall : st.stops[k]? = some call) (hdown : st.running = false)
    (hposting : ∀ i, call' ≠ .posting i)
    (hown : call = .called ∨ call = .returned → call' = .returned) :
    Sound n { st with stops := st.stops.set k call' } :=
  { h with
    fresh := fun hup => absurd (hup.symm.trans hdown) (by simp)
    posting := by
      intro j i hj
      rcases get_set hj with ⟨-, heq⟩ | ⟨-, hold⟩
      · exact absurd heq.symm (hposting i)
      · exact h.posting j i hold
    single := by
      intro j j' i i' hj hj'
      rcases get_set hj with ⟨-, heq⟩ | ⟨-, hold⟩
      · exact absurd heq.symm (hposting i)
      · rcases get_set hj' with ⟨-, heq⟩ | ⟨-, hold'⟩
        · exact absurd heq.symm (hposting i')
        · exact h.single j j' i i' hold hold'
    own := by
      intro j hmain
      have hbefore := h.own j hmain
      by_cases hjk : j = k
      · subst hjk
        rw [hcall, Option.some_inj, Option.some_inj] at hbefore
        obtain ⟨hlt, -⟩ := List.getElem?_eq_some_iff.mp hcall
        right
        change (st.stops.set j call')[j]? = _
        rw [List.getElem?_set_self hlt, hown hbefore]
      · change (st.stops.set k call')[j]? = _ ∨ (st.stops.set k call')[j]? = _
        rw [List.getElem?_set_ne (Ne.symm hjk)]
        exact hbefore }

theorem get_snoc {l : List StopCall} {k i : Nat}
    (h : (l ++ [.called])[k]? = some (.posting i)) : l[k]? = some (.posting i) := by
  rcases Nat.lt_trichotomy k l.length with hlt | rfl | hgt
  · rwa [List.getElem?_append_left hlt] at h
  · rw [List.getElem?_concat_length] at h
    exact absurd h (by simp)
  · rw [List.getElem?_eq_none (by simp; omega)] at h
    exact absurd h (by simp)

/-- `Stop` is called once more. -/
theorem Sound.add_call (h : Sound n st) :
    Sound n { st with stops := st.stops ++ [.called] } :=
  { h with
    fresh := by
      intro hup
      refine ⟨(h.fresh hup).1, fun call hcall => ?_⟩
      rcases List.mem_append.mp hcall with hold | hnew
      · exact (h.fresh hup).2 call hold
      · exact List.mem_singleton.mp hnew
    posting := fun k i hk => h.posting k i (get_snoc hk)
    single := fun j k i i' hj hk => h.single j k i i' (get_snoc hj) (get_snoc hk)
    own := by
      intro k hmain
      have hbefore := h.own k hmain
      have hlt : k < st.stops.length := by
        rcases hbefore with hk | hk <;> exact (List.getElem?_eq_some_iff.mp hk).1
      change (st.stops ++ [.called])[k]? = _ ∨ (st.stops ++ [.called])[k]? = _
      rw [List.getElem?_append_left hlt]
      exact hbefore }

/-- A thread ends, or is joined. -/
theorem Sound.set_background (h : Sound n st) {thread : Background} {state : LoopState}
    (hbefore : (st.background thread).joinable = true) (hstate : state ≠ .unstarted) :
    Sound n { st with background := Function.update st.background thread state } :=
  { h with
    launched := fun other => by
      have hother := h.launched other
      by_cases hne : other = thread
      · subst hne
        have hstarted : st.background other ≠ .unstarted := by
          intro hunstarted
          rw [hunstarted] at hbefore
          exact absurd hbefore (by simp [LoopState.joinable])
        change Function.update st.background other state other = .unstarted ↔ _
        rw [Function.update_self]
        exact iff_of_false hstate fun hmem => hstarted (hother.mpr hmem)
      · change Function.update st.background thread state other = .unstarted ↔ _
        rw [Function.update_of_ne hne]
        exact hother
    registry := fun hmain => by
      have hjoined := h.registry hmain
      change (Function.update st.background thread state .registry).joinable = false
      rw [Function.update_of_ne]
      · exact hjoined
      · rintro rfl
        exact absurd (hbefore.symm.trans hjoined) (by simp)
    atEnd := fun hgone => by
      rw [h.atEnd hgone thread] at hbefore
      exact absurd hbefore (by simp) }

/-- What a join does. -/
theorem join_cases {thread : Background} (hnext : st.join thread = some st') :
    ((st.background thread).joinable = false ∧ st' = st) ∨
      (st.background thread = .ended ∧
        st' = { st with background := Function.update st.background thread .joined }) := by
  unfold join at hnext
  split at hnext
  · rename_i hstate
    exact Or.inl ⟨by rw [hstate]; rfl, (Option.some.inj hnext).symm⟩
  · rename_i hstate
    exact Or.inl ⟨by rw [hstate]; rfl, (Option.some.inj hnext).symm⟩
  · exact absurd hnext (by simp)
  · rename_i hstate
    exact Or.inr ⟨hstate, (Option.some.inj hnext).symm⟩

theorem sound_join (h : Sound n st) {thread : Background} (hnext : st.join thread = some st') :
    Sound n st' := by
  rcases join_cases hnext with ⟨-, rfl⟩ | ⟨hended, rfl⟩
  · exact h
  · exact h.set_background (by rw [hended]; rfl) (by simp)

/-- A join does nothing but that. -/
theorem join_keeps {thread : Background} (hnext : st.join thread = some st') :
    ∃ background, st' = { st with background := background } ∧
      (background thread).joinable = false := by
  rcases join_cases hnext with ⟨hstate, rfl⟩ | ⟨-, rfl⟩
  · exact ⟨st'.background, rfl, hstate⟩
  · refine ⟨_, rfl, ?_⟩
    rw [Function.update_self]
    rfl

/-- The main thread goes from one place to another. -/
theorem Sound.set_main (h : Sound n st) {main : MainThread}
    (hspawn : main.toSpawn = st.main.toSpawn)
    (hjoined : ∀ j < main.joined n, st.workers[j]? = some true)
    (hlaunch : main.toLaunch = st.main.toLaunch) (hown : ∀ k, main ≠ .destroying k)
    (hregistry : main = .destructing → (st.background .registry).joinable = false)
    (hover : main = .gone → ∀ thread, (st.background thread).joinable = false) :
    Sound n { st with main := main } :=
  { h with
    spawned := hspawn ▸ h.spawned
    joined := hjoined
    launched := fun thread => (h.launched thread).trans (by rw [← hlaunch])
    distinct := by
      rw [show ({ st with main := main } : Lifecycle).main.toLaunch = st.main.toLaunch from hlaunch]
      exact h.distinct
    own := fun k hk => absurd hk (hown k)
    registry := hregistry
    atEnd := hover }

/-- A worker is started. -/
theorem Sound.spawn (h : Sound n st) {left : Nat} (hmain : st.main = .spawning (left + 1)) :
    Sound n { st with workers := st.workers ++ [false], main := .spawning left } := by
  have hspawned := h.spawned
  have hlaunched := h.launched
  have hdistinct := h.distinct
  rw [hmain] at hspawned hlaunched hdistinct
  change st.workers.length + (left + 1) = n at hspawned
  exact { h with
    spawned := by
      change (st.workers ++ [false]).length + left = n
      rw [List.length_append, List.length_singleton]
      omega
    conserved := by
      change _ + (st.workers ++ [false]).count true = _
      rw [List.count_append]
      exact h.conserved
    posted := h.posted.trans (by simp)
    joined := fun j hj => absurd hj (Nat.not_lt_zero j)
    launched := hlaunched
    distinct := hdistinct
    own := fun k hk => absurd hk (by simp)
    registry := fun hk => absurd hk (by simp)
    atEnd := fun hk => absurd hk (by simp) }

/-- One of the other threads is started. -/
theorem Sound.launch (h : Sound n st) {thread : Background} {left : List Background}
    (hmain : st.main = .launching (thread :: left)) :
    Sound n { st with
      background := Function.update st.background thread .looping
      main := .launching left } := by
  have hspawned := h.spawned
  have hlaunched := h.launched
  have hdistinct := h.distinct
  rw [hmain] at hspawned hlaunched hdistinct
  obtain ⟨hnotMem, hleft⟩ := List.nodup_cons.mp hdistinct
  exact { h with
    spawned := hspawned
    joined := fun j hj => absurd hj (Nat.not_lt_zero j)
    launched := fun other => by
      change Function.update st.background thread .looping other = .unstarted ↔ other ∈ left
      by_cases hne : other = thread
      · rw [hne, Function.update_self]
        exact iff_of_false (by simp) hnotMem
      · rw [Function.update_of_ne hne, hlaunched other]
        exact ⟨fun hmem => (List.mem_cons.mp hmem).resolve_left hne, List.mem_cons_of_mem _⟩
    distinct := hleft
    own := fun k hk => absurd hk (by simp)
    registry := fun hk => absurd hk (by simp)
    atEnd := fun hk => absurd hk (by simp) }

/-- All workers are joined: `Start` returns, and the destructor calls `Stop`. -/
theorem Sound.start_returns (h : Sound n st) {k : Nat} (hmain : st.main = .joining k)
    (hend : st.workers[k]? = none) :
    Sound n { st with stops := st.stops ++ [.called], main := .destroying st.stops.length } := by
  have hspawned := h.spawned
  have hlaunched := h.launched
  have hdistinct := h.distinct
  have hjoined := h.joined
  rw [hmain] at hspawned hlaunched hdistinct hjoined
  have hlength : st.workers.length ≤ k := List.getElem?_eq_none_iff.mp hend
  exact { h.add_call with
    spawned := hspawned
    joined := fun j hj => by
      change j < n at hj
      change st.workers.length + 0 = n at hspawned
      exact hjoined j (by omega : j < k)
    launched := hlaunched
    distinct := hdistinct
    own := fun k' hk' => by
      obtain rfl := MainThread.destroying.inj hk'
      exact Or.inl List.getElem?_concat_length
    registry := fun hk => absurd hk (by simp)
    atEnd := fun hk => absurd hk (by simp) }

theorem sound_goOn (h : Sound n st) (hnext : st.goOn = some st') : Sound n st' := by
  unfold goOn at hnext
  have hjoined := h.joined
  split at hnext
  · rename_i left hmain
    obtain rfl := Option.some.inj hnext
    exact h.spawn hmain
  · rename_i hmain
    obtain rfl := Option.some.inj hnext
    exact h.set_main (by rw [hmain]; rfl) (fun j hj => absurd hj (Nat.not_lt_zero j))
      (by rw [hmain]; rfl) (by simp) (by simp) (by simp)
  · rename_i thread left hmain
    obtain rfl := Option.some.inj hnext
    exact h.launch hmain
  · rename_i hmain
    obtain rfl := Option.some.inj hnext
    exact h.set_main (by rw [hmain]; rfl) (fun j hj => absurd hj (Nat.not_lt_zero j))
      (by rw [hmain]; rfl) (by simp) (by simp) (by simp)
  · rename_i k hmain
    rw [hmain] at hjoined
    split at hnext
    · -- one more worker is joined
      rename_i hexited
      obtain rfl := Option.some.inj hnext
      refine h.set_main (by rw [hmain]; rfl) (fun j hj => ?_) (by rw [hmain]; rfl) (by simp)
        (by simp) (by simp)
      rcases Nat.lt_succ_iff_lt_or_eq.mp hj with hlt | rfl
      · exact hjoined j hlt
      · exact hexited
    · exact absurd hnext (by simp)
    · rename_i hend
      obtain rfl := Option.some.inj hnext
      exact h.start_returns hmain hend
  · rename_i k hmain
    obtain ⟨-, rfl⟩ := of_guard hnext
    rw [hmain] at hjoined
    exact h.set_main (by rw [hmain]; rfl) hjoined (by rw [hmain]; rfl) (by simp) (by simp)
      (by simp)
  · rename_i hmain
    obtain ⟨st₁, hjoin, rfl⟩ := Option.map_eq_some_iff.mp hnext
    have h₁ := sound_join h hjoin
    obtain ⟨background, rfl, hregistry⟩ := join_keeps hjoin
    rw [hmain] at hjoined
    exact h₁.set_main (by rw [hmain]; rfl) hjoined (by rw [hmain]; rfl) (by simp)
      (fun _ => hregistry) (by simp)
  · -- the members are destroyed
    rename_i hmain
    rw [hmain] at hjoined
    split at hnext
    · obtain rfl := Option.some.inj hnext
      exact h.set_main (by rw [hmain]; rfl) hjoined (by rw [hmain]; rfl) (by simp) (by simp)
        (by simp)
    · rename_i hnone
      obtain rfl := Option.some.inj hnext
      refine h.set_main (by rw [hmain]; rfl) hjoined (by rw [hmain]; rfl) (by simp) (by simp) ?_
      intro _ thread
      rw [List.any_eq_true] at hnone
      rw [← Bool.not_eq_true]
      exact fun hjoinable => hnone ⟨thread, by cases thread <;> simp, hjoinable⟩
  · exact absurd hnext (by simp)
  · exact absurd hnext (by simp)

/-- When `Start` has returned, the flag is down. -/
theorem Sound.down_of_joined (hn : 0 < n) (h : Sound n st) (hjoined : st.main.joined n = n) :
    st.running = false := by
  rw [← Bool.not_eq_true]
  intro hup
  have hposted := (h.fresh hup).1
  have hall := (h.all_left hjoined).2.1
  omega

/-- The exchange, with the flag up: nobody else is past it. -/
theorem Sound.exchange (hn : 0 < n) (h : Sound n st) (hup : st.running = true) (k : Nat) :
    Sound n { st with running := false, stops := st.stops.set k (.posting 0) } := by
  obtain ⟨hposted, hcalled⟩ := h.fresh hup
  have hfresh : ∀ j i : Nat, st.stops[j]? ≠ some (.posting i) := fun j i hj =>
    absurd (hcalled _ (List.mem_of_getElem? hj)) (by simp)
  have hself : ∀ j i : Nat, (st.stops.set k (.posting 0))[j]? = some (.posting i) →
      j = k ∧ i = 0 := by
    intro j i hj
    rcases get_set hj with ⟨rfl, heq⟩ | ⟨-, hold⟩
    · exact ⟨rfl, StopCall.posting.inj heq⟩
    · exact absurd hold (hfresh j i)
  exact { h with
    fresh := fun hup' => absurd hup' (by simp)
    posting := fun j i hj => (hself j i hj).2.trans hposted.symm
    single := fun j j' i i' hj hj' => (hself j i hj).1.trans (hself j' i' hj').1.symm
    own := fun j hmain => by
      change st.main = .destroying j at hmain
      have hdown := h.down_of_joined hn (by rw [hmain]; rfl)
      exact absurd (hup.symm.trans hdown) (by simp) }

/-- One more null packet is posted. -/
theorem Sound.post (h : Sound n st) {k i : Nat} (hcall : st.stops[k]? = some (.posting i))
    (hlt : i < st.workers.length) :
    Sound n { st with
      port := st.port ++ [.null]
      stops := st.stops.set k (.posting (i + 1))
      posted := st.posted + 1 } := by
  have hdown := h.down hcall (by simp)
  have hi := h.posting k i hcall
  have hself : ∀ j i' : Nat,
      (st.stops.set k (.posting (i + 1)))[j]? = some (.posting i') → j = k ∧ i' = i + 1 := by
    intro j i' hj
    rcases get_set hj with ⟨rfl, heq⟩ | ⟨hne, hold⟩
    · exact ⟨rfl, StopCall.posting.inj heq⟩
    · exact absurd (h.single j k i' i hold hcall) hne
  exact { h with
    conserved := by
      change (st.port ++ [Completion.null]).count _ + st.workers.count true = st.posted + 1
      rw [List.count_append, List.count_singleton_self, ← h.conserved]
      omega
    posted := by
      change st.posted + 1 ≤ st.workers.length
      omega
    fresh := fun hup => absurd (hup.symm.trans hdown) (by simp)
    posting := fun j i' hj => by
      change i' = st.posted + 1
      rw [(hself j i' hj).2, hi]
    single := fun j j' i i' hj hj' => (hself j i hj).1.trans (hself j' i' hj').1.symm
    own := fun j hmain => by
      have hbefore := h.own j hmain
      have hjk : j ≠ k := by
        rintro rfl
        rw [hcall] at hbefore
        exact absurd hbefore (by simp)
      change (st.stops.set k _)[j]? = _ ∨ (st.stops.set k _)[j]? = _
      rw [List.getElem?_set_ne (Ne.symm hjk)]
      exact hbefore }

theorem sound_stop (hn : 0 < n) (h : Sound n st) {k : Nat} (hnext : st.stop k = some st') :
    Sound n st' := by
  unfold stop at hnext
  split at hnext
  · rename_i hcall
    split at hnext
    · rename_i hup
      obtain rfl := Option.some.inj hnext
      exact h.exchange hn hup k
    · rename_i hdown
      obtain rfl := Option.some.inj hnext
      exact h.set_call hcall (by simpa using hdown) (by simp) (fun _ => rfl)
  · rename_i i hcall
    split at hnext
    · rename_i hlt
      obtain rfl := Option.some.inj hnext
      exact h.post hcall hlt
    · obtain rfl := Option.some.inj hnext
      exact h.set_call hcall (h.down hcall (by simp)) (by simp) (by simp)
  · rename_i thread rest hcall
    have hdown := h.down hcall (by simp)
    obtain ⟨st₁, hjoin, rfl⟩ := Option.map_eq_some_iff.mp hnext
    have h₁ := sound_join h hjoin
    obtain ⟨background, rfl, -⟩ := join_keeps hjoin
    exact h₁.set_call hcall hdown (by simp) (by simp)
  · rename_i hcall
    obtain rfl := Option.some.inj hnext
    exact h.set_call hcall (h.down hcall (by simp)) (by simp) (by simp)
  · exact absurd hnext (by simp)
  · exact absurd hnext (by simp)

theorem sound_worker (h : Sound n st) {k : Nat} (hnext : st.worker k = some st') :
    Sound n st' := by
  unfold worker at hnext
  have hconserved := h.conserved
  split at hnext
  · rename_i port hworker hport
    obtain rfl := Option.some.inj hnext
    exact { h with
      conserved := by
        rw [hport, List.count_cons_of_ne (by simp)] at hconserved
        exact hconserved }
  · rename_i port hworker hport
    obtain rfl := Option.some.inj hnext
    obtain ⟨hlt, hget⟩ := List.getElem?_eq_some_iff.mp hworker
    exact { h with
      spawned := by
        change (st.workers.set k true).length + _ = n
        rw [List.length_set]
        exact h.spawned
      conserved := by
        change port.count .null + (st.workers.set k true).count true = st.posted
        rw [hport, List.count_cons_self] at hconserved
        rw [List.count_set hlt, hget]
        simp
        omega
      posted := by
        change st.posted ≤ (st.workers.set k true).length
        rw [List.length_set]
        exact h.posted
      joined := fun j hj => by
        change (st.workers.set k true)[j]? = some true
        by_cases hjk : j = k
        · rw [hjk, List.getElem?_set_self hlt]
        · rw [List.getElem?_set_ne (Ne.symm hjk)]
          exact h.joined j hj }
  · exact absurd hnext (by simp)

theorem sound_loop (h : Sound n st) {thread : Background} (hnext : st.loop thread = some st') :
    Sound n st' := by
  unfold loop at hnext
  split at hnext
  · split at hnext
    · obtain rfl := Option.some.inj hnext
      exact h
    · rename_i hlooping _
      obtain rfl := Option.some.inj hnext
      exact h.set_background (by rw [hlooping]; rfl) (by simp)
  · exact absurd hnext (by simp)

/-- The step lemma. -/
theorem sound_next (hn : 0 < n) (h : Sound n st) (hnext : lifecycleNext st action = some st') :
    Sound n st' := by
  cases action with
  | goOn => exact sound_goOn h hnext
  | stop k => exact sound_stop hn h hnext
  | worker k => exact sound_worker h hnext
  | loop thread => exact sound_loop h hnext
  | complete =>
    obtain rfl := Option.some.inj hnext
    exact { h with
      conserved := by
        change (st.port ++ [Completion.io]).count Completion.null + _ = _
        rw [List.count_append, List.count_singleton]
        exact h.conserved }
  | callStop =>
    obtain rfl := Option.some.inj hnext
    exact h.add_call

theorem worker_keeps {k : Nat} (hnext : st.worker k = some st') :
    ∃ workers port, st' = { st with workers := workers, port := port } := by
  unfold worker at hnext
  split at hnext
  · exact ⟨_, _, (Option.some.inj hnext).symm⟩
  · exact ⟨_, _, (Option.some.inj hnext).symm⟩
  · exact absurd hnext (by simp)

theorem loop_keeps {thread : Background} (hnext : st.loop thread = some st') :
    ∃ background, st' = { st with background := background } := by
  unfold loop at hnext
  split at hnext
  · split at hnext <;> exact ⟨_, (Option.some.inj hnext).symm⟩
  · exact absurd hnext (by simp)

/-- A call of `Stop` leaves the main thread where it is. -/
theorem stop_keeps {k : Nat} (hnext : st.stop k = some st') : st'.main = st.main := by
  unfold stop at hnext
  split at hnext
  · split at hnext <;> rw [← Option.some.inj hnext]
  · split at hnext <;> rw [← Option.some.inj hnext]
  · obtain ⟨st₁, hjoin, rfl⟩ := Option.map_eq_some_iff.mp hnext
    obtain ⟨background, rfl, -⟩ := join_keeps hjoin
    rfl
  · rw [← Option.some.inj hnext]
  · exact absurd hnext (by simp)
  · exact absurd hnext (by simp)

/-! ## A call of `Stop` that came too early -/

/-- There are workers left for which no null packet was posted, and nobody is to post one. -/
def Cut (n : Nat) (st : Lifecycle) : Prop :=
  st.running = false ∧ st.posted < n ∧ ∀ call ∈ st.stops, call.isPosting = false

instance : Decidable (Cut n st) :=
  inferInstanceAs (Decidable (_ ∧ _ ∧ _))

/-- What the main thread leaves alone. -/
theorem goOn_keeps (hnext : st.goOn = some st') :
    st'.running = st.running ∧ st'.posted = st.posted ∧ st'.port = st.port ∧
      (st'.stops = st.stops ∨ st'.stops = st.stops ++ [.called] ∧ st'.main.Returned) := by
  unfold goOn at hnext
  split at hnext
  · obtain rfl := Option.some.inj hnext
    exact ⟨rfl, rfl, rfl, Or.inl rfl⟩
  · obtain rfl := Option.some.inj hnext
    exact ⟨rfl, rfl, rfl, Or.inl rfl⟩
  · obtain rfl := Option.some.inj hnext
    exact ⟨rfl, rfl, rfl, Or.inl rfl⟩
  · obtain rfl := Option.some.inj hnext
    exact ⟨rfl, rfl, rfl, Or.inl rfl⟩
  · split at hnext
    · obtain rfl := Option.some.inj hnext
      exact ⟨rfl, rfl, rfl, Or.inl rfl⟩
    · exact absurd hnext (by simp)
    · obtain rfl := Option.some.inj hnext
      exact ⟨rfl, rfl, rfl, Or.inr ⟨rfl, trivial⟩⟩
  · obtain ⟨-, rfl⟩ := of_guard hnext
    exact ⟨rfl, rfl, rfl, Or.inl rfl⟩
  · obtain ⟨st₁, hjoin, rfl⟩ := Option.map_eq_some_iff.mp hnext
    obtain ⟨background, rfl, -⟩ := join_keeps hjoin
    exact ⟨rfl, rfl, rfl, Or.inl rfl⟩
  · split at hnext <;> obtain rfl := Option.some.inj hnext <;> exact ⟨rfl, rfl, rfl, Or.inl rfl⟩
  · exact absurd hnext (by simp)
  · exact absurd hnext (by simp)

theorem cut_add_call : Cut n { st with stops := st.stops ++ [.called] } ↔ Cut n st := by
  refine and_congr_right fun _ => and_congr_right fun _ => ?_
  refine ⟨fun h call hcall => h call (List.mem_append_left _ hcall), fun h call hcall => ?_⟩
  rcases List.mem_append.mp hcall with hold | hnew
  · exact h call hold
  · rw [List.mem_singleton.mp hnew]
    rfl

/-- It is not the main thread that cuts anything off. -/
theorem cut_goOn (hnext : st.goOn = some st') : Cut n st' ↔ Cut n st := by
  obtain ⟨hrunning, hposted, -, hstops | ⟨hstops, -⟩⟩ := goOn_keeps hnext
  · rw [Cut, hrunning, hposted, hstops, Cut]
  · rw [Cut, hrunning, hposted, hstops]
    exact cut_add_call

theorem Cut.set_call (h : Cut n st) {k : Nat} {call : StopCall} (hcall : call.isPosting = false) :
    Cut n { st with stops := st.stops.set k call } := by
  refine ⟨h.1, h.2.1, fun other hother => ?_⟩
  rcases List.mem_or_eq_of_mem_set hother with hold | rfl
  · exact h.2.2 other hold
  · exact hcall

/-- There is no way back. -/
theorem cut_next (h : Cut n st) (hnext : lifecycleNext st action = some st') : Cut n st' := by
  cases action with
  | goOn => exact (cut_goOn hnext).mpr h
  | stop k =>
    change st.stop k = some st' at hnext
    unfold stop at hnext
    split at hnext
    · rw [if_neg (by simp [h.1])] at hnext
      obtain rfl := Option.some.inj hnext
      exact h.set_call rfl
    · rename_i i hcall
      exact absurd (h.2.2 _ (List.mem_of_getElem? hcall)) (by simp [StopCall.isPosting])
    · obtain ⟨st₁, hjoin, rfl⟩ := Option.map_eq_some_iff.mp hnext
      obtain ⟨background, rfl, -⟩ := join_keeps hjoin
      exact @Cut.set_call n { st with background := background } h k _ rfl
    · obtain rfl := Option.some.inj hnext
      exact h.set_call rfl
    · exact absurd hnext (by simp)
    · exact absurd hnext (by simp)
  | worker k =>
    obtain ⟨workers, port, rfl⟩ := worker_keeps hnext
    exact h
  | loop thread =>
    obtain ⟨background, rfl⟩ := loop_keeps hnext
    exact h
  | complete =>
    obtain rfl := Option.some.inj hnext
    exact h
  | callStop =>
    obtain rfl := Option.some.inj hnext
    exact cut_add_call.mpr h

/-! ## A join that was passed over -/

/-- The thread has been joined, or a call of `Stop` is to join it. -/
def Covered (st : Lifecycle) (thread : Background) : Prop :=
  st.background thread = .joined ∨ ∃ call ∈ st.stops, thread ∈ call.toJoin

instance (thread : Background) : Decidable (Covered st thread) :=
  inferInstanceAs (Decidable (_ ∨ _))

/-- The one `Stop` that joins threads has passed over one of them. -/
def Strayed (st : Lifecycle) : Prop :=
  st.running = false ∧ ∃ thread ∈ stopJoins, ¬ Covered st thread

instance : Decidable (Strayed st) :=
  inferInstanceAs (Decidable (_ ∧ _))

theorem Strayed.mono (h : Strayed st) (hdown : st'.running = false)
    (hcovered : ∀ thread ∈ stopJoins, Covered st' thread → Covered st thread) : Strayed st' := by
  obtain ⟨-, thread, hmem, hnot⟩ := h
  exact ⟨hdown, thread, hmem, fun hc => hnot (hcovered thread hmem hc)⟩

theorem covered_add_call {thread : Background} :
    Covered { st with stops := st.stops ++ [.called] } thread ↔ Covered st thread := by
  refine or_congr_right ⟨?_, ?_⟩
  · rintro ⟨call, hcall, hjoin⟩
    rcases List.mem_append.mp hcall with hold | hnew
    · exact ⟨call, hold, hjoin⟩
    · rw [List.mem_singleton.mp hnew] at hjoin
      exact absurd hjoin List.not_mem_nil
  · rintro ⟨call, hcall, hjoin⟩
    exact ⟨call, List.mem_append_left _ hcall, hjoin⟩

/-- A call goes on that has nothing less to join, but for threads that are joined. -/
theorem Covered.set_call {thread : Background} {k : Nat} {call call' : StopCall}
    (h : Covered st thread) (hcall : st.stops[k]? = some call)
    (hjoins : thread ∈ call.toJoin → st.background thread = .joined ∨ thread ∈ call'.toJoin) :
    Covered { st with stops := st.stops.set k call' } thread := by
  rcases h with hjoined | ⟨other, hother, hjoin⟩
  · exact Or.inl hjoined
  · obtain ⟨j, hj⟩ := List.mem_iff_getElem?.mp hother
    have hlt : k < st.stops.length := (List.getElem?_eq_some_iff.mp hcall).1
    by_cases hjk : j = k
    · subst hjk
      obtain rfl := Option.some.inj (hcall.symm.trans hj)
      exact (hjoins hjoin).imp id fun hjoin' => ⟨call', List.mem_set hlt _, hjoin'⟩
    · refine Or.inr ⟨other, List.mem_iff_getElem?.mpr ⟨j, ?_⟩, hjoin⟩
      rw [List.getElem?_set_ne (Ne.symm hjk)]
      exact hj

/-- And one that has nothing more to join. -/
theorem covered_of_set_call {thread : Background} {k : Nat} {call call' : StopCall}
    (hcall : st.stops[k]? = some call) (hjoins : thread ∈ call'.toJoin → thread ∈ call.toJoin)
    (h : Covered { st with stops := st.stops.set k call' } thread) : Covered st thread := by
  rcases h with hjoined | ⟨other, hother, hjoin⟩
  · exact Or.inl hjoined
  · rcases List.mem_or_eq_of_mem_set hother with hold | rfl
    · exact Or.inr ⟨other, hold, hjoin⟩
    · exact Or.inr ⟨call, List.mem_of_getElem? hcall, hjoins hjoin⟩

/-- Another thread is joined, or this one has not been. -/
theorem covered_of_update {thread other : Background} {state : LoopState}
    (hstate : other = thread → state ≠ .joined)
    (h : Covered { st with background := Function.update st.background thread state } other) :
    Covered st other := by
  refine h.imp (fun hjoined => ?_) id
  change Function.update st.background thread state other = .joined at hjoined
  by_cases hne : other = thread
  · rw [hne, Function.update_self] at hjoined
    exact absurd hjoined (hstate hne)
  · rwa [Function.update_of_ne hne] at hjoined

/-- The main thread joins none of these threads. -/
theorem joined_goOn (h : Sound n st) (hnext : st.goOn = some st') {thread : Background}
    (hmem : thread ∈ stopJoins) :
    st'.background thread = .joined ↔ st.background thread = .joined := by
  unfold goOn at hnext
  split at hnext
  · rw [← Option.some.inj hnext]
  · rw [← Option.some.inj hnext]
  · -- the thread that is started has not been joined
    rename_i other left hmain
    obtain rfl := Option.some.inj hnext
    change Function.update st.background other .looping thread = .joined ↔ _
    by_cases hne : thread = other
    · subst hne
      have hunstarted : st.background thread = .unstarted :=
        (h.launched thread).mpr (by rw [hmain]; exact List.mem_cons_self)
      rw [Function.update_self, hunstarted]
      simp
    · rw [Function.update_of_ne hne]
  · rw [← Option.some.inj hnext]
  · split at hnext
    · rw [← Option.some.inj hnext]
    · exact absurd hnext (by simp)
    · rw [← Option.some.inj hnext]
  · obtain ⟨-, rfl⟩ := of_guard hnext
    rfl
  · obtain ⟨st₁, hjoin, rfl⟩ := Option.map_eq_some_iff.mp hnext
    have hne : thread ≠ .registry := by
      rintro rfl
      exact absurd hmem (by decide)
    rcases join_cases hjoin with ⟨-, rfl⟩ | ⟨-, rfl⟩
    · rfl
    · change Function.update st.background .registry .joined thread = .joined ↔ _
      rw [Function.update_of_ne hne]
  · split at hnext <;> rw [← Option.some.inj hnext]
  · exact absurd hnext (by simp)
  · exact absurd hnext (by simp)

theorem covered_goOn (h : Sound n st) (hnext : st.goOn = some st') {thread : Background}
    (hmem : thread ∈ stopJoins) : Covered st' thread ↔ Covered st thread := by
  have hjoined := joined_goOn h hnext hmem
  obtain ⟨-, -, -, hstops | ⟨hstops, -⟩⟩ := goOn_keeps hnext
  · unfold Covered
    rw [hjoined, hstops]
  · rw [← @covered_add_call st]
    unfold Covered
    rw [hjoined, hstops]

theorem strayed_goOn (h : Sound n st) (hnext : st.goOn = some st') :
    Strayed st' ↔ Strayed st := by
  have hrunning := (goOn_keeps hnext).1
  constructor
  · exact fun hs => hs.mono (hrunning ▸ hs.1) fun _ hmem => (covered_goOn h hnext hmem).mpr
  · exact fun hs => hs.mono (hrunning.trans hs.1) fun _ hmem => (covered_goOn h hnext hmem).mp

/-- There is no way back. -/
theorem strayed_next (h : Sound n st) (hs : Strayed st)
    (hnext : lifecycleNext st action = some st') : Strayed st' := by
  cases action with
  | goOn => exact (strayed_goOn h hnext).mpr hs
  | stop k =>
    change st.stop k = some st' at hnext
    unfold stop at hnext
    split at hnext
    · rename_i hcall
      rw [if_neg (by simp [hs.1])] at hnext
      obtain rfl := Option.some.inj hnext
      exact hs.mono hs.1 fun _ _ => covered_of_set_call hcall id
    · rename_i i hcall
      -- this call is to join every one of the threads
      obtain ⟨-, thread, hmem, hnot⟩ := hs
      exact absurd (Or.inr ⟨_, List.mem_of_getElem? hcall, hmem⟩) hnot
    · rename_i thread rest hcall
      obtain ⟨st₁, hjoin, rfl⟩ := Option.map_eq_some_iff.mp hnext
      have hcall₁ : Covered st thread :=
        Or.inr ⟨_, List.mem_of_getElem? hcall, List.mem_cons_self⟩
      rcases join_cases hjoin with ⟨-, rfl⟩ | ⟨-, rfl⟩
      · exact hs.mono hs.1 fun _ _ => covered_of_set_call hcall (List.mem_cons_of_mem _)
      · refine hs.mono hs.1 fun other _ hother => ?_
        by_cases hne : other = thread
        · rw [hne]
          exact hcall₁
        · refine @covered_of_update st thread other .joined (fun heq => absurd heq hne) ?_
          exact covered_of_set_call hcall (List.mem_cons_of_mem thread) hother
    · rename_i hcall
      obtain rfl := Option.some.inj hnext
      exact hs.mono hs.1 fun _ _ => covered_of_set_call hcall id
    · exact absurd hnext (by simp)
    · exact absurd hnext (by simp)
  | worker k =>
    obtain ⟨workers, port, rfl⟩ := worker_keeps hnext
    exact hs
  | loop thread =>
    change st.loop thread = some st' at hnext
    unfold loop at hnext
    split at hnext
    · split at hnext
      · obtain rfl := Option.some.inj hnext
        exact hs
      · obtain rfl := Option.some.inj hnext
        exact hs.mono hs.1 fun _ _ => covered_of_update (by simp)
    · exact absurd hnext (by simp)
  | complete =>
    obtain rfl := Option.some.inj hnext
    exact hs
  | callStop =>
    obtain rfl := Option.some.inj hnext
    exact hs.mono hs.1 fun _ _ => covered_add_call.mp

/-- While a call of `Stop` has all its joins before it, none is passed over. -/
theorem not_strayed_of_posting {i : Nat} (hcall : .posting i ∈ st.stops) : ¬ Strayed st := by
  rintro ⟨-, thread, hmem, hnot⟩
  exact hnot (Or.inr ⟨_, hcall, hmem⟩)

/-- A terminated program stays so. -/
theorem terminated_next (hmain : st.main = .terminated)
    (hnext : lifecycleNext st action = some st') : st'.main = .terminated := by
  cases action with
  | goOn =>
    change st.goOn = some st' at hnext
    rw [goOn, hmain] at hnext
    exact absurd hnext (by simp)
  | stop k =>
    exact (stop_keeps hnext).trans hmain
  | worker k =>
    obtain ⟨workers, port, rfl⟩ := worker_keeps hnext
    exact hmain
  | loop thread =>
    obtain ⟨background, rfl⟩ := loop_keeps hnext
    exact hmain
  | complete =>
    obtain rfl := Option.some.inj hnext
    exact hmain
  | callStop =>
    obtain rfl := Option.some.inj hnext
    exact hmain

/-! ## The way to the end -/

/-- The end is still ahead: nothing was cut off or passed over. -/
structure CanEnd (n : Nat) (st : Lifecycle) : Prop where
  cut : ¬ Cut n st
  strayed : ¬ Strayed st
  main : st.main ≠ .terminated

/-- What is left for the main thread. -/
def mainRank (n : Nat) (st : Lifecycle) : Nat :=
  match st.main with
  | .spawning left => left + n + 15
  | .launching left => 2 * left.length + n + 6
  | .joining k => n - k + 5
  | .destroying k => if st.stops[k]? = some .returned then 3 else 4
  | .joiningRegistry => 2
  | .destructing => 1
  | .gone | .terminated => 0

/-- For a call of `Stop`. -/
def callRank : StopCall → Nat
  | .called | .returned => 0
  | .posting _ => 5
  | .joining rest => rest.length + 1

/-- For a thread in its loop. -/
def loopRank : LoopState → Nat
  | .looping => 1
  | .unstarted | .ended | .joined => 0

/-- For all of them. -/
def loopsRank (background : Background → LoopState) : Nat :=
  loopRank (background .tick) + loopRank (background .heartbeat) + loopRank (background .stats) +
    loopRank (background .registry)

/-- And with it for the `Stop` that lets the workers go. -/
def rank (n : Nat) (st : Lifecycle) : Nat :=
  st.mainRank n + 2 * (n - st.posted) + st.port.length + (st.stops.map callRank).sum +
    loopsRank st.background +
    if st.running then (if .called ∈ st.stops then 6 else 7) else 0

/-- One thread goes on. -/
theorem loopsRank_update {background : Background → LoopState} {thread : Background}
    {state : LoopState} :
    loopsRank (Function.update background thread state) + loopRank (background thread) =
      loopsRank background + loopRank state := by
  cases thread <;> simp only [loopsRank, Function.update_self, ne_eq, reduceCtorEq,
    not_false_eq_true, Function.update_of_ne] <;> omega

/-- A step that brings the end nearer. -/
def Nearer (n : Nat) (st : Lifecycle) : Prop :=
  ∃ action st', lifecycleNext st action = some st' ∧ (Sound n st' ∧ CanEnd n st') ∧
    rank n st' < rank n st

/-- A step of the main thread. -/
theorem nearer_goOn (h : Sound n st) (hend : CanEnd n st)
    (hnext : st.goOn = some st') (hmain : st'.main ≠ .terminated)
    (hrank : st'.mainRank n + loopsRank st'.background <
      st.mainRank n + loopsRank st.background) : Nearer n st := by
  refine ⟨.goOn, st', hnext, ⟨sound_goOn h hnext, ?_, ?_, hmain⟩, ?_⟩
  · rw [cut_goOn hnext]
    exact hend.cut
  · rw [strayed_goOn h hnext]
    exact hend.strayed
  · obtain ⟨hrunning, hposted, hport, hstops⟩ := goOn_keeps hnext
    have hcalled : (if .called ∈ st'.stops then 6 else 7) ≤
        (if .called ∈ st.stops then 6 else 7) := by
      rcases hstops with hstops | ⟨hstops, -⟩
      · rw [hstops]
      · rw [if_pos (by simp [hstops])]
        split <;> omega
    have hcalls : (st'.stops.map callRank).sum = (st.stops.map callRank).sum := by
      rcases hstops with hstops | ⟨hstops, -⟩
      · rw [hstops]
      · simp [hstops, callRank]
    unfold rank
    rw [hrunning, hposted, hport, hcalls]
    split <;> omega

/-- A thread of `Stop` sees that the flag is down. -/
theorem nearer_loop (h : Sound n st) (hend : CanEnd n st) (hdown : st.running = false)
    {thread : Background} (hlooping : st.background thread = .looping) : Nearer n st := by
  have hnext : st.loop thread =
      some { st with background := Function.update st.background thread .ended } := by
    simp [loop, hlooping, hdown]
  refine ⟨.loop thread, _, hnext, ⟨sound_loop h hnext, hend.cut, ?_, hend.main⟩, ?_⟩
  · refine fun hs => hend.strayed (hs.mono hdown fun other _ hother => ?_)
    refine hother.imp (fun hjoined => ?_) id
    change Function.update st.background thread .ended other = .joined
    rw [Function.update_of_ne]
    · exact hjoined
    · rintro rfl
      exact absurd (hlooping.symm.trans hjoined) (by simp)
  · have hloops := @loopsRank_update st.background thread .ended
    rw [hlooping] at hloops
    simp only [rank, mainRank, loopRank] at hloops ⊢
    omega

/-- While a worker is to be joined, a call of `Stop` takes the flag down. -/
theorem nearer_exchange (hn : 0 < n) (h : Sound n st) (hend : CanEnd n st) {k : Nat}
    (hmain : st.main = .joining k) (hup : st.running = true) (hcalled : .called ∈ st.stops) :
    Nearer n st := by
  obtain ⟨j, hcall⟩ := List.mem_iff_getElem?.mp hcalled
  have hlt : j < st.stops.length := (List.getElem?_eq_some_iff.mp hcall).1
  have hnext : st.stop j =
      some { st with running := false, stops := st.stops.set j (.posting 0) } := by
    simp [stop, hcall, hup]
  refine ⟨.stop j, _, hnext, ⟨sound_stop hn h hnext, ?_, ?_, hend.main⟩, ?_⟩
  · intro hcut'
    exact absurd (hcut'.2.2 (.posting 0) (List.mem_set hlt _)) (by simp [StopCall.isPosting])
  · exact not_strayed_of_posting (i := 0) (List.mem_set hlt _)
  · have hcalls := Tally.sum_map_set_add callRank hcall (.posting 0)
    simp only [rank, mainRank, hmain, hup, hcalled, callRank, if_true, Bool.false_eq_true,
      if_false] at hcalls ⊢
    omega

/-- And with the flag down it posts the next null packet. -/
theorem nearer_post (hn : 0 < n) (h : Sound n st) (hend : CanEnd n st) {k : Nat}
    (hmain : st.main = .joining k) (hport : st.port = []) (hdown : st.running = false)
    (hleft : st.posted < n) : Nearer n st := by
  have hspawned := h.spawned
  rw [hmain] at hspawned
  change st.workers.length + 0 = n at hspawned
  have hposting : ∃ j i : Nat, st.stops[j]? = some (.posting i) := by
    by_contra hnone
    refine hend.cut ⟨hdown, hleft, fun call hcall => ?_⟩
    obtain ⟨j, hcall⟩ := List.mem_iff_getElem?.mp hcall
    cases call with
    | posting i => exact absurd ⟨j, i, hcall⟩ hnone
    | called | joining | returned => rfl
  obtain ⟨j, i, hcall⟩ := hposting
  have hlt : j < st.stops.length := (List.getElem?_eq_some_iff.mp hcall).1
  have hi := h.posting j i hcall
  have hnext : st.stop j = some { st with
      port := st.port ++ [.null]
      stops := st.stops.set j (.posting (i + 1))
      posted := st.posted + 1 } := by
    have hless : i < st.workers.length := by omega
    simp [stop, hcall, hless]
  refine ⟨.stop j, _, hnext, ⟨sound_stop hn h hnext, ?_, ?_, hend.main⟩, ?_⟩
  · intro hcut'
    exact absurd (hcut'.2.2 (.posting (i + 1)) (List.mem_set hlt _))
      (by simp [StopCall.isPosting])
  · exact not_strayed_of_posting (i := i + 1) (List.mem_set hlt _)
  · have hcalls := Tally.sum_map_set_add callRank hcall (.posting (i + 1))
    simp only [rank, mainRank, hmain, hdown, hport, callRank, List.length_append,
      List.length_nil, List.length_singleton, Bool.false_eq_true, if_false] at hcalls ⊢
    omega

/-- The main thread waits for a worker that has not left. -/
theorem nearer_joining (hn : 0 < n) (h : Sound n st) (hend : CanEnd n st) {k : Nat}
    (hmain : st.main = .joining k) (hworker : st.workers[k]? = some false) : Nearer n st := by
  have hspawned := h.spawned
  rw [hmain] at hspawned
  change st.workers.length + 0 = n at hspawned
  cases hport : st.port with
  | cons completion port =>
    -- the worker takes what is first in the port
    have hnext : ∃ workers, st.worker k = some { st with workers := workers, port := port } := by
      unfold worker
      cases completion with
      | io => exact ⟨st.workers, by simp [hworker, hport]⟩
      | null => exact ⟨st.workers.set k true, by simp [hworker, hport]⟩
    obtain ⟨workers, hnext⟩ := hnext
    refine ⟨.worker k, _, hnext,
      ⟨sound_worker h hnext, hend.cut, hend.strayed, hend.main⟩, ?_⟩
    simp [rank, mainRank, hmain, hport]
  | nil =>
    have hleft : st.posted < n := by
      have hconserved := h.conserved
      have hposted := h.posted
      rw [hport, List.count_nil] at hconserved
      have hne : st.workers.count true ≠ st.workers.length := fun heq =>
        absurd (List.count_eq_length.mp heq false (List.mem_of_getElem? hworker)) (by simp)
      omega
    by_cases hup : st.running = true
    · by_cases hcalled : .called ∈ st.stops
      · exact nearer_exchange hn h hend hmain hup hcalled
      · -- somebody has to call it
        refine ⟨.callStop, _, rfl, ⟨h.add_call, ?_, ?_, hend.main⟩, ?_⟩
        · rw [cut_add_call]
          exact hend.cut
        · exact fun hs => absurd (hup.symm.trans hs.1) (by simp)
        · simp [rank, mainRank, hmain, hup, hcalled, callRank]
    · exact nearer_post hn h hend hmain hport (by simpa using hup) hleft

/-- A call of `Stop` goes on at its joins, and passes over none. -/
theorem nearer_join (hn : 0 < n) (h : Sound n st) (hend : CanEnd n st) (hposted : st.posted = n)
    (hmain : st.main = .destructing) {k : Nat} {thread : Background} {rest : List Background}
    (hcall : st.stops[k]? = some (.joining (thread :: rest))) : Nearer n st := by
  have hdown := h.down hcall (by simp)
  have hstarted : st.background thread ≠ .unstarted := by
    intro hunstarted
    have hlaunched := (h.launched thread).mp hunstarted
    rw [hmain] at hlaunched
    exact absurd hlaunched List.not_mem_nil
  have hcalls := Tally.sum_map_set_add callRank hcall (.joining rest)
  have hcut : ∀ {st' : Lifecycle}, st'.posted = st.posted → ¬ Cut n st' := fun heq hcut' =>
    absurd hcut'.2.1 (by omega)
  cases hstate : st.background thread with
  | unstarted => exact absurd hstate hstarted
  | looping => exact nearer_loop h hend hdown hstate
  | ended =>
    have hnext : st.stop k = some { st with
        background := Function.update st.background thread .joined
        stops := st.stops.set k (.joining rest) } := by
      simp [stop, join, hcall, hstate]
    refine ⟨.stop k, _, hnext, ⟨sound_stop hn h hnext, hcut rfl, ?_, hend.main⟩, ?_⟩
    · refine fun hs => hend.strayed (hs.mono hdown fun other _ hother => ?_)
      have hother' : Covered { st with
          background := Function.update st.background thread .joined } other := by
        refine hother.imp (fun hjoined => ?_) id
        change Function.update st.background thread .joined other = .joined
        by_cases hne : other = thread
        · rw [hne, Function.update_self]
        · rwa [Function.update_of_ne hne]
      refine hother'.set_call hcall fun hmem => ?_
      rcases List.mem_cons.mp hmem with rfl | hmem
      · exact Or.inl (Function.update_self _ _ _)
      · exact Or.inr hmem
    · have hloops := @loopsRank_update st.background thread .joined
      rw [hstate] at hloops
      simp only [rank, mainRank, hmain, hdown, callRank, loopRank, List.length_cons,
        Bool.false_eq_true, if_false] at hcalls hloops ⊢
      omega
  | joined =>
    have hnext : st.stop k = some { st with stops := st.stops.set k (.joining rest) } := by
      simp [stop, join, hcall, hstate]
    refine ⟨.stop k, _, hnext, ⟨sound_stop hn h hnext, hcut rfl, ?_, hend.main⟩, ?_⟩
    · refine fun hs => hend.strayed (hs.mono hdown fun other _ hother => ?_)
      refine hother.set_call hcall fun hmem => ?_
      rcases List.mem_cons.mp hmem with rfl | hmem
      · exact Or.inl hstate
      · exact Or.inr hmem
    · simp only [rank, mainRank, hmain, hdown, callRank, List.length_cons, Bool.false_eq_true,
        if_false] at hcalls ⊢
      omega

/-- The `std::thread` members are destroyed: a `Stop` has to join those that can be joined. -/
theorem nearer_destructing (hn : 0 < n) (h : Sound n st) (hend : CanEnd n st)
    (hmain : st.main = .destructing) : Nearer n st := by
  have hreturned : st.main.joined n = n := by rw [hmain]; rfl
  obtain ⟨-, hposted, -⟩ := h.all_left hreturned
  have hdown := h.down_of_joined hn hreturned
  have hspawned := h.spawned
  rw [hmain] at hspawned
  change st.workers.length + 0 = n at hspawned
  by_cases hjoinable : ∃ thread ∈ stopJoins, (st.background thread).joinable = true
  · obtain ⟨thread, hmem, hjoinable⟩ := hjoinable
    have hcovered : Covered st thread := by
      by_contra hnot
      exact hend.strayed ⟨hdown, thread, hmem, hnot⟩
    rcases hcovered with hjoined | ⟨call, hcall, hjoin⟩
    · rw [hjoined] at hjoinable
      exact absurd hjoinable (by simp [LoopState.joinable])
    obtain ⟨k, hcall⟩ := List.mem_iff_getElem?.mp hcall
    cases call with
    | called | returned => exact absurd hjoin List.not_mem_nil
    | posting i =>
      -- its posts are done
      have hi := h.posting k i hcall
      have hnext : st.stop k = some { st with stops := st.stops.set k (.joining stopJoins) } := by
        have hnot : ¬ i < st.workers.length := by omega
        simp [stop, hcall, hnot]
      refine ⟨.stop k, _, hnext, ⟨sound_stop hn h hnext, ?_, ?_, hend.main⟩, ?_⟩
      · exact fun hcut' => absurd hcut'.2.1 (by simp [hposted])
      · refine fun hs => hend.strayed (hs.mono hdown fun other _ hother => ?_)
        exact hother.set_call hcall Or.inr
      · have hcalls := Tally.sum_map_set_add callRank hcall (.joining stopJoins)
        have hlength : stopJoins.length = 3 := rfl
        simp only [rank, mainRank, hmain, hdown, callRank, hlength, Bool.false_eq_true,
          if_false] at hcalls ⊢
        omega
    | joining rest =>
      cases rest with
      | nil => exact absurd hjoin List.not_mem_nil
      | cons thread rest => exact nearer_join hn h hend hposted hmain hcall
  · have hnone : ¬ ([.tick, .heartbeat, .stats, .registry].any fun thread =>
        (st.background thread).joinable) = true := by
      rw [List.any_eq_true]
      rintro ⟨thread, -, hthread⟩
      cases thread with
      | registry => exact absurd (hthread.symm.trans (h.registry hmain)) (by simp)
      | tick => exact hjoinable ⟨.tick, by decide, hthread⟩
      | heartbeat => exact hjoinable ⟨.heartbeat, by decide, hthread⟩
      | stats => exact hjoinable ⟨.stats, by decide, hthread⟩
    have hnext : st.goOn = some { st with main := .gone } := by
      rw [goOn, hmain]
      exact if_neg hnone
    refine nearer_goOn h hend hnext (by simp) ?_
    simp [mainRank, hmain]

/-- Short of the end, some step brings it nearer. -/
theorem nearer (hn : 0 < n) (h : Sound n st) (hend : CanEnd n st) (hmain : st.main ≠ .gone) :
    Nearer n st := by
  cases hat : st.main with
  | spawning left =>
    cases left with
    | zero =>
      refine nearer_goOn h hend (by rw [goOn, hat]) (by simp) ?_
      simp only [mainRank, hat, List.length_cons, List.length_nil]
      omega
    | succ left =>
      exact nearer_goOn h hend (by rw [goOn, hat]) (by simp) (by simp [mainRank, hat])
  | launching left =>
    cases left with
    | nil => exact nearer_goOn h hend (by rw [goOn, hat]) (by simp) (by simp [mainRank, hat])
    | cons thread left =>
      refine nearer_goOn h hend (by rw [goOn, hat]) (by simp) ?_
      have hloops := @loopsRank_update st.background thread .looping
      simp only [mainRank, hat, loopRank, List.length_cons] at hloops ⊢
      omega
  | joining k =>
    cases hworker : st.workers[k]? with
    | none =>
      have hnext : st.goOn = some
          { st with stops := st.stops ++ [.called], main := .destroying st.stops.length } := by
        simp [goOn, hat, hworker]
      refine nearer_goOn h hend hnext (by simp) ?_
      simp [mainRank, hat]
    | some exited =>
      cases exited with
      | false => exact nearer_joining hn h hend hat hworker
      | true =>
        have hlt : k < st.workers.length := (List.getElem?_eq_some_iff.mp hworker).1
        have hspawned := h.spawned
        rw [hat] at hspawned
        change st.workers.length + 0 = n at hspawned
        have hnext : st.goOn = some { st with main := .joining (k + 1) } := by
          simp [goOn, hat, hworker]
        refine nearer_goOn h hend hnext (by simp) ?_
        simp only [mainRank, hat]
        omega
  | destroying k =>
    have hreturned : st.main.joined n = n := by rw [hat]; rfl
    rcases h.own k hat with hcall | hcall
    · -- the destructor's `Stop` finds the flag down
      have hdown := h.down_of_joined hn hreturned
      have hnext : st.stop k = some { st with stops := st.stops.set k .returned } := by
        simp [stop, hcall, hdown]
      have hlt : k < st.stops.length := (List.getElem?_eq_some_iff.mp hcall).1
      refine ⟨.stop k, _, hnext, ⟨sound_stop hn h hnext, ?_, ?_, hend.main⟩, ?_⟩
      · intro hcut'
        have hposted := (h.all_left hreturned).2.1
        exact absurd hcut'.2.1 (by simp [hposted])
      · refine fun hs => hend.strayed (hs.mono hdown fun other _ hother => ?_)
        exact hother.set_call hcall Or.inr
      · have hbefore : st.stops[k]? ≠ some .returned := by simp [hcall]
        have hcalls := Tally.sum_map_set_add callRank hcall .returned
        simp only [rank, mainRank, hat, hdown, List.getElem?_set_self hlt, if_true, callRank]
          at hcalls ⊢
        rw [if_neg hbefore]
        simp only [Bool.false_eq_true, if_false]
        omega
    · refine nearer_goOn h hend (by rw [goOn, hat]; exact if_pos hcall) (by simp) ?_
      simp only [mainRank, hat]
      rw [if_pos hcall]
      omega
  | joiningRegistry =>
    have hreturned : st.main.joined n = n := by rw [hat]; rfl
    have hdown := h.down_of_joined hn hreturned
    by_cases hlooping : st.background .registry = .looping
    · exact nearer_loop h hend hdown hlooping
    · have hnext : ∃ background, st.goOn =
          some { st with background := background, main := .destructing } ∧
            loopsRank background = loopsRank st.background := by
        rw [goOn, hat]
        cases hstate : st.background .registry with
        | looping => exact absurd hstate hlooping
        | unstarted | joined => exact ⟨st.background, by simp [join, hstate], rfl⟩
        | ended =>
          refine ⟨Function.update st.background .registry .joined, by simp [join, hstate], ?_⟩
          have hloops := @loopsRank_update st.background .registry .joined
          rw [hstate] at hloops
          exact hloops
      obtain ⟨background, hnext, hloops⟩ := hnext
      refine nearer_goOn h hend hnext (by simp) ?_
      simp only [mainRank, hat, hloops]
      omega
  | destructing => exact nearer_destructing hn h hend hat
  | gone => exact absurd hat hmain
  | terminated => exact absurd hat hend.main

/-- As long as nobody else calls `Stop`, nobody does. -/
theorem stays_up (hn : 0 < n) {actions : List LifecycleAction}
    (hrun : run lifecycleNext (start n) actions = some st) :
    Sound n st ∧ (.callStop ∉ actions →
      st.running = true ∧ st.stops = [] ∧ ¬ st.main.Returned) := by
  refine run_history (I := fun actions st => Sound n st ∧ (.callStop ∉ actions →
    st.running = true ∧ st.stops = [] ∧ ¬ st.main.Returned))
    ⟨sound_start n, fun _ => ⟨rfl, rfl, id⟩⟩ ?_ hrun
  rintro actions st action st' - ⟨h, hup⟩ hnext
  have h' := sound_next hn h hnext
  refine ⟨h', fun hcalls => ?_⟩
  rw [List.mem_append, List.mem_singleton, not_or] at hcalls
  obtain ⟨hrunning, hstops, hmain⟩ := hup hcalls.1
  cases action with
  | goOn =>
    obtain ⟨hrunning', hposted, -, hstops'⟩ := goOn_keeps hnext
    have hmain' : ¬ st'.main.Returned := by
      intro hreturned
      have hjoined : st'.main.joined n = n := by
        cases hat : st'.main <;> simp_all [MainThread.Returned, MainThread.joined]
      have hdown := h'.down_of_joined hn hjoined
      rw [hrunning', hrunning] at hdown
      exact absurd hdown (by simp)
    rcases hstops' with hstops' | ⟨-, hreturned⟩
    · exact ⟨hrunning'.trans hrunning, hstops'.trans hstops, hmain'⟩
    · exact absurd hreturned hmain'
  | stop k =>
    change st.stop k = some st' at hnext
    rw [stop, hstops] at hnext
    exact absurd hnext (by simp)
  | worker k =>
    obtain ⟨workers, port, rfl⟩ := worker_keeps hnext
    exact ⟨hrunning, hstops, hmain⟩
  | loop thread =>
    obtain ⟨background, rfl⟩ := loop_keeps hnext
    exact ⟨hrunning, hstops, hmain⟩
  | complete =>
    obtain rfl := Option.some.inj hnext
    exact ⟨hrunning, hstops, hmain⟩
  | callStop => exact absurd rfl hcalls.2

end Lifecycle

open Lifecycle

/-- **When the server stops.** As long as no other thread calls `Stop`, the flag stays up, no worker
leaves its loop and `Start` does not return. When `Start` has returned, there are as many workers as
it was to start, each has left its loop, a null packet was posted for each and none is in the port,
and the flag is down, so that the `Stop` of the destructor does nothing. And the server can come to
its end exactly when no call of `Stop` was through with its posts before there were that many
workers, each of the tick, the heartbeat and the stats thread is joined or still to be joined once
the flag is down, and no thread was joinable when its member was destroyed. -/
theorem start_returns_iff {hardwareConcurrency workerThreadMultiplier : Int}
    {actions : List LifecycleAction} {st : Lifecycle}
    (hrun : run lifecycleNext (start (threadCount hardwareConcurrency workerThreadMultiplier))
      actions = some st) :
    (.callStop ∉ actions →
      st.running = true ∧ (∀ exited ∈ st.workers, exited = false) ∧ ¬ st.main.Returned) ∧
    (st.main.Returned → st.running = false ∧
      st.workers.length = threadCount hardwareConcurrency workerThreadMultiplier ∧
      (∀ exited ∈ st.workers, exited = true) ∧ st.posted = st.workers.length ∧
      .null ∉ st.port) ∧
    ((∃ more st', run lifecycleNext st more = some st' ∧ st'.main = .gone) ↔
      ¬ Cut (threadCount hardwareConcurrency workerThreadMultiplier) st ∧ ¬ Strayed st ∧
        st.main ≠ .terminated) := by
  have hn := threadCount_pos hardwareConcurrency workerThreadMultiplier
  generalize threadCount hardwareConcurrency workerThreadMultiplier = n at hrun hn
  obtain ⟨h, hup⟩ := stays_up hn hrun
  have hjoined : ∀ {main : MainThread}, main.Returned → main.joined n = n := by
    intro main hreturned
    cases main <;> first | rfl | exact hreturned.elim
  refine ⟨fun hcalls => ?_, fun hreturned => ?_, ?_, ?_⟩
  · obtain ⟨hrunning, -, hmain⟩ := hup hcalls
    refine ⟨hrunning, fun exited hmem => ?_, hmain⟩
    have hnone : st.workers.count true = 0 := by
      have hconserved := h.conserved
      have hposted := (h.fresh hrunning).1
      omega
    rw [List.count_eq_zero] at hnone
    cases exited with
    | false => rfl
    | true => exact absurd hmem hnone
  · obtain ⟨hall, hposted, hport⟩ := h.all_left (hjoined hreturned)
    have hlength : st.workers.length = n := by
      have hspawned := h.spawned
      have hto : st.main.toSpawn = 0 := by
        cases hat : st.main <;> simp_all [MainThread.Returned, MainThread.toSpawn]
      omega
    exact ⟨h.down_of_joined hn (hjoined hreturned), hlength, hall, by omega,
      List.count_eq_zero.mp hport⟩
  · rintro ⟨more, st', hmore, hgone⟩
    -- what stands in the way stays, and the end has nothing of it
    have hstays : ∀ {P : Lifecycle → Prop},
        (∀ s a t, Sound n s → P s → lifecycleNext s a = some t → P t) → P st →
          Sound n st' ∧ P st' := fun {P} hstep hP =>
      run_preserves (I := fun st => Sound n st ∧ P st)
        (fun s a t hs hnext => ⟨sound_next hn hs.1 hnext, hstep s a t hs.1 hs.2 hnext⟩) ⟨h, hP⟩
        hmore
    refine ⟨fun hcut => ?_, fun hs => ?_, fun hmain => ?_⟩
    · obtain ⟨h', hcut'⟩ := hstays (P := Cut n) (fun _ _ _ _ => cut_next) hcut
      have hposted := (h'.all_left (by rw [hgone]; rfl)).2.1
      have hless := hcut'.2.1
      omega
    · obtain ⟨h', -, thread, -, hnot⟩ := hstays (fun _ _ _ => strayed_next) hs
      have hover := h'.atEnd hgone thread
      cases hstate : st'.background thread with
      | unstarted =>
        have hlaunched := (h'.launched thread).mp hstate
        rw [hgone] at hlaunched
        exact absurd hlaunched List.not_mem_nil
      | joined => exact hnot (Or.inl hstate)
      | looping | ended =>
        rw [hstate] at hover
        exact absurd hover (by simp [LoopState.joinable])
    · obtain ⟨-, hmain'⟩ := hstays (P := fun st => st.main = .terminated)
        (fun _ _ _ _ => terminated_next) hmain
      exact absurd (hgone.symm.trans hmain') (by simp)
  · rintro ⟨hcut, hstrayed, hmain⟩
    obtain ⟨more, st', -, hmore, -, hgone⟩ :
        ∃ more st', (∀ action ∈ more, True) ∧ run lifecycleNext st more = some st' ∧
          (Sound n st' ∧ CanEnd n st') ∧ st'.main = .gone :=
      run_reaches (rank n) (fun st hs hgoal => by
        obtain ⟨action, st', hstep⟩ := nearer hn hs.1 hs.2 hgoal
        exact ⟨action, st', trivial, hstep⟩) ⟨h, hcut, hstrayed, hmain⟩
    exact ⟨more, st', hmore, hgone⟩

/-- Two workers to start: neither a `Stop` that comes when there is one, nor a `Stop` that comes
behind the second and is through before the tick thread is started, ever lets the server end. -/
theorem start_returns_iff_stopsEarly :
    (∃ st, run lifecycleNext (start (threadCount 1 2))
      [.goOn, .callStop, .stop 0, .stop 0, .stop 0] = some st ∧
        ¬ ∃ more st', run lifecycleNext st more = some st' ∧ st'.main = .gone) ∧
    ∃ st, run lifecycleNext (start (threadCount 1 2))
      [.goOn, .goOn, .callStop, .stop 0, .stop 0, .stop 0, .stop 0, .stop 0] = some st ∧
        ¬ ∃ more st', run lifecycleNext st more = some st' ∧ st'.main = .gone := by
  have hcut : ∃ st, run lifecycleNext (start (threadCount 1 2))
      [.goOn, .callStop, .stop 0, .stop 0, .stop 0] = some st ∧ Cut (threadCount 1 2) st := by
    decide +kernel
  have hstrayed : ∃ st, run lifecycleNext (start (threadCount 1 2))
      [.goOn, .goOn, .callStop, .stop 0, .stop 0, .stop 0, .stop 0, .stop 0] = some st ∧
        Strayed st := by
    decide +kernel
  obtain ⟨st, hrun, hcut⟩ := hcut
  obtain ⟨st', hrun', hstrayed⟩ := hstrayed
  exact ⟨⟨st, hrun, fun hends => ((start_returns_iff hrun).2.2.mp hends).1 hcut⟩,
    st', hrun', fun hends => ((start_returns_iff hrun').2.2.mp hends).2.1 hstrayed⟩

end RealtimeServer
