import RealtimeServer.Core.Chats

/-!
# The answers that come

What a session is still owed (`Core/Requests.lean`) is in the hands of the auth service and of the
rooms. Wherever a run of the server has led, callbacks and jobs lead on to a state in which nothing
is queued and nothing pending. A room that `RemoveIdleRooms` took out of the map is not ticked any
more, though, and its jobs stay where they are.

* `Server.toDo`: the callbacks and jobs that are left. `serves`: one of them can always be done.
* **`answers_come`**: a connected session can get all answers it is owed, with nobody sending
  anything, if no leave of it is in a room out of the map; and if one is, it never gets them all,
  whatever happens.
-/

namespace RealtimeServer

open Unordered Guarded

/-- What the server does with nobody sending it anything. -/
def Action.Serves : Action → Prop
  | .authCallback .. | .job _ => True
  | .accept _ | .packet .. | .disconnect _ | .tickEnd _ | .removeIdleRooms => False

/-- The jobs in all queues. -/
def RoomManager.queuedTotal (m : RoomManager) : Nat :=
  (m.heap.map fun room => room.jobQueue.length).sum

/-- The callbacks and jobs that are left. -/
def Server.toDo (srv : Server) : Nat := srv.auth.length + srv.rooms.queuedTotal

/-- No leave of the session is in a room out of the map. -/
def LeavesLive (srv : Server) (s : SessionRef) : Prop :=
  ∀ r, .leaveAndAck s ∈ (srv.room r).jobQueue → srv.rooms.Live r

section

variable {cfg : Config} {env : Env} {srv srv' : Server} {a : Action} {r : RoomRef}
  {s : SessionRef}

/-! ## Rooms out of the map -/

theorem live_of_getOrCreate_old {m : RoomManager} {maxRoomPlayers : Int} {name : Bytes}
    (h : (m.getOrCreate maxRoomPlayers name).2.Live r) : m.Live r ∨ m.heap.length ≤ r := by
  unfold RoomManager.getOrCreate at h
  cases hname : m.rooms.lookup name with
  | some _ =>
    rw [hname] at h
    exact Or.inl h
  | none =>
    rw [hname] at h
    obtain ⟨key, hkey⟩ := Map.mem_values.mp h
    rcases Map.lookup_insert_iff.mp hkey with ⟨-, rfl⟩ | ⟨-, hkey⟩
    · exact Or.inr (le_refl _)
    · exact Or.inl (Map.mem_values.mpr ⟨key, hkey⟩)

theorem calls_live_old (h : HandlerCalls cfg env s srv srv') (hlive : srv'.rooms.Live r) :
    srv.rooms.Live r ∨ srv.rooms.heap.length ≤ r := by
  induction h with
  | refl srv => exact Or.inl hlive
  | trans h h' ih ih' =>
    rcases ih' hlive with hlive | hle
    · exact ih hlive
    · exact Or.inr (h.handled.rooms.grows.trans hle)
  | send srv answers => exact Or.inl hlive
  | sendRaw srv answers => exact Or.inl hlive
  | pushJob srv own => exact Or.inl hlive
  | getOrCreate srv name => exact live_of_getOrCreate_old hlive
  | validateAsync srv token => exact Or.inl hlive

/-- A room that comes into the map is a new one. -/
theorem next_live_old (h : next cfg srv (a, env) = some srv') (hlive : srv'.rooms.Live r) :
    srv.rooms.Live r ∨ srv.rooms.heap.length ≤ r := by
  obtain ⟨srv₁, hacts, rfl⟩ := next_acts h
  change srv₁.rooms.Live r at hlive
  cases hacts with
  | accept token =>
    unfold Server.handleAccept at hlive
    cases token <;> exact Or.inl hlive
  | packet packet accepted => exact calls_live_old (calls_packet cfg packet srv) hlive
  | authCallback valid accountId pending =>
    unfold Server.loginCallback at hlive
    cases valid with
    | false => exact Or.inl hlive
    | true =>
      simp only [if_true] at hlive
      split at hlive
      · exact Or.inl hlive
      · exact Or.inl hlive
  | disconnect accepted =>
    unfold Server.handleDisconnect at hlive
    split at hlive
    · exact Or.inl hlive
    · simp only at hlive
      split at hlive
      · exact Or.inl hlive
      · exact Or.inl hlive
  | job queue => exact Or.inl hlive
  | tickEnd => exact Or.inl hlive
  | removeIdleRooms => exact Or.inl (RoomManager.live_removeIdleRooms.mp hlive).1

/-- A room out of the map keeps its jobs. -/
theorem ran_of_dead (h : next cfg srv (a, env) = some srv') (hdead : ¬ srv.rooms.Live r) :
    srv.ran a r = [] := by
  unfold Server.ran
  cases hjob : srv.running a r with
  | none => rfl
  | some job =>
    obtain rfl := action_of_running hjob
    unfold next at h
    simp [act, hdead] at h

/-- **What stays behind**: a job in a room out of the map is there for good. -/
theorem stranded_next {job : Job} (hi : RoomsCreated srv)
    (hjob : job ∈ (srv.room r).jobQueue ∧ ¬ srv.rooms.Live r)
    (h : next cfg srv (a, env) = some srv') :
    job ∈ (srv'.room r).jobQueue ∧ ¬ srv'.rooms.Live r := by
  have hqueue : srv.ran a r ++ _ = _ := queue_next hi h
  rw [ran_of_dead h hjob.2, List.nil_append] at hqueue
  refine ⟨hqueue ▸ List.mem_append_left _ hjob.1, fun hlive => ?_⟩
  rcases next_live_old h hlive with hold | hnew
  · exact hjob.2 hold
  · exact absurd (RoomManager.lt_of_queued hjob.1) (not_lt.mpr hnew)

/-! ## Serving -/

/-- What is kept while the server serves with nobody sending. -/
structure Serving (s : SessionRef) (srv : Server) : Prop where
  created : RoomsCreated srv
  up : ¬ srv.Down s
  live : LeavesLive srv s

theorem serving_next {now : Int} (hi : Serving s srv) (hserves : a.Serves)
    (hpushed : ∀ r, srv.pushed cfg (.quiet now) r a = [])
    (h : next cfg srv (a, .quiet now) = some srv') : Serving s srv' where
  created := roomsCreated_next hi.created h
  up hdown := by
    have heffect := sessionEffect_next (s := s) h fun token ha => by
      subst ha
      exact hserves.elim
    rcases heffect.failed hdown with hdown | hfails | hdisconnects
    · exact hi.up hdown
    · exact absurd hfails (by simp [Env.SendFails, Env.quiet])
    · subst hdisconnects
      exact hserves
  live r hjob := by
    have hqueue : srv.ran a r ++ _ = _ := queue_next hi.created h
    rw [hpushed, List.append_nil] at hqueue
    refine live_next h (hi.live r (hqueue ▸ List.mem_append_right _ hjob)) fun ha => ?_
    subst ha
    exact hserves.elim

theorem queuedTotal_modify {m : RoomManager} {f : GameRoom → GameRoom}
    (hr : r < m.heap.length) :
    (m.modify r f).queuedTotal + (m.room r).jobQueue.length =
      m.queuedTotal + (f (m.room r)).jobQueue.length := by
  have hsum := sum_map_modify m.heap r f fun room => room.jobQueue.length
  have hroom : m.heap[r]? = some (m.room r) := by
    unfold RoomManager.room
    rw [List.getD_eq_getElem?_getD, List.getElem?_eq_getElem hr, Option.getD_some]
  rw [hroom] at hsum
  exact hsum

/-- **There is always one to be done**: short of a state with nothing queued and nothing pending,
some callback or some job lowers what is left. -/
theorem serves (hi : Serving s srv) (hleft : ¬ Quiescent srv) :
    ∃ step srv', step.1.Serves ∧ next cfg srv step = some srv' ∧ Serving s srv' ∧
      srv'.toDo < srv.toDo := by
  cases hauth : srv.auth with
  | cons pending rest =>
    -- the validation has failed
    have hnext : next cfg srv (.authCallback 0 false [], .quiet srv.clock) =
        some { ({ srv with auth := rest }.loginCallback (.quiet srv.clock) pending.1 false [])
          with clock := srv.clock } := by
      simp [next, act, Env.quiet, hauth]
    have hserves : (Action.authCallback 0 false []).Serves := trivial
    refine ⟨_, _, hserves, hnext, serving_next hi hserves (fun _ => rfl) hnext, ?_⟩
    change rest.length + srv.rooms.queuedTotal < srv.auth.length + srv.rooms.queuedTotal
    rw [hauth, List.length_cons]
    omega
  | nil =>
    obtain ⟨r, hlive, hqueue⟩ : ∃ r, srv.rooms.Live r ∧ (srv.room r).jobQueue ≠ [] := by
      by_contra hnone
      refine hleft ⟨fun r hlive => ?_, hauth⟩
      by_contra hqueue
      exact hnone ⟨r, hlive, hqueue⟩
    obtain ⟨job, jobs, hjob⟩ := List.exists_cons_of_ne_nil hqueue
    have hnext : next cfg srv (.job r, .quiet srv.clock) =
        some { srv.runJob (.quiet srv.clock) r job jobs with clock := srv.clock } := by
      have hact : act cfg (.quiet srv.clock) srv (.job r) =
          some (srv.runJob (.quiet srv.clock) r job jobs) := by
        rw [act, if_pos hlive, hjob]
      unfold next
      rw [hact]
      exact if_neg (lt_irrefl _)
    have hserves : (Action.job r).Serves := trivial
    refine ⟨_, _, hserves, hnext, serving_next hi hserves (fun _ => rfl) hnext, ?_⟩
    have hmodify : (srv.runJob (.quiet srv.clock) r job jobs).rooms.queuedTotal + _ = _ :=
      queuedTotal_modify (RoomManager.lt_of_head hjob)
    rw [Job.jobQueue_run, hjob] at hmodify
    change _ + (jobs.length + 1) = _ + jobs.length at hmodify
    change srv.auth.length + (srv.runJob _ r job jobs).rooms.queuedTotal < srv.auth.length + _
    omega

theorem roomsCreated_of_run {steps : List (Action × Env)}
    (hrun : run (next cfg) .empty steps = some srv) : RoomsCreated srv :=
  run_preserves (I := RoomsCreated) (fun _ _ _ hi h => roomsCreated_next hi h) roomsCreated_empty
    hrun

/-- Nothing is owed where nothing is queued and nothing pending. -/
theorem owed_quiescent (hlive : LeavesLive srv s) (hq : Quiescent srv) (request : Request) :
    srv.owed s request = 0 := by
  cases request with
  | login =>
    change srv.auth.countP _ = 0
    rw [hq.2, List.countP_nil]
  | ping => rfl
  | leave =>
    refine queuedJobs_eq_zero.mpr fun r hqueued => ?_
    rw [show (srv.rooms.room r).jobQueue = [] from hq.1 r (hlive r hqueued)] at hqueued
    exact absurd hqueued List.not_mem_nil

/-- **The answers come.** In any state a run of the server has led to, take a session that is
connected. If no leave of it is queued in a room out of the map, callbacks and jobs lead on to a
state where nothing is queued and nothing pending, the session is still connected, and it has been
sent one answer for each request it made. If one is, then however the run goes on, while the
session is connected it has been sent fewer leaves than it asked for. -/
theorem answers_come {steps : List (Action × Env)}
    (hrun : run (next cfg) .empty steps = some srv) (hup : ¬ srv.Down s) :
    (LeavesLive srv s → ∃ more srv', (∀ step ∈ more, step.1.Serves) ∧
      run (next cfg) srv more = some srv' ∧ Quiescent srv' ∧ ¬ srv'.Down s ∧
      ∀ request : Request, srv'.world.countTo s request.answer = asked s request steps) ∧
    (¬ LeavesLive srv s → ∀ more srv', run (next cfg) srv more = some srv' → ¬ srv'.Down s →
      srv'.world.countTo s Request.leave.answer < asked s .leave (steps ++ more)) := by
  have hcreated := roomsCreated_of_run hrun
  have hreached : ∀ {more srv'}, run (next cfg) srv more = some srv' →
      run (next cfg) .empty (steps ++ more) = some srv' := fun hmore => by
    rw [run_append, hrun]
    exact hmore
  constructor
  · intro hlive
    obtain ⟨more, srv', hserves, hmore, hserving, hquiet⟩ :
        ∃ more srv', (∀ step ∈ more, step.1.Serves) ∧ run (next cfg) srv more = some srv' ∧
          Serving s srv' ∧ Quiescent srv' :=
      run_reaches Server.toDo (fun srv hi hleft => serves hi hleft) ⟨hcreated, hup, hlive⟩
    refine ⟨more, srv', hserves, hmore, hquiet, hserving.up, fun request => ?_⟩
    have hasked : asked s request (steps ++ more) = asked s request steps := by
      unfold asked
      rw [List.countP_append, Nat.add_eq_left, List.countP_eq_zero]
      rintro ⟨a, env⟩ hstep
      rw [decide_eq_true_eq]
      have ha := hserves _ hstep
      cases a with
      | packet t packet => exact ha.elim
      | _ => exact id
    have hdue := due_of_run (hreached hmore) hserving.up request
    unfold Server.due at hdue
    rwa [owed_quiescent hserving.live hquiet, Nat.add_zero, hasked] at hdue
  · intro hdead more srv' hmore hup'
    unfold LeavesLive at hdead
    push Not at hdead
    obtain ⟨r, hstranded⟩ := hdead
    have hend : RoomsCreated srv' ∧ .leaveAndAck s ∈ (srv'.room r).jobQueue ∧
        ¬ srv'.rooms.Live r :=
      run_preserves (I := fun srv => RoomsCreated srv ∧ .leaveAndAck s ∈ (srv.room r).jobQueue ∧
          ¬ srv.rooms.Live r)
        (fun _ _ _ hi h => ⟨roomsCreated_next hi.1 h, stranded_next hi.1 hi.2 h⟩)
        ⟨hcreated, hstranded⟩ hmore
    have hdue : _ = asked s .leave (steps ++ more) := due_of_run (hreached hmore) hup' .leave
    have howed : 0 < srv'.owed s .leave := by
      refine Nat.pos_of_ne_zero fun hnone => ?_
      exact queuedJobs_eq_zero.mp hnone r hend.2.1
    unfold Server.due at hdue
    omega

/-- A session leaves its room twice; the room is idle behind the first leave, and taken out of the
map before the tick comes to the second. -/
def leftBehind : List (Action × Env) :=
  quietly (lobby 1 ++ [.packet 0 .roomLeave, .packet 0 .roomLeave, .job 0]) ++
    [(.removeIdleRooms, .quiet 62000)]

theorem answers_come_leftBehind :
    ∃ srv, run (next ⟨16, 30000, 60000⟩) .empty leftBehind = some srv ∧
      ∀ more srv', run (next ⟨16, 30000, 60000⟩) srv more = some srv' → ¬ srv'.Down 0 →
        srv'.world.countTo 0 .sRoomLeave < asked 0 .leave (leftBehind ++ more) := by
  obtain ⟨srv, hrun, hup, hjob, hdead⟩ :
      ∃ srv, run (next ⟨16, 30000, 60000⟩) .empty leftBehind = some srv ∧ ¬ srv.Down 0 ∧
        .leaveAndAck 0 ∈ (srv.room 0).jobQueue ∧ ¬ srv.rooms.Live 0 := by decide +kernel
  exact ⟨srv, hrun, (answers_come hrun hup).2 fun hlive => hdead (hlive 0 hjob)⟩

end

end RealtimeServer
