import RealtimeServer.Core.Server
import RealtimeServer.Game.Jobs

/-!
# What one step of the server can do

The transition function read once, so that no invariant has to unfold it.

* `calls_packet`: the calls of a packet handler. `handled_packet`: it queues jobs on behalf of its
  session, and sends.
* **`rooms_next`**: what a step does to one room: nothing but queueing, or one job, or a sweep.
  `created_next`: the rooms it creates.
* `next_acts`: the steps by cases, each with the state it leads to.
* `members_next`, `waiting_next`, `queued_next`: members and queues.
* **`sessions_next`**: what a step does to one session: its account, its pointer, its flag.
* `born_next`: rooms, jobs and callbacks name accepted sessions only; `run_born` gives this to the
  invariants of the modules over this one.
-/

namespace RealtimeServer

open Unordered Guarded

/-! ## Packet handlers -/

/-- The job can be queued by a packet of `s`. -/
def Job.FromPacket (s : SessionRef) : Job → Prop
  | handleEnter t | handleLeave t | leaveAndAck t => t = s
  | handleRejoin _ => False
  | chat .. | handleMove .. | handleReady .. => True

/-- The packets a handler answers its session with. -/
def PacketID.Answers : PacketID → Prop
  | sLogin | sRoomEnter | sRoomLeave | sPong | sRoomList => True
  | _ => False

/-- From `srv` to `srv'` a packet handler of `s` makes its calls, one behind the other. -/
inductive HandlerCalls (cfg : Config) (env : Env) (s : SessionRef) : Server → Server → Prop
  | refl (srv : Server) : HandlerCalls cfg env s srv srv
  | trans {srv srv' srv'' : Server} (h : HandlerCalls cfg env s srv srv')
      (h' : HandlerCalls cfg env s srv' srv'') : HandlerCalls cfg env s srv srv''
  | send (srv : Server) {message : ServerMessage} (answers : message.packetId.Answers) :
      HandlerCalls cfg env s srv (srv.send env s message)
  | sendRaw (srv : Server) {packetId : PacketID} {data : Bytes} (answers : packetId.Answers) :
      HandlerCalls cfg env s srv { srv with world := srv.world.sendRaw env s packetId data }
  | pushJob (srv : Server) {r : RoomRef} {job : Job} (own : job.FromPacket s) :
      HandlerCalls cfg env s srv (srv.pushJob r job)
  | getOrCreate (srv : Server) (name : Bytes) : HandlerCalls cfg env s srv
      { srv with rooms := (srv.rooms.getOrCreate cfg.maxRoomPlayers name).2 }
  | validateAsync (srv : Server) (token : Bytes) :
      HandlerCalls cfg env s srv { srv with auth := srv.auth ++ [(s, token)] }

/-- From `srv` to `srv'` jobs were queued on behalf of `s`, packets sent, and tokens of `s` handed
to the auth service. -/
structure Handled (cfg : Config) (env : Env) (s : SessionRef) (srv srv' : Server) : Prop where
  rooms : Queued cfg.maxRoomPlayers srv.rooms srv'.rooms fun _ job => job.FromPacket s
  world : Sent env srv.world srv'.world
  nextSession : srv'.nextSession = srv.nextSession
  auth : ∀ e ∈ srv'.auth, e ∈ srv.auth ∨ e.1 = s

section

variable {cfg : Config} {env : Env} {s : SessionRef} {srv srv' srv'' : Server}

theorem Handled.refl (env : Env) (s : SessionRef) (srv : Server) : Handled cfg env s srv srv :=
  ⟨.refl _ _, .refl _ _, rfl, fun _ h => Or.inl h⟩

theorem Handled.trans (h : Handled cfg env s srv srv') (h' : Handled cfg env s srv' srv'') :
    Handled cfg env s srv srv'' where
  rooms := h.rooms.trans h'.rooms
  world := h.world.trans h'.world
  nextSession := h'.nextSession.trans h.nextSession
  auth e he := (h'.auth e he).elim (h.auth e) Or.inr

/-- Every call queues jobs on behalf of its session, or sends, or hands a token over. -/
theorem HandlerCalls.handled (h : HandlerCalls cfg env s srv srv') :
    Handled cfg env s srv srv' := by
  induction h with
  | refl srv => exact .refl env s srv
  | trans h h' ih ih' => exact ih.trans ih'
  | @send srv message answers =>
    exact ⟨.refl _ _, .send env s message _, rfl, fun _ he => Or.inl he⟩
  | @sendRaw srv packetId data answers =>
    exact ⟨.refl _ _, .sendRaw env s packetId data _, rfl, fun _ he => Or.inl he⟩
  | pushJob srv own => exact ⟨.pushJob _ own, .refl _ _, rfl, fun _ he => Or.inl he⟩
  | getOrCreate srv name => exact ⟨.getOrCreate _ _ _, .refl _ _, rfl, fun _ he => Or.inl he⟩
  | validateAsync srv token =>
    refine ⟨.refl _ _, .refl _ _, rfl, fun e he => ?_⟩
    rcases List.mem_append.mp he with he | he
    · exact Or.inl he
    · exact Or.inr (List.mem_singleton.mp he ▸ rfl)

theorem calls_cLogin (password : Option Bytes) (srv : Server) :
    HandlerCalls cfg env s srv (srv.handleCLogin env s password) := by
  unfold Server.handleCLogin
  split
  · exact .refl srv
  · split
    · exact .send srv trivial
    · exact .validateAsync srv _

theorem calls_cRoomEnter (cfg : Config) (roomName : Option Bytes) (srv : Server) :
    HandlerCalls cfg env s srv (srv.handleCRoomEnter env s cfg roomName) := by
  unfold Server.handleCRoomEnter
  split
  · exact .refl srv
  · rename_i roomName
    split
    · exact .send srv trivial
    · -- the leave in the previous room, if there is one, then the enter
      refine .trans ?_ (.trans (.getOrCreate _ roomName) (.pushJob _ rfl))
      split
      · exact .pushJob srv rfl
      · exact .refl srv

theorem calls_cChat (message : Option Bytes) (srv : Server) :
    HandlerCalls cfg env s srv (srv.handleCChat s message) := by
  unfold Server.handleCChat
  split
  · exact .pushJob srv trivial
  · exact .refl srv

theorem calls_cRoomLeave (srv : Server) :
    HandlerCalls cfg env s srv (srv.handleCRoomLeave env s) := by
  unfold Server.handleCRoomLeave
  split
  · exact .send srv trivial
  · exact .pushJob srv rfl

theorem calls_cMove (position : Option (UInt32 × UInt32)) (srv : Server) :
    HandlerCalls cfg env s srv (srv.handleCMove s position) := by
  unfold Server.handleCMove
  split
  · exact .pushJob srv trivial
  · exact .refl srv

theorem calls_cPing (payload : Bytes) (srv : Server) :
    HandlerCalls cfg env s srv (srv.handleCPing env s payload) := by
  unfold Server.handleCPing
  split
  · exact .refl srv
  · exact .sendRaw srv trivial

theorem calls_cReady (srv : Server) : HandlerCalls cfg env s srv (srv.handleCReady s) := by
  unfold Server.handleCReady
  split
  · exact .refl srv
  · split
    · exact .refl srv
    · exact .pushJob srv trivial

theorem calls_packet (cfg : Config) (packet : ClientPacket) (srv : Server) :
    HandlerCalls cfg env s srv (srv.handlePacket env s cfg packet) := by
  cases packet with
  | login password => exact calls_cLogin password srv
  | chat message => exact calls_cChat message srv
  | roomEnter roomName => exact calls_cRoomEnter cfg roomName srv
  | roomLeave => exact calls_cRoomLeave srv
  | move position => exact calls_cMove position srv
  | ping payload => exact calls_cPing payload srv
  | roomList => exact .sendRaw srv trivial
  | ready => exact calls_cReady srv

/-- **A packet handler** queues jobs on behalf of its session, and sends. -/
theorem handled_packet (cfg : Config) (packet : ClientPacket) (srv : Server) :
    Handled cfg env s srv (srv.handlePacket env s cfg packet) :=
  (calls_packet cfg packet srv).handled

end

/-! ## Which job a step runs -/

namespace Server

/-- The job of `r` the action runs, if any. -/
def running (srv : Server) (a : Action) (r : RoomRef) : Option Job :=
  match a with
  | .job r' => if r' = r then (srv.room r).jobQueue.head? else none
  | _ => none

/-- The jobs of `r` queued before the action and not run by it. -/
def waiting (srv : Server) (a : Action) (r : RoomRef) : List Job :=
  match a with
  | .job r' => if r' = r then (srv.room r).jobQueue.tail else (srv.room r).jobQueue
  | _ => (srv.room r).jobQueue

/-- The step takes `s` into `r`. -/
def TakesIn (srv : Server) (a : Action) (r : RoomRef) (s : SessionRef) : Prop :=
  ∃ job ∈ srv.running a r, job.TakesIn (srv.room r) s

/-- The step runs a leave of `s` in `r`. -/
def Leaving (srv : Server) (a : Action) (r : RoomRef) (s : SessionRef) : Prop :=
  ∃ job ∈ srv.running a r, job.Leaves s

/-- `s` is in `r` after the step. -/
def Holds (srv : Server) (a : Action) (r : RoomRef) (s : SessionRef) : Prop :=
  srv.TakesIn a r s ∨ (s ∈ (srv.room r).members ∧ ¬ srv.Leaving a r s)

/-- A leave of `s` is queued in `r`. -/
def LeaveQueued (srv : Server) (r : RoomRef) (s : SessionRef) : Prop :=
  ∃ job ∈ (srv.room r).jobQueue, job.Leaves s

/-- A leave of `s` is queued in `r`, and the step does not run it. -/
def LeaveBehind (srv : Server) (a : Action) (r : RoomRef) (s : SessionRef) : Prop :=
  ∃ job ∈ srv.waiting a r, job.Leaves s

/-- The session whose login the step completes, with the account it gets. -/
def loggingIn (srv : Server) (a : Action) : Option (SessionRef × Bytes) :=
  match a with
  | .authCallback i true accountId => (srv.auth[i]?).map fun e => (e.1, accountId)
  | _ => none

/-- The account of `s` after the step. -/
def accountAfter (srv : Server) (a : Action) (s : SessionRef) : Bytes :=
  match srv.loggingIn a with
  | some (t, accountId) => if s = t then accountId else srv.account s
  | none => srv.account s

instance (srv : Server) (a : Action) (r : RoomRef) (s : SessionRef) :
    Decidable (srv.TakesIn a r s) :=
  match h : srv.running a r with
  | none => isFalse fun ⟨job, hjob, _⟩ => by rw [h] at hjob; exact absurd hjob (by simp)
  | some job => decidable_of_iff (job.TakesIn (srv.room r) s) (by simp [TakesIn, h])

instance (srv : Server) (a : Action) (r : RoomRef) (s : SessionRef) :
    Decidable (srv.Leaving a r s) :=
  match h : srv.running a r with
  | none => isFalse fun ⟨job, hjob, _⟩ => by rw [h] at hjob; exact absurd hjob (by simp)
  | some job => decidable_of_iff (job.Leaves s) (by simp [Leaving, h])

instance (srv : Server) (a : Action) (r : RoomRef) (s : SessionRef) :
    Decidable (srv.Holds a r s) := by
  unfold Holds; infer_instance

instance (srv : Server) (r : RoomRef) (s : SessionRef) : Decidable (srv.LeaveQueued r s) := by
  unfold LeaveQueued; infer_instance

instance (srv : Server) (a : Action) (r : RoomRef) (s : SessionRef) :
    Decidable (srv.LeaveBehind a r s) := by
  unfold LeaveBehind; infer_instance

end Server

/-- The step queues `job` in `r`. -/
inductive Queues (srv : Server) (a : Action) (env : Env) (r : RoomRef) (job : Job) : Prop
  | packet (s : SessionRef) (packet : ClientPacket) (action : a = .packet s packet)
      (job : job.FromPacket s)
  | callback (i : Nat) (accountId token : Bytes) (s : SessionRef)
      (action : a = .authCallback i true accountId) (pending : srv.auth[i]? = some (s, token))
      (job : job = .handleRejoin s) (found : srv.rooms.findReconnect env accountId = some r)
  | disconnect (s : SessionRef) (action : a = .disconnect s) (job : job = .handleLeave s)
      (room : srv.roomOf s = some r)

/-- What a step does to the room at `r`. -/
inductive RoomEffect (cfg : Config) (srv : Server) (a : Action) (env : Env) (r : RoomRef)
    (room' : GameRoom) : Prop
  /-- Jobs are queued in it, perhaps none. -/
  | queued (inside : room'.inside = (srv.room r).inside)
      (kept : r < srv.rooms.heap.length → room'.withoutQueue = (srv.room r).withoutQueue)
      (queue : ∃ jobs, room'.jobQueue = (srv.room r).jobQueue ++ jobs ∧
        ∀ job ∈ jobs, Queues srv a env r job)
      (idle : srv.running a r = none) (waiting : srv.waiting a r = (srv.room r).jobQueue)
  /-- Its first job runs. -/
  | ran (job : Job) (jobs : List Job) (action : a = .job r)
      (queue : (srv.room r).jobQueue = job :: jobs)
      (room : room' = (job.run env r { srv.room r with jobQueue := jobs } srv.world).1)
  /-- It is swept. -/
  | swept (action : a = .tickEnd r) (room : room' = (srv.room r).swept env cfg.reconnectWindowMs)

section

variable {cfg : Config} {srv srv' : Server} {a : Action} {env : Env} {r : RoomRef} {s : SessionRef}

/-- What an action does, where it is enabled. -/
inductive Acts (cfg : Config) (env : Env) (srv : Server) : Action → Server → Prop
  | accept (token : Bool) : Acts cfg env srv (.accept token) (srv.handleAccept token)
  | packet {s : SessionRef} (packet : ClientPacket) (accepted : s < srv.nextSession) :
      Acts cfg env srv (.packet s packet) (srv.handlePacket env s cfg packet)
  | authCallback {i : Nat} {s : SessionRef} {token : Bytes} (valid : Bool) (accountId : Bytes)
      (pending : srv.auth[i]? = some (s, token)) :
      Acts cfg env srv (.authCallback i valid accountId)
        ({ srv with auth := srv.auth.eraseIdx i }.loginCallback env s valid accountId)
  | disconnect {s : SessionRef} (accepted : s < srv.nextSession) :
      Acts cfg env srv (.disconnect s) (srv.handleDisconnect s)
  | job {r : RoomRef} {job : Job} {jobs : List Job} (queue : (srv.room r).jobQueue = job :: jobs) :
      Acts cfg env srv (.job r) (srv.runJob env r job jobs)
  | tickEnd {r : RoomRef} : Acts cfg env srv (.tickEnd r) (srv.tickEnd env cfg r)
  | removeIdleRooms : Acts cfg env srv .removeIdleRooms
      { srv with rooms := srv.rooms.removeIdleRooms env cfg.idleRoomTimeoutMs }

theorem acts_of_act (h : act cfg env srv a = some srv') : Acts cfg env srv a srv' := by
  cases a with
  | accept token =>
    obtain rfl := Option.some.inj h
    exact .accept token
  | packet s packet =>
    obtain ⟨hs, rfl⟩ := of_guard h
    exact .packet packet hs
  | authCallback i valid accountId =>
    simp only [act] at h
    split at h
    · exact absurd h (by simp)
    · rename_i hpending
      split at h
      · exact absurd h (by simp)
      · obtain rfl := Option.some.inj h
        exact .authCallback valid accountId hpending
  | disconnect s =>
    obtain ⟨hs, rfl⟩ := of_guard h
    exact .disconnect hs
  | job r =>
    simp only [act] at h
    split at h
    · split at h
      · exact absurd h (by simp)
      · rename_i hqueue
        obtain rfl := Option.some.inj h
        exact .job hqueue
    · exact absurd h (by simp)
  | tickEnd r =>
    obtain ⟨-, rfl⟩ := of_guard h
    exact .tickEnd
  | removeIdleRooms =>
    obtain rfl := Option.some.inj h
    exact .removeIdleRooms

theorem next_acts (h : next cfg srv (a, env) = some srv') :
    ∃ srv₁, Acts cfg env srv a srv₁ ∧ srv' = { srv₁ with clock := env.later } := by
  unfold next at h
  split at h
  · exact absurd h (by simp)
  · obtain ⟨srv₁, hact, rfl⟩ := Option.map_eq_some_iff.mp h
    exact ⟨srv₁, acts_of_act hact, rfl⟩

theorem room_inRoom_ne {f : GameRoom → World → GameRoom × World} {r' : RoomRef} (h : r' ≠ r) :
    (srv.inRoom r f).room r' = srv.room r' :=
  RoomManager.room_modify_ne h _

theorem room_inRoom_self {f : GameRoom → World → GameRoom × World}
    (h : r < srv.rooms.heap.length) :
    (srv.inRoom r f).room r = (f (srv.room r) srv.world).1 :=
  RoomManager.room_modify_self h _

theorem length_inRoom (f : GameRoom → World → GameRoom × World) :
    (srv.inRoom r f).rooms.heap.length = srv.rooms.heap.length :=
  RoomManager.length_modify _

/-- Nothing at all happens to the room. -/
theorem RoomEffect.none {room' : GameRoom} (hroom : room' = srv.room r)
    (hidle : srv.running a r = .none) (hwaiting : srv.waiting a r = (srv.room r).jobQueue) :
    RoomEffect cfg srv a env r room' := by
  subst hroom
  exact .queued rfl (fun _ => rfl) ⟨[], by simp, by simp⟩ hidle hwaiting

theorem RoomEffect.of_queued {m : RoomManager} {new : RoomRef → Job → Prop}
    (h : Queued cfg.maxRoomPlayers srv.rooms m new)
    (hnew : ∀ job, new r job → Queues srv a env r job)
    (hidle : srv.running a r = .none) (hwaiting : srv.waiting a r = (srv.room r).jobQueue) :
    RoomEffect cfg srv a env r (m.room r) := by
  obtain ⟨jobs, hjobs, hall⟩ := h.queue r
  exact .queued (h.inside r) (h.kept r) ⟨jobs, hjobs, fun job hjob => hnew job (hall job hjob)⟩
    hidle hwaiting

theorem queued_callback {valid : Bool} {accountId : Bytes} :
    Queued cfg.maxRoomPlayers srv.rooms (srv.loginCallback env s valid accountId).rooms fun r job =>
      valid = true ∧ job = .handleRejoin s ∧ srv.rooms.findReconnect env accountId = some r := by
  unfold Server.loginCallback
  cases valid with
  | false => exact .refl _ _
  | true =>
    simp only [if_true]
    split
    · rename_i r hfound
      exact .pushJob _ ⟨trivial, rfl, hfound⟩
    · exact .refl _ _

theorem queued_disconnect :
    Queued cfg.maxRoomPlayers srv.rooms (srv.handleDisconnect s).rooms fun r job =>
      job = .handleLeave s ∧ srv.roomOf s = some r := by
  unfold Server.handleDisconnect
  split
  · exact .refl _ _
  · simp only
    split
    · exact .refl _ _
    · rename_i r hroom
      refine .pushJob _ ⟨rfl, ?_⟩
      show (srv.world.session s).room = some r
      rwa [show (Server.countOut (srv.world.disconnect s)).session s =
        { srv.world.session s with disconnected := true } from
          World.session_disconnect_self _ _] at hroom

/-- **One step and one room**: jobs are queued in it, its first job runs, or it is swept. -/
theorem rooms_next (h : next cfg srv (a, env) = some srv') (r : RoomRef) :
    RoomEffect cfg srv a env r (srv'.room r) := by
  obtain ⟨srv₁, hacts, rfl⟩ := next_acts h
  show RoomEffect cfg srv a env r (srv₁.room r)
  cases hacts with
  | accept token =>
    refine .none ?_ rfl rfl
    unfold Server.handleAccept
    cases token <;> rfl
  | packet packet accepted =>
    exact .of_queued (handled_packet cfg packet srv).rooms
      (fun job hjob => .packet _ packet rfl hjob) rfl rfl
  | @authCallback i s token valid accountId pending =>
    refine .of_queued (@queued_callback cfg { srv with auth := srv.auth.eraseIdx i } env s valid
      accountId) (fun job hjob => ?_) rfl rfl
    obtain ⟨rfl, hjob, hfound⟩ := hjob
    exact .callback i accountId token s rfl pending hjob hfound
  | disconnect accepted =>
    exact .of_queued queued_disconnect
      (fun job hjob => .disconnect _ rfl hjob.1 hjob.2) rfl rfl
  | @job r₀ job jobs queue =>
    by_cases hr : r = r₀
    · subst hr
      have hqueued : job ∈ (srv.room r).jobQueue := by
        rw [queue]
        exact List.mem_cons_self
      exact .ran job jobs rfl queue (room_inRoom_self (RoomManager.lt_of_queued hqueued))
    · exact .none (room_inRoom_ne hr) (if_neg (Ne.symm hr)) (if_neg (Ne.symm hr))
  | @tickEnd r₀ =>
    by_cases hr : r = r₀
    · subst hr
      by_cases hlen : r < srv.rooms.heap.length
      · refine .swept rfl ?_
        rw [Server.tickEnd, room_inRoom_self hlen]
        exact (GameRoom.tickEnd_spec cfg.reconnectWindowMs).1
      · refine .none ?_ rfl rfl
        have hlen' : (srv.tickEnd env cfg r).rooms.heap.length ≤ r := by
          rw [Server.tickEnd, length_inRoom]
          exact not_lt.mp hlen
        exact (RoomManager.room_of_le hlen').trans (RoomManager.room_of_le (not_lt.mp hlen)).symm
    · exact .none (room_inRoom_ne hr) rfl rfl
  | removeIdleRooms => exact .none rfl rfl rfl

/-- The end of a tick sweeps its room, if it has been created. -/
theorem room_tickEnd (h : next cfg srv (.tickEnd r, env) = some srv')
    (hlen : r < srv.rooms.heap.length) :
    srv'.room r = (srv.room r).swept env cfg.reconnectWindowMs := by
  obtain ⟨srv₁, hacts, rfl⟩ := next_acts h
  cases hacts with
  | tickEnd =>
    show (srv.tickEnd env cfg r).room r = _
    rw [Server.tickEnd, room_inRoom_self hlen]
    exact (GameRoom.tickEnd_spec cfg.reconnectWindowMs).1

/-- A room that was not there before the step is new. -/
theorem created_next (h : next cfg srv (a, env) = some srv') (hr : r < srv'.rooms.heap.length)
    (hle : srv.rooms.heap.length ≤ r) :
    ∃ name, (srv'.room r).withoutQueue = .new name cfg.maxRoomPlayers := by
  obtain ⟨srv₁, hacts, rfl⟩ := next_acts h
  cases hacts with
  | accept token =>
    unfold Server.handleAccept at hr
    cases token <;> exact absurd hr (not_lt.mpr hle)
  | packet packet accepted => exact (handled_packet cfg packet srv).rooms.created r hr hle
  | @authCallback i s token valid accountId pending =>
    exact (@queued_callback cfg { srv with auth := srv.auth.eraseIdx i } env s valid
      accountId).created r hr hle
  | disconnect accepted => exact queued_disconnect.created r hr hle
  | job queue =>
    simp only [Server.runJob, length_inRoom] at hr
    exact absurd hr (not_lt.mpr hle)
  | tickEnd =>
    simp only [Server.tickEnd, length_inRoom] at hr
    exact absurd hr (not_lt.mpr hle)
  | removeIdleRooms => exact absurd hr (not_lt.mpr hle)

/-! ## Members and queues -/

theorem running_job {job : Job} {jobs : List Job} (hqueue : (srv.room r).jobQueue = job :: jobs) :
    srv.running (.job r) r = some job := by
  unfold Server.running
  simp only [if_true, hqueue, List.head?_cons]

theorem mem_of_running {job : Job} (h : job ∈ srv.running a r) : job ∈ (srv.room r).jobQueue := by
  unfold Server.running at h
  split at h
  · split at h
    · exact List.mem_of_mem_head? h
    · exact absurd h (by simp)
  · exact absurd h (by simp)

theorem action_of_running {job : Job} (h : job ∈ srv.running a r) : a = .job r := by
  unfold Server.running at h
  split at h
  · split at h
    · rename_i hr
      rw [hr]
    · exact absurd h (by simp)
  · exact absurd h (by simp)

theorem waiting_job {job : Job} {jobs : List Job} (hqueue : (srv.room r).jobQueue = job :: jobs) :
    srv.waiting (.job r) r = jobs := by
  unfold Server.waiting
  simp only [if_true, hqueue, List.tail_cons]

theorem members_next (h : next cfg srv (a, env) = some srv') :
    s ∈ (srv'.room r).members ↔ srv.Holds a r s := by
  unfold Server.Holds Server.TakesIn Server.Leaving
  cases rooms_next h r with
  | queued inside kept queue idle =>
    rw [idle, show (srv'.room r).members = (srv.room r).members from
      (congrArg GameRoom.members inside :)]
    simp
  | ran job jobs action queue room =>
    subst action
    rw [room, Job.mem_run, running_job queue]
    simp only [Option.mem_some_iff, exists_eq_left']
    rfl
  | swept action room =>
    subst action
    rw [room]
    simp [Server.running, GameRoom.swept]

theorem waiting_next (h : next cfg srv (a, env) = some srv') :
    srv.waiting a r <+: (srv'.room r).jobQueue := by
  cases rooms_next h r with
  | queued inside kept queue idle waiting =>
    obtain ⟨jobs, hjobs, -⟩ := queue
    rw [waiting, hjobs]
    exact List.prefix_append _ _
  | ran job jobs action queue room =>
    subst action
    rw [room, Job.jobQueue_run, waiting_job queue]
  | swept action room =>
    subst action
    rw [room]
    exact List.prefix_rfl

theorem queued_next {job : Job} (h : next cfg srv (a, env) = some srv')
    (hjob : job ∈ (srv'.room r).jobQueue) : job ∈ srv.waiting a r ∨ Queues srv a env r job := by
  cases rooms_next h r with
  | queued inside kept queue idle waiting =>
    obtain ⟨jobs, hjobs, hall⟩ := queue
    rw [hjobs] at hjob
    rw [waiting]
    exact (List.mem_append.mp hjob).imp id (hall job)
  | ran job' jobs action queue room =>
    subst action
    rw [room, Job.jobQueue_run] at hjob
    rw [waiting_job queue]
    exact Or.inl hjob
  | swept action room =>
    subst action
    rw [room] at hjob
    exact Or.inl hjob

theorem waiting_subset {job : Job} (h : job ∈ srv.waiting a r) : job ∈ (srv.room r).jobQueue := by
  unfold Server.waiting at h
  split at h
  · split at h
    · exact List.mem_of_mem_tail h
    · exact h
  · exact h

/-- A queued leave is still queued behind any step that does not run it. -/
theorem leaveBehind_of_queued (h : srv.LeaveQueued r s) (hnot : ¬ srv.Leaving a r s) :
    srv.LeaveBehind a r s := by
  obtain ⟨job, hjob, hleaves⟩ := h
  refine ⟨job, ?_, hleaves⟩
  unfold Server.waiting
  unfold Server.Leaving Server.running at hnot
  split
  · rename_i r₀
    simp only at hnot
    split
    · rename_i hr
      rw [if_pos hr] at hnot
      cases hqueue : (srv.room r).jobQueue with
      | nil =>
        rw [hqueue] at hjob
        exact absurd hjob List.not_mem_nil
      | cons first jobs =>
        rw [hqueue] at hjob hnot
        rcases List.mem_cons.mp hjob with rfl | hjob
        · exact absurd ⟨job, rfl, hleaves⟩ hnot
        · exact hjob
    · exact hjob
  · exact hjob

theorem leaveQueued_of_behind (h : next cfg srv (a, env) = some srv')
    (hbehind : srv.LeaveBehind a r s) : srv'.LeaveQueued r s := by
  obtain ⟨job, hjob, hleaves⟩ := hbehind
  exact ⟨job, (waiting_next h).mem hjob, hleaves⟩

/-! ## Sessions -/

theorem world_callback {valid : Bool} {accountId : Bytes} :
    Sent env (if valid then srv.world.setAccountId s accountId else srv.world)
      (srv.loginCallback env s valid accountId).world := by
  unfold Server.loginCallback
  cases valid with
  | false => exact .send env s _ _
  | true =>
    simp only [if_true]
    split <;> exact .send env s _ _

theorem session_disconnect_ne {t : SessionRef} (h : t ≠ s) :
    (srv.handleDisconnect s).world.session t = srv.world.session t := by
  unfold Server.handleDisconnect
  split
  · rfl
  · simp only
    split
    · exact World.session_disconnect_ne h
    · exact (World.session_setRoom_ne h _).trans (World.session_disconnect_ne h)

theorem handleDisconnect_down (h : srv.Down s) : srv.handleDisconnect s = srv := by
  unfold Server.Down at h
  unfold Server.handleDisconnect
  rw [if_pos h]

theorem session_disconnect_self (h : ¬ srv.Down s) :
    (srv.handleDisconnect s).world.session s =
      { srv.world.session s with disconnected := true, room := none } := by
  have hsession : (Server.countOut (srv.world.disconnect s)).session s =
      { srv.world.session s with disconnected := true } := World.session_disconnect_self _ _
  unfold Server.Down at h
  unfold Server.handleDisconnect
  rw [if_neg h]
  simp only
  split
  · rename_i hroom
    rw [hsession] at hroom ⊢
    rw [← hroom]
  · show ((Server.countOut (srv.world.disconnect s)).setRoom s none).session s = _
    rw [World.session_setRoom_self, hsession]

theorem session_accept {token : Bool} (h : s < srv.nextSession) :
    (srv.handleAccept token).world.session s = srv.world.session s := by
  unfold Server.handleAccept
  cases token with
  | false => rfl
  | true => exact Function.update_of_ne (ne_of_lt h) _ _

theorem loggingIn_callback {i : Nat} {accountId token : Bytes}
    (hpending : srv.auth[i]? = some (s, token)) :
    srv.loggingIn (.authCallback i true accountId) = some (s, accountId) := by
  unfold Server.loggingIn
  simp only [hpending, Option.map_some]

/-- Only a callback completes a login. -/
theorem callback_of_loggingIn {accountId : Bytes} (h : srv.loggingIn a = some (s, accountId)) :
    ∃ i token, a = .authCallback i true accountId ∧ srv.auth[i]? = some (s, token) := by
  unfold Server.loggingIn at h
  split at h
  · rename_i i account
    obtain ⟨⟨t, token⟩, hpending, hsame⟩ := Option.map_eq_some_iff.mp h
    obtain ⟨rfl, rfl⟩ := Prod.mk.inj hsame
    exact ⟨i, token, rfl, hpending⟩
  · exact absurd h (by simp)

theorem accountAfter_login {accountId : Bytes} (h : srv.loggingIn a = some (s, accountId)) :
    srv.accountAfter a s = accountId := by
  unfold Server.accountAfter
  rw [h]
  exact if_pos rfl

theorem accountAfter_other (h : ∀ accountId, srv.loggingIn a ≠ some (s, accountId)) :
    srv.accountAfter a s = srv.account s := by
  unfold Server.accountAfter
  split
  · rename_i t accountId hlogin
    rw [if_neg]
    rintro rfl
    exact h accountId hlogin
  · rfl

/-- What a step does to a session it did not just accept. -/
structure SessionEffect (srv : Server) (a : Action) (env : Env) (s : SessionRef)
    (session' : ServerSession) : Prop where
  /-- Only a login of the session changes its account. -/
  account : session'.accountId = srv.accountAfter a s
  /-- Only an admission, a leave or a disconnect of the session changes its pointer. -/
  room : session'.room = srv.roomOf s ∨ (∃ r, srv.TakesIn a r s) ∨
    (session'.room = none ∧
      ((∃ r, srv.Leaving a r s ∧ s ∈ (srv.room r).members) ∨ a = .disconnect s))
  takenIn : ∀ r, srv.TakesIn a r s → session'.room = some r
  /-- No session comes back. -/
  down : srv.Down s → session'.disconnected = true
  /-- A session goes down only for a failing send or a disconnect. -/
  failed : session'.disconnected = true → srv.Down s ∨ env.SendFails s ∨ a = .disconnect s

/-- A step that runs no job, logs `s` in nowhere, and only sends. -/
theorem SessionEffect.of_sent {w w' : World} (hidle : ∀ r, srv.running a r = none)
    (hlogin : ∀ accountId, srv.loggingIn a ≠ some (s, accountId))
    (hsame : w.session s = srv.world.session s) (h : Sent env w w') :
    SessionEffect srv a env s (w'.session s) where
  account := by
    rw [accountAfter_other hlogin, h.accountId, hsame]
    rfl
  room := Or.inl ((h.room s).trans (by rw [hsame]; rfl))
  takenIn r htakes := by
    obtain ⟨job, hjob, -⟩ := htakes
    rw [hidle r] at hjob
    exact absurd hjob (by simp)
  down hdown := h.down s (by rw [hsame]; exact hdown)
  failed hdown := by
    rcases h.failed s hdown with hdown | hfails
    · rw [hsame] at hdown
      exact Or.inl hdown
    · exact Or.inr (Or.inl hfails)

/-- The login of `s`. -/
theorem SessionEffect.of_login {accountId : Bytes} {w : World}
    (hlogin : srv.loggingIn a = some (s, accountId))
    (h : Sent env (srv.world.setAccountId s accountId) w) :
    SessionEffect srv a env s (w.session s) := by
  have hidle : ∀ r, srv.running a r = none := by
    obtain ⟨i, token, rfl, -⟩ := callback_of_loggingIn hlogin
    exact fun _ => rfl
  refine ⟨?_, Or.inl ?_, ?_, ?_, ?_⟩
  · rw [accountAfter_login hlogin, h.accountId, World.session_setAccountId_self]
  · rw [h.room, World.session_setAccountId_self]
    rfl
  · rintro r ⟨job, hjob, -⟩
    rw [hidle r] at hjob
    exact absurd hjob (by simp)
  · intro hdown
    refine h.down s ?_
    rw [World.session_setAccountId_self]
    exact hdown
  · intro hdown
    rcases h.failed s hdown with hdown | hfails
    · rw [World.session_setAccountId_self] at hdown
      exact Or.inl hdown
    · exact Or.inr (Or.inl hfails)

/-- A job of a room. -/
theorem SessionEffect.of_job {job : Job} {jobs : List Job}
    (hqueue : (srv.room r).jobQueue = job :: jobs) :
    SessionEffect srv (.job r) env s
      ((job.run env r { srv.room r with jobQueue := jobs } srv.world).2.session s) := by
  have hrunning : ∀ r₀, srv.running (.job r) r₀ = if r = r₀ then some job else none := by
    intro r₀
    show (if r = r₀ then (srv.room r₀).jobQueue.head? else none) = _
    split
    · rename_i hr
      rw [← hr, hqueue, List.head?_cons]
    · rfl
  have htakes : ∀ r₀, srv.TakesIn (.job r) r₀ s ↔
      r₀ = r ∧ job.TakesIn { srv.room r with jobQueue := jobs } s := by
    intro r₀
    unfold Server.TakesIn
    rw [hrunning r₀]
    split
    · rename_i hr
      subst hr
      simp only [Option.mem_some_iff, exists_eq_left', true_and]
      rfl
    · rename_i hr
      simp [Ne.symm hr]
  refine ⟨?_, ?_, ?_, Job.down_run, ?_⟩
  · rw [accountAfter_other (by simp [Server.loggingIn]), Job.accountId_run]
    rfl
  · rw [Job.room_run]
    by_cases hin : job.TakesIn { srv.room r with jobQueue := jobs } s
    · exact Or.inr (Or.inl ⟨r, (htakes r).mpr ⟨rfl, hin⟩⟩)
    · rw [if_neg hin]
      split
      · rename_i hleaves
        refine Or.inr (Or.inr ⟨rfl, Or.inl ⟨r, ⟨job, ?_, hleaves.1⟩, hleaves.2⟩⟩)
        rw [hrunning, if_pos rfl]
        rfl
      · exact Or.inl rfl
  · intro r₀ hr₀
    obtain ⟨rfl, hin⟩ := (htakes r₀).mp hr₀
    rw [Job.room_run, if_pos hin]
  · intro hdown
    rcases Job.failed_run hdown with hdown | hfails
    · exact Or.inl hdown
    · exact Or.inr (Or.inl hfails)

/-- What a step that is no accept does to any session, and an accept to those there are. -/
theorem sessionEffect_next (h : next cfg srv (a, env) = some srv')
    (hs : ∀ token, a = .accept token → s < srv.nextSession) :
    SessionEffect srv a env s (srv'.world.session s) := by
  obtain ⟨srv₁, hacts, rfl⟩ := next_acts h
  show SessionEffect srv a env s (srv₁.world.session s)
  cases hacts with
  | accept token =>
    exact .of_sent (fun _ => rfl) (by simp [Server.loggingIn]) (session_accept (hs token rfl))
      (.refl env _)
  | packet packet accepted =>
    exact .of_sent (fun _ => rfl) (by simp [Server.loggingIn]) rfl
      (handled_packet cfg packet srv).world
  | @authCallback i t token valid accountId pending =>
    have hsent := @world_callback { srv with auth := srv.auth.eraseIdx i } env t valid accountId
    cases valid with
    | false => exact .of_sent (fun _ => rfl) (by simp [Server.loggingIn]) rfl hsent
    | true =>
      simp only [if_true] at hsent
      have hlogin : srv.loggingIn (.authCallback i true accountId) = some (t, accountId) :=
        loggingIn_callback pending
      by_cases hst : s = t
      · subst hst
        exact .of_login hlogin hsent
      · refine .of_sent (fun _ => rfl) (fun accountId' h => ?_)
          (World.session_setAccountId_ne hst _) hsent
        rw [hlogin] at h
        exact hst (Prod.mk.inj (Option.some.inj h)).1.symm
  | @disconnect t accepted =>
    by_cases hdown : srv.Down t
    · rw [handleDisconnect_down hdown]
      exact .of_sent (fun _ => rfl) (by simp [Server.loggingIn]) rfl (.refl env _)
    · by_cases hst : s = t
      · subst hst
        rw [session_disconnect_self hdown]
        refine ⟨(accountAfter_other (by simp [Server.loggingIn])).symm,
          Or.inr (Or.inr ⟨rfl, Or.inr rfl⟩), ?_, fun _ => rfl, fun _ => Or.inr (Or.inr rfl)⟩
        rintro r ⟨job, hjob, -⟩
        exact absurd hjob (by simp [Server.running])
      · exact .of_sent (fun _ => rfl) (by simp [Server.loggingIn]) (session_disconnect_ne hst)
          (.refl env _)
  | job queue => exact .of_job queue
  | tickEnd =>
    exact .of_sent (fun _ => rfl) (by simp [Server.loggingIn]) rfl
      (GameRoom.tickEnd_spec cfg.reconnectWindowMs).2
  | removeIdleRooms =>
    exact .of_sent (fun _ => rfl) (by simp [Server.loggingIn]) rfl (.refl env _)

/-- **One step and one session.** -/
theorem sessions_next (h : next cfg srv (a, env) = some srv') (hs : s < srv.nextSession) :
    SessionEffect srv a env s (srv'.world.session s) :=
  sessionEffect_next h fun _ _ => hs

/-- `HandleLeave` clears the pointer of the member it takes out. -/
theorem roomOf_leave (h : next cfg srv (a, env) = some srv') (hleaves : srv.Leaving a r s)
    (hmem : s ∈ (srv.room r).members) : srv'.roomOf s = none := by
  obtain ⟨job, hjob, hleaves⟩ := hleaves
  have haction := action_of_running hjob
  subst haction
  obtain ⟨srv₁, hacts, rfl⟩ := next_acts h
  cases hacts with
  | @job _ job' jobs queue =>
    rw [running_job queue] at hjob
    obtain rfl := Option.some.inj hjob
    show ((job'.run env r { srv.room r with jobQueue := jobs } srv.world).2.session s).room = none
    have hnot : ¬ job'.TakesIn { srv.room r with jobQueue := jobs } s := fun htakes =>
      Job.not_leaves_of_takesIn htakes hleaves
    have hboth : job'.Leaves s ∧ s ∈ ({ srv.room r with jobQueue := jobs } : GameRoom).members :=
      ⟨hleaves, hmem⟩
    rw [Job.room_run, if_neg hnot, if_pos hboth]

theorem down_disconnect (h : next cfg srv (.disconnect s, env) = some srv') : srv'.Down s := by
  obtain ⟨srv₁, hacts, rfl⟩ := next_acts h
  cases hacts with
  | disconnect accepted =>
    by_cases hdown : srv.Down s
    · rw [handleDisconnect_down hdown]
      exact hdown
    · show ((srv.handleDisconnect s).world.session s).disconnected = true
      rw [session_disconnect_self hdown]

/-- A `HandleDisconnect` of a connected session queues its leave in the room its pointer names. -/
theorem leaveQueued_disconnect (h : next cfg srv (.disconnect s, env) = some srv')
    (hdown : ¬ srv.Down s) (hroom : srv.roomOf s = some r) (hlen : r < srv.rooms.heap.length) :
    srv'.LeaveQueued r s := by
  obtain ⟨srv₁, hacts, rfl⟩ := next_acts h
  cases hacts with
  | disconnect accepted =>
    refine ⟨.handleLeave s, ?_, Or.inl rfl⟩
    show Job.handleLeave s ∈ ((srv.handleDisconnect s).rooms.room r).jobQueue
    have hsession : (Server.countOut (srv.world.disconnect s)).session s =
        { srv.world.session s with disconnected := true } := World.session_disconnect_self _ _
    have hpointer : ((Server.countOut (srv.world.disconnect s)).session s).room = some r := by
      rw [hsession]
      exact hroom
    unfold Server.Down at hdown
    unfold Server.handleDisconnect
    rw [if_neg hdown]
    simp only [hpointer]
    exact RoomManager.mem_pushJob hlen

/-! ## What is sent outside the rooms -/

/-- The room whose job, or the end of whose tick, the step is. -/
def Action.ofRoom : Action → Option RoomRef
  | job r | tickEnd r => some r
  | accept _ | packet .. | authCallback .. | disconnect _ | removeIdleRooms => none

theorem HandlerCalls.emits {P : PacketID → Bytes → Prop} (h : HandlerCalls cfg env s srv srv')
    (hP : ∀ id payload, id.Answers → P id payload) : Emits P srv.world srv'.world := by
  induction h with
  | refl srv => exact .refl P srv.world
  | trans h h' ih ih' => exact ih.trans ih'
  | send srv answers => exact .send env s _ (hP _ _ answers)
  | sendRaw srv answers => exact .sendRaw env s _ (hP _ _ answers)
  | pushJob srv own => exact .refl P srv.world
  | getOrCreate srv name => exact .refl P srv.world
  | validateAsync srv token => exact .refl P srv.world

theorem emits_callback {P : PacketID → Bytes → Prop} (hP : ∀ id payload, id.Answers → P id payload)
    {valid : Bool} {accountId : Bytes} :
    Emits P srv.world (srv.loginCallback env s valid accountId).world := by
  unfold Server.loginCallback
  cases valid with
  | false => exact .send env s _ (hP _ _ trivial)
  | true =>
    have haccount : Emits P srv.world (srv.world.setAccountId s accountId) := .of_sent_eq rfl
    simp only [if_true]
    split
    · exact haccount.trans (.send env s _ (hP _ _ trivial))
    · exact haccount.trans (.send env s _ (hP _ _ trivial))

/-- A step that is no room's answers its session, if it sends anything. -/
theorem emits_outside {P : PacketID → Bytes → Prop} (hP : ∀ id payload, id.Answers → P id payload)
    (h : next cfg srv (a, env) = some srv') (houtside : ∀ r, a.ofRoom ≠ some r) :
    Emits P srv.world srv'.world := by
  obtain ⟨srv₁, hacts, rfl⟩ := next_acts h
  show Emits P srv.world srv₁.world
  cases hacts with
  | accept token =>
    unfold Server.handleAccept
    cases token with
    | false => exact .of_sent_eq rfl
    | true => exact .of_sent_eq rfl
  | packet packet accepted => exact (calls_packet cfg packet srv).emits hP
  | @authCallback i s token valid accountId pending =>
    exact @emits_callback { srv with auth := srv.auth.eraseIdx i } env s P hP valid accountId
  | disconnect accepted =>
    unfold Server.handleDisconnect
    split
    · exact .refl P _
    · simp only
      split
      · exact .of_sent_eq rfl
      · exact .of_sent_eq rfl
  | job queue => exact absurd rfl (houtside _)
  | tickEnd => exact absurd rfl (houtside _)
  | removeIdleRooms => exact .refl P _

/-- **Whose packets a step sends**: an answer's, a job's, or the end of a tick's. -/
theorem emits_of_next {P : PacketID → Bytes → Prop} (hP : ∀ id payload, id.Answers → P id payload)
    (hjob : ∀ r job jobs, a = .job r → (srv.room r).jobQueue = job :: jobs →
      Emits P srv.world (job.run env r { srv.room r with jobQueue := jobs } srv.world).2)
    (htick : ∀ r, a = .tickEnd r →
      Emits P srv.world ((srv.room r).tickEnd env cfg.reconnectWindowMs srv.world).2)
    (h : next cfg srv (a, env) = some srv') : Emits P srv.world srv'.world := by
  by_cases houtside : ∀ r, a.ofRoom ≠ some r
  · exact emits_outside hP h houtside
  · obtain ⟨r, hroom⟩ := not_forall_not.mp houtside
    obtain ⟨srv₁, hacts, rfl⟩ := next_acts h
    show Emits P srv.world srv₁.world
    cases hacts with
    | @job r job jobs queue => exact hjob r job jobs rfl queue
    | @tickEnd r => exact htick r rfl
    | _ => exact absurd hroom (by simp [Action.ofRoom])

/-! ## Only accepted sessions are named -/

theorem nextSession_callback {valid : Bool} {accountId : Bytes} :
    (srv.loginCallback env s valid accountId).nextSession = srv.nextSession := by
  unfold Server.loginCallback
  cases valid with
  | false => rfl
  | true => simp only [if_true]; split <;> rfl

theorem nextSession_disconnect : (srv.handleDisconnect s).nextSession = srv.nextSession := by
  unfold Server.handleDisconnect
  split
  · rfl
  · simp only; split <;> rfl

theorem auth_callback {valid : Bool} {accountId : Bytes} :
    (srv.loginCallback env s valid accountId).auth = srv.auth := by
  unfold Server.loginCallback
  cases valid with
  | false => rfl
  | true => simp only [if_true]; split <;> rfl

theorem auth_disconnect : (srv.handleDisconnect s).auth = srv.auth := by
  unfold Server.handleDisconnect
  split
  · rfl
  · simp only; split <;> rfl

theorem nextSession_next (h : next cfg srv (a, env) = some srv') :
    srv.nextSession ≤ srv'.nextSession := by
  obtain ⟨srv₁, hacts, rfl⟩ := next_acts h
  show srv.nextSession ≤ srv₁.nextSession
  cases hacts with
  | accept token =>
    unfold Server.handleAccept
    split
    · exact Nat.le_succ _
    · exact le_refl _
  | packet packet accepted => exact (handled_packet cfg packet srv).nextSession.ge
  | authCallback valid accountId pending => rw [nextSession_callback]
  | disconnect accepted => exact nextSession_disconnect.ge
  | job queue => exact le_refl _
  | tickEnd => exact le_refl _
  | removeIdleRooms => exact le_refl _

/-- The session of a packet or a disconnect has been accepted. -/
theorem actor_next (h : next cfg srv (a, env) = some srv')
    (ha : (∃ packet, a = .packet s packet) ∨ a = .disconnect s) : s < srv.nextSession := by
  obtain ⟨srv₁, hacts, rfl⟩ := next_acts h
  rcases ha with ⟨packet, rfl⟩ | rfl
  · cases hacts with
    | packet packet accepted => exact accepted
  · cases hacts with
    | disconnect accepted => exact accepted

theorem auth_next (h : next cfg srv (a, env) = some srv') {e : SessionRef × Bytes}
    (he : e ∈ srv'.auth) : e ∈ srv.auth ∨ ∃ packet, a = .packet e.1 packet := by
  obtain ⟨srv₁, hacts, rfl⟩ := next_acts h
  change e ∈ srv₁.auth at he
  cases hacts with
  | accept token =>
    unfold Server.handleAccept at he
    split at he <;> exact Or.inl he
  | packet packet accepted =>
    rcases (handled_packet cfg packet srv).auth e he with he | he
    · exact Or.inl he
    · exact Or.inr ⟨packet, he ▸ rfl⟩
  | authCallback valid accountId pending =>
    rw [auth_callback] at he
    exact Or.inl (List.mem_of_mem_eraseIdx he)
  | disconnect accepted =>
    rw [auth_disconnect] at he
    exact Or.inl he
  | job queue => exact Or.inl he
  | tickEnd => exact Or.inl he
  | removeIdleRooms => exact Or.inl he

/-- The session a job is about. -/
def Job.session : Job → Option SessionRef
  | handleEnter s | handleLeave s | leaveAndAck s | handleRejoin s => some s
  | chat .. | handleMove .. | handleReady .. => none

theorem session_of_fromPacket {t : SessionRef} {job : Job} (h : job.FromPacket t)
    (hs : job.session = some s) : s = t := by
  cases job with
  | handleEnter u => exact (Option.some.inj hs).symm.trans h
  | handleLeave u => exact (Option.some.inj hs).symm.trans h
  | leaveAndAck u => exact (Option.some.inj hs).symm.trans h
  | handleRejoin u => exact absurd h id
  | chat sender message => exact absurd hs (by simp [Job.session])
  | handleMove accountId x y => exact absurd hs (by simp [Job.session])
  | handleReady accountId => exact absurd hs (by simp [Job.session])

/-- Rooms, jobs and callbacks name accepted sessions only. -/
structure Born (srv : Server) : Prop where
  members : ∀ r, ∀ s ∈ (srv.room r).members, s < srv.nextSession
  jobs : ∀ r, ∀ job ∈ (srv.room r).jobQueue, ∀ s, job.session = some s → s < srv.nextSession
  auth : ∀ e ∈ srv.auth, e.1 < srv.nextSession

theorem room_empty (r : RoomRef) : Server.empty.room r = .new [] 0 :=
  RoomManager.room_of_le (Nat.zero_le r)

theorem born_empty : Born .empty := by
  refine ⟨fun r s hs => ?_, fun r job hjob => ?_, fun e he => absurd he List.not_mem_nil⟩
  · rw [room_empty] at hs
    exact absurd hs List.not_mem_nil
  · rw [room_empty] at hjob
    exact absurd hjob List.not_mem_nil

theorem session_of_takesIn (hb : Born srv) (h : srv.TakesIn a r s) : s < srv.nextSession := by
  obtain ⟨job, hjob, htakes⟩ := h
  refine hb.jobs r job (mem_of_running hjob) s ?_
  rcases htakes with ⟨rfl, -⟩ | rfl <;> rfl

theorem born_next (hb : Born srv) (h : next cfg srv (a, env) = some srv') : Born srv' := by
  have hmono := nextSession_next h
  refine ⟨fun r s hs => lt_of_lt_of_le ?_ hmono, fun r job hjob s hs => lt_of_lt_of_le ?_ hmono,
    fun e he => lt_of_lt_of_le ?_ hmono⟩
  · rcases (members_next h).mp hs with htakes | ⟨hmem, -⟩
    · exact session_of_takesIn hb htakes
    · exact hb.members r s hmem
  · rcases queued_next h hjob with hjob | hqueues
    · exact hb.jobs r job (waiting_subset hjob) s hs
    · cases hqueues with
      | packet t packet action hfrom =>
        have ht := actor_next h (Or.inl ⟨packet, action⟩)
        rwa [session_of_fromPacket hfrom hs]
      | callback i accountId token t action pending hjob found =>
        subst hjob
        obtain rfl := Option.some.inj hs
        exact hb.auth (t, token) (List.mem_of_getElem? pending)
      | disconnect t action hjob room =>
        subst hjob
        obtain rfl := Option.some.inj hs
        exact actor_next h (Or.inr action)
  · rcases auth_next h he with he | ⟨packet, action⟩
    · exact hb.auth e he
    · exact actor_next h (Or.inl ⟨packet, action⟩)

/-- An invariant may be shown to survive a step from states with `Born` alone. -/
theorem run_born {I : Server → Prop} {C : Server → Action × Env → Prop}
    {steps : List (Action × Env)} (hempty : I .empty)
    (hstep : ∀ srv a env srv', Born srv → I srv → C srv (a, env) →
      next cfg srv (a, env) = some srv' → I srv')
    (hc : Along (next cfg) C .empty steps) (hrun : run (next cfg) .empty steps = some srv) :
    Born srv ∧ I srv := by
  refine run_invariant (I := fun srv => Born srv ∧ I srv) ?_ ⟨born_empty, hempty⟩ hc hrun
  rintro srv ⟨a, env⟩ srv' ⟨hb, hi⟩ hc h
  exact ⟨born_next hb h, hstep srv a env srv' hb hi hc h⟩

theorem born_of_run {steps : List (Action × Env)}
    (hrun : run (next cfg) .empty steps = some srv) : Born srv :=
  run_preserves (fun _ _ _ hb h => born_next hb h) born_empty hrun

end

end RealtimeServer
