import RealtimeServer.Core.Steps

/-!
# What the handlers queue

`Core/Steps` says for which session a packet queues a job. Here it is said what the job captured: a
handler reads the session's account and its room pointer when the packet arrives, and the job keeps
them (`Job.SentBy`).

* `queued_packet`: the jobs of one packet.
* **`pushed_next`**: the jobs that any step queues, each with the session it is queued for.
-/

namespace RealtimeServer

open Unordered Guarded

/-- The job is what the packet of `s` queues in `r`: it captured the account of `s`, and `r` is
where `s` points, except for an enter. -/
def Job.SentBy (srv : Server) (s : SessionRef) (packet : ClientPacket) (r : RoomRef) : Job → Prop
  | handleEnter t => t = s ∧ srv.account s ≠ [] ∧ ∃ name, packet = .roomEnter (some name)
  | handleLeave t => t = s ∧ srv.roomOf s = some r ∧ ∃ name, packet = .roomEnter (some name)
  | leaveAndAck t => t = s ∧ srv.roomOf s = some r ∧ packet = .roomLeave
  | handleRejoin _ => False
  | chat accountId message =>
    accountId = srv.account s ∧ srv.roomOf s = some r ∧ packet = .chat (some message)
  | handleMove accountId x y =>
    accountId = srv.account s ∧ srv.roomOf s = some r ∧ packet = .move (some (x, y))
  | handleReady accountId =>
    accountId = srv.account s ∧ accountId ≠ [] ∧ srv.roomOf s = some r ∧ packet = .ready

section

variable {cfg : Config} {srv srv' : Server} {a : Action} {env : Env} {r : RoomRef}
  {s : SessionRef} {job : Job} {limit : Int}

/-- The jobs of a handler. -/
abbrev Sends (limit : Int) (srv srv' : Server) (s : SessionRef) (packet : ClientPacket) : Prop :=
  Queued limit srv.rooms srv'.rooms fun r job => job.SentBy srv s packet r

theorem queued_chat (message : Option Bytes) :
    Sends limit srv (srv.handleCChat s message) s (.chat message) := by
  unfold Server.handleCChat
  split
  · rename_i hroom
    exact .pushJob _ ⟨rfl, hroom, rfl⟩
  · exact .refl _ _

theorem queued_roomEnter (roomName : Option Bytes) :
    Sends cfg.maxRoomPlayers srv (srv.handleCRoomEnter env s cfg roomName) s
      (.roomEnter roomName) := by
  unfold Server.handleCRoomEnter
  split
  · exact .refl _ _
  · rename_i roomName
    split
    · exact .refl _ _
    · rename_i hlogin
      refine Queued.trans ?_ ((Queued.getOrCreate _ _ roomName).trans (.pushJob _
        ⟨rfl, hlogin, roomName, rfl⟩))
      split
      · rename_i hroom
        exact .pushJob _ ⟨rfl, hroom, roomName, rfl⟩
      · exact .refl _ _

theorem queued_roomLeave : Sends limit srv (srv.handleCRoomLeave env s) s .roomLeave := by
  unfold Server.handleCRoomLeave
  split
  · exact .refl _ _
  · rename_i hroom
    exact .pushJob _ ⟨rfl, hroom, rfl⟩

theorem queued_move (position : Option (UInt32 × UInt32)) :
    Sends limit srv (srv.handleCMove s position) s (.move position) := by
  unfold Server.handleCMove
  split
  · rename_i hroom
    exact .pushJob _ ⟨rfl, hroom, rfl⟩
  · exact .refl _ _

theorem queued_ready : Sends limit srv (srv.handleCReady s) s .ready := by
  unfold Server.handleCReady
  split
  · exact .refl _ _
  · rename_i hlogin
    split
    · exact .refl _ _
    · rename_i hroom
      exact .pushJob _ ⟨rfl, hlogin, hroom, rfl⟩

/-- **The jobs of a packet.** -/
theorem queued_packet (packet : ClientPacket) :
    Sends cfg.maxRoomPlayers srv (srv.handlePacket env s cfg packet) s packet := by
  cases packet with
  | login password =>
    show Sends _ srv (srv.handleCLogin env s password) s (.login password)
    unfold Server.handleCLogin
    split
    · exact .refl _ _
    · split <;> exact .refl _ _
  | chat message => exact queued_chat message
  | roomEnter roomName => exact queued_roomEnter roomName
  | roomLeave => exact queued_roomLeave
  | move position => exact queued_move position
  | ping payload =>
    show Sends _ srv (srv.handleCPing env s payload) s (.ping payload)
    unfold Server.handleCPing
    split <;> exact .refl _ _
  | roomList => exact .refl _ _
  | ready => exact queued_ready

/-- The step queues `job` in `r` on behalf of `s`. -/
inductive Pushes (srv : Server) (a : Action) (env : Env) (r : RoomRef) (s : SessionRef)
    (job : Job) : Prop
  | packet (packet : ClientPacket) (action : a = .packet s packet)
      (sent : job.SentBy srv s packet r)
  | callback (i : Nat) (accountId token : Bytes) (action : a = .authCallback i true accountId)
      (pending : srv.auth[i]? = some (s, token)) (job : job = .handleRejoin s)
      (found : srv.rooms.findReconnect env accountId = some r)
  | disconnect (action : a = .disconnect s) (job : job = .handleLeave s)
      (room : srv.roomOf s = some r)

/-- **The queue of a room behind a step**: what the step does not run of it, then what the step
queues on behalf of its session. -/
theorem pushed_next (h : next cfg srv (a, env) = some srv') (r : RoomRef) :
    ∃ jobs, (srv'.room r).jobQueue = srv.waiting a r ++ jobs ∧
      ∀ job ∈ jobs, ∃ s, Pushes srv a env r s job := by
  by_cases hpacket : ∃ s packet, a = .packet s packet
  · obtain ⟨s, packet, rfl⟩ := hpacket
    obtain ⟨srv₁, hacts, rfl⟩ := next_acts h
    cases hacts with
    | packet packet accepted =>
      obtain ⟨jobs, hjobs, hall⟩ := (@queued_packet cfg srv env s packet).queue r
      exact ⟨jobs, hjobs, fun job hjob => ⟨s, .packet packet rfl (hall job hjob)⟩⟩
  · cases rooms_next h r with
    | ran job jobs action queue room =>
      subst action
      refine ⟨[], ?_, by simp⟩
      rw [room, Job.jobQueue_run, waiting_job queue, List.append_nil]
    | swept action room =>
      subst action
      refine ⟨[], ?_, by simp⟩
      rw [room, List.append_nil]
      rfl
    | queued inside kept queue idle waiting =>
      obtain ⟨jobs, hjobs, hall⟩ := queue
      refine ⟨jobs, by rw [waiting, hjobs], fun job hjob => ?_⟩
      cases hall job hjob with
      | packet s packet action hfrom => exact absurd ⟨s, packet, action⟩ hpacket
      | callback i accountId token s action pending hjob found =>
        exact ⟨s, .callback i accountId token action pending hjob found⟩
      | disconnect s action hjob room => exact ⟨s, .disconnect action hjob room⟩

/-- The job's own session is the one it is queued for. -/
theorem session_of_pushes {t : SessionRef} (h : Pushes srv a env r s job)
    (hsession : job.session = some t) : t = s := by
  cases h with
  | packet packet action sent =>
    cases job with
    | handleEnter u => exact (Option.some.inj hsession).symm.trans sent.1
    | handleLeave u => exact (Option.some.inj hsession).symm.trans sent.1
    | leaveAndAck u => exact (Option.some.inj hsession).symm.trans sent.1
    | handleRejoin u => exact absurd sent id
    | chat sender message => exact absurd hsession (by simp [Job.session])
    | handleMove accountId x y => exact absurd hsession (by simp [Job.session])
    | handleReady accountId => exact absurd hsession (by simp [Job.session])
  | callback i accountId token action pending hjob found =>
    rw [hjob] at hsession
    exact (Option.some.inj hsession).symm
  | disconnect action hjob room =>
    rw [hjob] at hsession
    exact (Option.some.inj hsession).symm

/-- Who speaks to a room points to it. -/
theorem roomOf_of_pushes (h : Pushes srv a env r s job) (hnone : job.session = none) :
    srv.roomOf s = some r := by
  cases h with
  | packet packet action sent =>
    cases job with
    | chat sender message => exact sent.2.1
    | handleMove accountId x y => exact sent.2.1
    | handleReady accountId => exact sent.2.2.1
    | handleEnter u => exact absurd hnone (by simp [Job.session])
    | handleLeave u => exact absurd hnone (by simp [Job.session])
    | leaveAndAck u => exact absurd hnone (by simp [Job.session])
    | handleRejoin u => exact absurd hnone (by simp [Job.session])
  | callback i accountId token action pending hjob found =>
    rw [hjob] at hnone
    exact absurd hnone (by simp [Job.session])
  | disconnect action hjob room => exact room

/-- A step that runs a job queues none. -/
theorem not_pushes_job {r' : RoomRef} : ¬ Pushes srv (.job r') env r s job := by
  intro h
  cases h with
  | packet packet action sent => exact absurd action (by simp)
  | callback i accountId token action pending hjob found => exact absurd action (by simp)
  | disconnect action hjob room => exact absurd action (by simp)

theorem auth_roomEnter (roomName : Option Bytes) :
    (srv.handleCRoomEnter env s cfg roomName).auth = srv.auth := by
  cases roomName with
  | none => rfl
  | some name =>
    unfold Server.handleCRoomEnter
    simp only
    split
    · rfl
    · cases (srv.world.session s).room with
      | none => rfl
      | some prev => rfl

/-- A token comes from the login packet of its session. -/
theorem auth_packet {packet : ClientPacket} {e : SessionRef × Bytes}
    (he : e ∈ (srv.handlePacket env s cfg packet).auth) :
    e ∈ srv.auth ∨ (s = e.1 ∧ packet = .login (some e.2)) := by
  have hkept : (∀ password, packet ≠ .login password) →
      (srv.handlePacket env s cfg packet).auth = srv.auth := by
    intro hnot
    cases packet with
    | login password => exact absurd rfl (hnot password)
    | chat message => unfold Server.handlePacket Server.handleCChat; simp only; split <;> rfl
    | roomEnter roomName => exact auth_roomEnter roomName
    | roomLeave => unfold Server.handlePacket Server.handleCRoomLeave; simp only; split <;> rfl
    | move position => unfold Server.handlePacket Server.handleCMove; simp only; split <;> rfl
    | ping payload => unfold Server.handlePacket Server.handleCPing; simp only; split <;> rfl
    | roomList => rfl
    | ready =>
      unfold Server.handlePacket Server.handleCReady
      simp only
      split
      · rfl
      · split <;> rfl
  by_cases hlogin : ∃ password, packet = .login password
  · obtain ⟨password, rfl⟩ := hlogin
    change e ∈ (srv.handleCLogin env s password).auth at he
    unfold Server.handleCLogin at he
    split at he
    · exact Or.inl he
    · split at he
      · exact Or.inl he
      · rcases List.mem_append.mp he with he | he
        · exact Or.inl he
        · rw [List.mem_singleton.mp he]
          exact Or.inr ⟨rfl, rfl⟩
  · rw [hkept fun password hpacket => hlogin ⟨password, hpacket⟩] at he
    exact Or.inl he

theorem tokens_next (h : next cfg srv (a, env) = some srv') {e : SessionRef × Bytes}
    (he : e ∈ srv'.auth) : e ∈ srv.auth ∨ a = .packet e.1 (.login (some e.2)) := by
  rcases auth_next h he with hold | ⟨packet, rfl⟩
  · exact Or.inl hold
  · obtain ⟨srv₁, hacts, rfl⟩ := next_acts h
    cases hacts with
    | packet packet accepted =>
      rcases auth_packet he with hold | ⟨-, rfl⟩
      · exact Or.inl hold
      · exact Or.inr rfl

/-- A session that is there behind a step was there before, or is as it is constructed. -/
theorem accepted_next (h : next cfg srv (a, env) = some srv') (hs : s < srv'.nextSession) :
    s < srv.nextSession ∨ (srv'.account s = [] ∧ srv'.roomOf s = none) := by
  by_cases hold : s < srv.nextSession
  · exact Or.inl hold
  · obtain ⟨srv₁, hacts, rfl⟩ := next_acts h
    change s < srv₁.nextSession at hs
    cases hacts with
    | accept token =>
      cases token with
      | false => exact absurd hs hold
      | true =>
        have hnew : s = srv.nextSession := le_antisymm (Nat.lt_succ_iff.mp hs) (not_lt.mp hold)
        have hsession : (srv.handleAccept true).world.session s =
            { ServerSession.new with sessionId := srv.sessionManager.nextSessionId } := by
          rw [hnew]
          exact Function.update_self _ _ _
        right
        constructor
        · show ((srv.handleAccept true).world.session s).accountId = []
          rw [hsession]
          rfl
        · show ((srv.handleAccept true).world.session s).room = none
          rw [hsession]
          rfl
    | packet packet accepted =>
      rw [(handled_packet cfg packet srv).nextSession] at hs
      exact absurd hs hold
    | authCallback valid accountId pending =>
      rw [nextSession_callback] at hs
      exact absurd hs hold
    | disconnect accepted =>
      rw [nextSession_disconnect] at hs
      exact absurd hs hold
    | job queue => exact absurd hs hold
    | tickEnd => exact absurd hs hold
    | removeIdleRooms => exact absurd hs hold

/-- A valid callback has an account to deliver. -/
theorem login_nonempty {accountId : Bytes} (h : next cfg srv (a, env) = some srv')
    (hlogin : srv.loggingIn a = some (s, accountId)) : accountId ≠ [] := by
  rintro rfl
  obtain ⟨i, token, rfl, hpending⟩ := callback_of_loggingIn hlogin
  unfold next at h
  split at h
  · exact absurd h (by simp)
  · simp [act, hpending] at h

end

end RealtimeServer
