import RealtimeServer.Core.Outbound
import RealtimeServer.Game.IdleRooms
import RealtimeServer.Game.Replies

/-!
# Requests and their answers

A `C_LOGIN`, a `C_PING` and a `C_ROOM_LEAVE` are answered by one packet each, but not where they are
handled: a login is answered by the callback of its validation, and a leave by the tick of the room.

* `Server.owed s request`: the answers still under way, as pending validations and queued jobs.
* `Adds s request n srv srv'`: from `srv` to `srv'` a connected session was answered, or is owed,
  `n` times more. Every call of a handler has its own `n`, and they add up.
* **`requests_answered`**: at any point of any run, a session that is connected has got one answer
  for each request it has made, but for those still under way: no answer is lost, made twice or
  made without a request.
-/

namespace RealtimeServer

open Unordered Guarded

/-- The requests that are answered by one packet. -/
inductive Request
  | login | ping | leave
  deriving DecidableEq

/-- The packet that answers the request. -/
def Request.answer : Request → PacketID
  | login => .sLogin
  | ping => .sPong
  | leave => .sRoomLeave

/-- The request a packet makes; without a timestamp, a ping is none. -/
def ClientPacket.request : ClientPacket → Option Request
  | .login (some _) => some .login
  | .ping payload => if 8 ≤ payload.length then some .ping else none
  | .roomLeave => some .leave
  | _ => none

/-- The action is a packet of the session that makes the request. -/
def Action.Asks (s : SessionRef) (request : Request) : Action → Prop
  | .packet t read => t = s ∧ read.request = some request
  | _ => False

instance (s : SessionRef) (request : Request) : DecidablePred (Action.Asks s request) := fun a => by
  unfold Action.Asks
  split <;> infer_instance

/-- How often the session has made the request. -/
def asked (s : SessionRef) (request : Request) (steps : List (Action × Env)) : Nat :=
  steps.countP fun step => step.1.Asks s request

/-- How many packets of this kind the session was sent. -/
def World.countTo (w : World) (s : SessionRef) (id : PacketID) : Nat :=
  w.sent.countP fun packet => IsTo s id packet

/-- How many jobs in all queues are this one. -/
def RoomManager.queuedJobs (m : RoomManager) (job : Job) : Nat :=
  (m.heap.map fun room => room.jobQueue.count job).sum

/-- The answers that are under way. -/
def Server.owed (srv : Server) (s : SessionRef) : Request → Nat
  | .login => srv.auth.countP fun e => e.1 = s
  | .ping => 0
  | .leave => srv.rooms.queuedJobs (.leaveAndAck s)

/-- Answered, or still owed. -/
def Server.due (srv : Server) (s : SessionRef) (request : Request) : Nat :=
  srv.world.countTo s request.answer + srv.owed s request

/-! ## Counting -/

section

variable {m : RoomManager} {r : RoomRef} {job pushed : Job} {w w' : World} {s t : SessionRef}
  {id : PacketID}

theorem sum_map_modify {α : Type*} (l : List α) (i : Nat) (f : α → α) (g : α → Nat) :
    ((l.modify i f).map g).sum + (l[i]?.map g).getD 0 =
      (l.map g).sum + (l[i]?.map fun x => g (f x)).getD 0 := by
  induction l generalizing i with
  | nil => simp
  | cons x l ih =>
    cases i with
    | zero => simp; omega
    | succ i =>
      have := ih i
      simp at this ⊢
      omega

/-- One room's queue changes. -/
theorem queuedJobs_modify {f : GameRoom → GameRoom} (hr : r < m.heap.length) :
    (m.modify r f).queuedJobs job + (m.room r).jobQueue.count job =
      m.queuedJobs job + (f (m.room r)).jobQueue.count job := by
  have hsum := sum_map_modify m.heap r f fun room => room.jobQueue.count job
  have hroom : m.heap[r]? = some (m.room r) := by
    unfold RoomManager.room
    rw [List.getD_eq_getElem?_getD, List.getElem?_eq_getElem hr, Option.getD_some]
  rw [hroom] at hsum
  exact hsum

theorem queuedJobs_pushJob (hr : r < m.heap.length) : (m.pushJob r pushed).queuedJobs job =
    m.queuedJobs job + if pushed = job then 1 else 0 := by
  have hmodify : (m.pushJob r pushed).queuedJobs job + _ = _ :=
    queuedJobs_modify (f := fun room => room.pushJob pushed) hr
  rw [show ((m.room r).pushJob pushed).jobQueue = (m.room r).jobQueue ++ [pushed] from rfl,
    List.count_append, List.count_singleton] at hmodify
  simp only [beq_iff_eq] at hmodify
  omega

/-- The queue of no room changes as to this job. -/
theorem queuedJobs_modify_same {f : GameRoom → GameRoom}
    (hf : (f (m.room r)).jobQueue.count job = (m.room r).jobQueue.count job) :
    (m.modify r f).queuedJobs job = m.queuedJobs job := by
  by_cases hr : r < m.heap.length
  · have hmodify : (m.modify r f).queuedJobs job + _ = _ := queuedJobs_modify hr
    omega
  · have hsame : (m.modify r f).heap = m.heap := List.modify_eq_self (not_lt.mp hr)
    unfold RoomManager.queuedJobs
    rw [hsame]

theorem queuedJobs_push_other (hne : pushed ≠ job) :
    (m.pushJob r pushed).queuedJobs job = m.queuedJobs job := by
  refine queuedJobs_modify_same ?_
  change ((m.room r).jobQueue ++ [pushed]).count job = _
  rw [List.count_append, List.count_singleton, if_neg (by simpa using hne), Nat.add_zero]

theorem queuedJobs_getOrCreate {maxRoomPlayers : Int} {name : Bytes} :
    (m.getOrCreate maxRoomPlayers name).2.queuedJobs job = m.queuedJobs job := by
  unfold RoomManager.getOrCreate
  cases m.rooms.lookup name with
  | some r => rfl
  | none => simp [RoomManager.queuedJobs, GameRoom.new]

theorem queuedJobs_eq_zero : m.queuedJobs job = 0 ↔ ∀ r, job ∉ (m.room r).jobQueue := by
  unfold RoomManager.queuedJobs
  rw [List.sum_eq_zero_iff_forall_eq_nat]
  constructor
  · intro hnone r hjob
    have hr := RoomManager.lt_of_queued hjob
    have hroom : m.room r = m.heap[r] := by
      unfold RoomManager.room
      rw [List.getD_eq_getElem?_getD, List.getElem?_eq_getElem hr, Option.getD_some]
    rw [hroom] at hjob
    have hcount := hnone _ (List.mem_map_of_mem (List.getElem_mem hr))
    exact List.count_eq_zero.mp hcount hjob
  · intro hnone n hn
    obtain ⟨room, hroom, rfl⟩ := List.mem_map.mp hn
    obtain ⟨r, hr, rfl⟩ := List.mem_iff_getElem.mp hroom
    refine List.count_eq_zero.mpr fun hjob => hnone r ?_
    unfold RoomManager.room
    rwa [List.getD_eq_getElem?_getD, List.getElem?_eq_getElem hr, Option.getD_some]

theorem Gets.countTo {payloads : List Bytes} (h : Gets s id payloads w w')
    (hup : (w'.session s).disconnected = false) :
    w'.countTo s id = w.countTo s id + payloads.length := by
  obtain ⟨packets, hsent⟩ := h.sent
  have hreceived := congrArg List.length (h.received hup)
  unfold World.received at hreceived
  rw [← hsent, List.drop_left, List.length_map, ← List.countP_eq_length_filter] at hreceived
  unfold World.countTo
  rw [← hsent, List.countP_append, hreceived]

theorem countTo_sentTo (w : World) : w.countTo s id = (w.sentTo s).countP fun bytes =>
    (PacketHeader.ofBytes bytes).packetId = id.toUInt16 := by
  unfold World.countTo World.sentTo
  rw [List.countP_map, List.countP_filter]
  refine List.countP_congr fun packet _ => ?_
  simp only [IsTo, Function.comp, decide_eq_true_eq, Bool.and_eq_true]
  exact decide_eq_true_iff.trans and_comm

/-- Packets of other kinds. -/
theorem Emits.countTo {P : PacketID → Bytes → Prop} (h : Emits P w w')
    (hnot : ∀ payload, ¬ P id payload) : w'.countTo s id = w.countTo s id := by
  obtain ⟨packets, hsent, hall⟩ := h
  unfold World.countTo
  rw [hsent, List.countP_append, Nat.add_eq_left, List.countP_eq_zero]
  rintro ⟨t, bytes⟩ hp
  obtain ⟨id', payload, rfl, hP⟩ := hall _ hp
  rw [decide_eq_true_eq, isTo_frame]
  rintro ⟨-, rfl⟩
  exact hnot payload hP

/-- What a room calls is of the kinds said. -/
theorem RoomCalls.emits {T : Bytes → Prop} {K : PacketID → Prop} {env : Env}
    {own : Option SessionRef} {members : IterSet SessionRef}
    (h : RoomCalls T K env own members w w') : Emits (fun id _ => K id) w w' := by
  induction h with
  | refl w => exact .refl _ w
  | trans h h' ih ih' => exact ih.trans ih'
  | setRoom w room mine => exact .of_sent_eq rfl
  | send w mine kind texts => exact .send env _ w kind
  | broadcast w same kind texts => exact .broadcast w kind
  | broadcastExcept w same mine kind texts => exact .broadcastExcept w kind
  | broadcastShared w same kind texts => exact .broadcastShared w kind
  | sendRawBroadcast w same kind raw => exact .sendRawBroadcast w kind

end

/-! ## Handlers -/

/-- From `srv` to `srv'` a session that stays connected was answered, or became owed, `n` times. -/
structure Adds (s : SessionRef) (request : Request) (n : Nat) (srv srv' : Server) : Prop where
  down : srv.Down s → srv'.Down s
  due : ¬ srv'.Down s → srv'.due s request = srv.due s request + n

section

variable {cfg : Config} {env : Env} {srv srv' srv'' : Server} {s t : SessionRef}
  {request : Request} {n k : Nat}

namespace Adds

theorem refl (s : SessionRef) (request : Request) (srv : Server) : Adds s request 0 srv srv :=
  ⟨id, fun _ => rfl⟩

theorem trans (h : Adds s request n srv srv') (h' : Adds s request k srv' srv'') :
    Adds s request (n + k) srv srv'' := by
  refine ⟨fun hd => h'.down (h.down hd), fun hup => ?_⟩
  rw [h'.due hup, h.due fun hd => hup (h'.down hd), Nat.add_assoc]

theorem then_none (h : Adds s request n srv srv') (h' : Adds s request 0 srv' srv'') :
    Adds s request n srv srv'' := h.trans h'

theorem none_then (h : Adds s request 0 srv srv') (h' : Adds s request n srv' srv'') :
    Adds s request n srv srv'' := by
  have hboth := h.trans h'
  rwa [Nat.zero_add] at hboth

/-- Nothing is sent. -/
theorem of_same (hsent : srv'.world.sent = srv.world.sent) (hdown : srv.Down s → srv'.Down s)
    (howed : srv'.owed s request = srv.owed s request) : Adds s request 0 srv srv' := by
  refine ⟨hdown, fun _ => ?_⟩
  unfold Server.due World.countTo
  rw [hsent, howed, Nat.add_zero]

/-- The world is left alone. -/
theorem of_owed (hworld : srv'.world = srv.world)
    (howed : srv'.owed s request = srv.owed s request + n) : Adds s request n srv srv' := by
  refine ⟨fun hd => ?_, fun _ => ?_⟩
  · unfold Server.Down
    rwa [hworld]
  · unfold Server.due
    rw [hworld, howed, Nat.add_assoc]

/-- Only the world changes. -/
theorem of_sent {w : World} {payloads : List Bytes}
    (h : Gets s request.answer payloads srv.world w) :
    Adds s request payloads.length srv { srv with world := w } := by
  refine ⟨h.down, fun hup => ?_⟩
  have howed : Server.owed { srv with world := w } s request = srv.owed s request := by
    cases request <;> rfl
  unfold Server.due
  rw [howed, h.countTo (Bool.eq_false_iff.mpr hup)]
  omega

/-- A send of an answer that fits. -/
theorem send {message : ServerMessage} (hfits : message.Fits) (srv : Server) :
    Adds s request (if t = s ∧ message.packetId = request.answer then 1 else 0) srv
      (srv.send env t message) := by
  have hsend : Adds s request _ srv (srv.send env t message) :=
    of_sent (Gets.send env t message srv.world)
  by_cases hto : t = s ∧ message.packetId = request.answer
  · rw [if_pos ⟨hto.1, hto.2, hfits⟩] at hsend
    rw [if_pos hto]
    exact hsend
  · rw [if_neg fun h => hto ⟨h.1, h.2.1⟩] at hsend
    rw [if_neg hto]
    exact hsend

/-- A send that is no answer. -/
theorem send_other {message : ServerMessage} (h : message.packetId ≠ request.answer)
    (srv : Server) : Adds s request 0 srv (srv.send env t message) :=
  of_sent (Gets.send_other h env t srv.world)

/-- A push of a job that answers nothing. -/
theorem pushJob {r : RoomRef} {job : Job} (hne : job ≠ .leaveAndAck s) (srv : Server) :
    Adds s request 0 srv (srv.pushJob r job) := by
  refine of_owed rfl ?_
  cases request with
  | login => rfl
  | ping => rfl
  | leave => exact queuedJobs_push_other hne

theorem getOrCreate {name : Bytes} (srv : Server) : Adds s request 0 srv
    { srv with rooms := (srv.rooms.getOrCreate cfg.maxRoomPlayers name).2 } := by
  refine of_owed rfl ?_
  cases request with
  | login => rfl
  | ping => rfl
  | leave => exact queuedJobs_getOrCreate

end Adds

/-- Every pointer leads to a room that was created. -/
def RoomsExist (srv : Server) : Prop := ∀ s r, srv.roomOf s = some r → r < srv.rooms.heap.length

theorem fits_login {success : Bool} {text : Bytes} (h : text.length < 128) :
    (ServerMessage.login success text).Fits := by
  have hfield := fieldSize_le h
  have hflag : (boolField 1 success).length ≤ 2 := by cases success <;> decide
  unfold ServerMessage.Fits ServerMessage.serialize headerSize maxBufSize
  rw [List.length_append, length_stringField]
  omega

/-- **What a packet adds**: the request it makes. -/
theorem adds_packet (hexist : RoomsExist srv) (packet : ClientPacket) :
    Adds s request (if t = s ∧ packet.request = some request then 1 else 0) srv
      (srv.handlePacket env t cfg packet) := by
  cases packet with
  | login password =>
    change Adds _ _ _ _ (srv.handleCLogin env t password)
    unfold Server.handleCLogin
    cases password with
    | none =>
      rw [if_neg (by simp [ClientPacket.request])]
      exact .refl s request srv
    | some token =>
      have hasks : (t = s ∧ ClientPacket.request (.login (some token)) = some request) ↔
          t = s ∧ request = .login := by
        simp [ClientPacket.request, eq_comm]
      rw [if_congr hasks rfl rfl]
      by_cases hempty : token = []
      · simp only [if_pos hempty]
        have hshort : (utf8
            "session_token이 비어 있습니다. 먼저 session-server에 로그인하세요.").length < 128 := by
          decide +kernel
        have hsend : Adds s request _ srv (srv.send env t (.login false (utf8
            "session_token이 비어 있습니다. 먼저 session-server에 로그인하세요."))) :=
          Adds.send (fits_login hshort) srv
        have hanswer : (t = s ∧ PacketID.sLogin = request.answer) ↔ t = s ∧ request = .login := by
          cases request <;> simp [Request.answer]
        rw [← if_congr hanswer rfl rfl]
        exact hsend
      · simp only [if_neg hempty]
        refine .of_owed rfl ?_
        cases request with
        | login =>
          change (srv.auth ++ [(t, token)]).countP _ = srv.auth.countP _ + _
          rw [List.countP_append, List.countP_singleton]
          simp
        | ping => simp [Server.owed]
        | leave => simp [Server.owed]
  | chat message =>
    change Adds _ _ _ _ (srv.handleCChat t message)
    rw [if_neg (by simp [ClientPacket.request])]
    unfold Server.handleCChat
    split
    · exact .pushJob (by simp) srv
    · exact .refl s request srv
  | roomEnter roomName =>
    change Adds _ _ _ _ (srv.handleCRoomEnter env t cfg roomName)
    rw [if_neg (by simp [ClientPacket.request])]
    unfold Server.handleCRoomEnter
    split
    · exact .refl s request srv
    · split
      · refine .send_other ?_ srv
        cases request <;> simp [ServerMessage.packetId, Request.answer]
      · cases (srv.world.session t).room with
        | none => exact (Adds.getOrCreate srv).then_none (.pushJob (by simp) _)
        | some prev =>
          exact ((Adds.pushJob (by simp) srv).then_none (.getOrCreate _)).then_none
            (.pushJob (by simp) _)
  | roomLeave =>
    change Adds _ _ _ _ (srv.handleCRoomLeave env t)
    have hasks : (t = s ∧ ClientPacket.request .roomLeave = some request) ↔
        t = s ∧ request = .leave := by
      simp [ClientPacket.request, eq_comm]
    rw [if_congr hasks rfl rfl]
    unfold Server.handleCRoomLeave
    cases hroom : (srv.world.session t).room with
    | none =>
      have hsend : Adds s request _ srv (srv.send env t (.roomLeave false)) :=
        Adds.send (by decide) srv
      have hanswer : (t = s ∧ PacketID.sRoomLeave = request.answer) ↔
          t = s ∧ request = .leave := by
        cases request <;> simp [Request.answer]
      rw [← if_congr hanswer rfl rfl]
      exact hsend
    | some r =>
      refine .of_owed rfl ?_
      cases request with
      | login => simp [Server.owed, Server.pushJob]
      | ping => simp [Server.owed]
      | leave =>
        have hpushed : (srv.rooms.pushJob r (.leaveAndAck t)).queuedJobs (.leaveAndAck s) = _ :=
          queuedJobs_pushJob (hexist t r hroom)
        simp only [Job.leaveAndAck.injEq] at hpushed
        simp only [and_true]
        exact hpushed
  | move position =>
    change Adds _ _ _ _ (srv.handleCMove t position)
    rw [if_neg (by simp [ClientPacket.request])]
    unfold Server.handleCMove
    split
    · exact .pushJob (by simp) srv
    · exact .refl s request srv
  | ping payload =>
    change Adds _ _ _ _ (srv.handleCPing env t payload)
    unfold Server.handleCPing
    by_cases hshort : payload.length < 8
    · rw [if_pos hshort, if_neg (by simp [ClientPacket.request, not_le.mpr hshort])]
      exact .refl s request srv
    · have hfits : headerSize +
          (payload.take 8 ++ leBytes 8 env.systemNow.toNat).length ≤ maxBufSize := by
        rw [List.length_append, length_leBytes, List.length_take]
        unfold headerSize maxBufSize
        omega
      have hsend : Adds s request _ srv
          { srv with world := (srv.world.sendRaw env t .sPong
              (payload.take 8 ++ leBytes 8 env.systemNow.toNat)) } :=
        Adds.of_sent (Gets.sendRaw env t .sPong _ srv.world)
      rw [if_neg hshort]
      have hasks : (t = s ∧ ClientPacket.request (.ping payload) = some request) ↔
          t = s ∧ PacketID.sPong = request.answer := by
        cases request <;> simp [ClientPacket.request, Request.answer, not_lt.mp hshort]
      rw [if_congr hasks rfl rfl]
      by_cases hto : t = s ∧ PacketID.sPong = request.answer
      · rw [if_pos ⟨hto.1, hto.2, hfits⟩] at hsend
        rw [if_pos hto]
        exact hsend
      · rw [if_neg fun h => hto ⟨h.1, h.2.1⟩] at hsend
        rw [if_neg hto]
        exact hsend
  | roomList =>
    rw [if_neg (by simp [ClientPacket.request])]
    have hnot : PacketID.sRoomList ≠ request.answer := by
      cases request <;> simp [Request.answer]
    unfold Server.handlePacket Server.handleCRoomList
    have hsend : ∀ data, Gets s request.answer [] srv.world
        (srv.world.sendRaw env t .sRoomList data) := by
      intro data
      have hraw : Gets s request.answer _ srv.world (srv.world.sendRaw env t .sRoomList data) :=
        Gets.sendRaw env t .sRoomList data srv.world
      rwa [if_neg fun h => hnot h.2.1] at hraw
    exact .of_sent (hsend _)
  | ready =>
    change Adds _ _ _ _ (srv.handleCReady t)
    rw [if_neg (by simp [ClientPacket.request])]
    unfold Server.handleCReady
    split
    · exact .refl s request srv
    · split
      · exact .refl s request srv
      · exact .pushJob (by simp) srv

/-- **The callback of a login** makes an answer out of a pending validation. -/
theorem adds_callback {i : Nat} {token : Bytes} (valid : Bool) (accountId : Bytes)
    (pending : srv.auth[i]? = some (t, token)) : Adds s request 0 srv
      ({ srv with auth := srv.auth.eraseIdx i }.loginCallback env t valid accountId) := by
  have hanswers : ∀ srv : Server, Adds s request
      (if t = s ∧ PacketID.sLogin = request.answer then 1 else 0) srv
      (srv.loginCallback env t valid accountId) := by
    intro srv
    have hlogin : Adds s request 0 srv
        { srv with world := srv.world.setAccountId t accountId } := by
      have hsame : Gets s request.answer [] srv.world (srv.world.setAccountId t accountId) := by
        refine .of_same rfl ?_
        by_cases hts : s = t
        · rw [hts, World.session_setAccountId_self]
        · rw [World.session_setAccountId_ne hts]
      exact .of_sent hsame
    unfold Server.loginCallback
    cases valid with
    | false =>
      have hshort : (utf8 "유효하지 않은 session_token입니다.").length < 128 := by decide +kernel
      exact .send (fits_login hshort) srv
    | true =>
      simp only [if_true]
      cases srv.rooms.findReconnect env accountId with
      | some r =>
        have hshort : (utf8 "reconnected").length < 128 := by decide +kernel
        exact (hlogin.then_none (.pushJob (by simp) _)).none_then (.send (fits_login hshort) _)
      | none =>
        have hshort : (utf8 "Login OK.").length < 128 := by decide +kernel
        exact hlogin.none_then (.send (fits_login hshort) _)
  have howed : srv.owed s request = { srv with auth := srv.auth.eraseIdx i }.owed s request +
      if t = s ∧ PacketID.sLogin = request.answer then 1 else 0 := by
    cases request with
    | login =>
      obtain ⟨hi, hentry⟩ := List.getElem?_eq_some_iff.mp pending
      have hperm := (List.getElem_cons_eraseIdx_perm hi).countP_eq fun e => decide (e.1 = s)
      rw [hentry, List.countP_cons] at hperm
      simpa [Server.owed, Request.answer] using hperm.symm
    | ping => simp [Server.owed, Request.answer]
    | leave => simp [Server.owed, Request.answer]
  have hcallback := hanswers { srv with auth := srv.auth.eraseIdx i }
  refine ⟨hcallback.down, fun hup => ?_⟩
  rw [hcallback.due hup]
  unfold Server.due
  rw [howed, Nat.add_zero, Nat.add_assoc]

theorem adds_disconnect : Adds s request 0 srv (srv.handleDisconnect t) := by
  unfold Server.handleDisconnect
  split
  · exact .refl s request srv
  · have hgone : Adds s request 0 srv { srv with
        world := Server.countOut (srv.world.disconnect t)
        sessionManager := srv.sessionManager.remove (srv.world.session t).sessionId } := by
      refine .of_same rfl (fun hdown => ?_) (by cases request <;> rfl)
      by_cases hts : s = t
      · change ((srv.world.disconnect t).session s).disconnected = true
        rw [hts, World.session_disconnect_self]
      · change ((srv.world.disconnect t).session s).disconnected = true
        rwa [World.session_disconnect_ne hts]
    simp only
    split
    · exact hgone
    · refine hgone.then_none (.then_none ?_ (.pushJob (by simp) _))
      refine .of_same rfl (fun hdown => ?_) (by cases request <;> rfl)
      unfold Server.Down
      rw [World.disconnected_setRoom]
      exact hdown

/-- What a job answers. -/
theorem countTo_run {r : RoomRef} {room : GameRoom} {w : World} {job : Job}
    (hup : ((job.run env r room w).2.session s).disconnected = false) :
    (job.run env r room w).2.countTo s request.answer =
      w.countTo s request.answer + if job = .leaveAndAck s ∧ request = .leave then 1 else 0 := by
  have hworded := GameRoom.worded_any room w
  have hother : ¬ job.Sends request.answer →
      (job.run env r room w).2.countTo s request.answer = w.countTo s request.answer :=
    fun hnot => (calls_job hworded fun _ _ => trivial).emits.countTo fun _ => hnot
  cases job with
  | leaveAndAck t =>
    by_cases hleave : request = .leave
    · subst hleave
      have hleft : (room.handleLeave env t w).2.countTo s .sRoomLeave = w.countTo s .sRoomLeave :=
        (GameRoom.calls_leave hworded).emits.countTo fun _ => by simp [PacketID.Notice]
      have hsend : Gets s .sRoomLeave _ (room.handleLeave env t w).2 _ :=
        Gets.send env t (.roomLeave true) (room.handleLeave env t w).2
      have hcount := hsend.countTo hup
      have hfits : (ServerMessage.roomLeave true).Fits := by decide
      have hpacket : (ServerMessage.roomLeave true).packetId = .sRoomLeave := rfl
      change ((room.handleLeave env t w).2.send env t (.roomLeave true)).countTo s .sRoomLeave = _
      rw [hcount, hleft]
      simp only [hfits, hpacket, and_true, Request.answer, Job.leaveAndAck.injEq]
      split <;> rfl
    · rw [if_neg fun h => hleave h.2, Nat.add_zero]
      refine hother ?_
      cases request <;> simp_all [Request.answer, Job.Sends, PacketID.Notice]
  | _ =>
    rw [if_neg (by simp), Nat.add_zero]
    refine hother ?_
    cases request <;> simp [Request.answer, Job.Sends, PacketID.Notice]

/-- **A job** makes an answer out of a leave that was queued. -/
theorem adds_job {r : RoomRef} {job : Job} {jobs : List Job}
    (queue : (srv.room r).jobQueue = job :: jobs) :
    Adds s request 0 srv (srv.runJob env r job jobs) := by
  refine ⟨Job.down_run, fun hup => ?_⟩
  have hcount : (srv.runJob env r job jobs).world.countTo s request.answer = _ :=
    countTo_run (Bool.eq_false_iff.mpr hup)
  unfold Server.due
  rw [hcount, Nat.add_assoc, Nat.add_assoc, Nat.add_left_cancel_iff]
  cases request with
  | login => simp [Server.owed, Server.runJob, Server.inRoom]
  | ping => simp [Server.owed]
  | leave =>
    have hmodify : (srv.runJob env r job jobs).rooms.queuedJobs (.leaveAndAck s) + _ = _ :=
      queuedJobs_modify (RoomManager.lt_of_head queue)
    rw [Job.jobQueue_run] at hmodify
    change _ + (srv.room r).jobQueue.count _ = _ + jobs.count _ at hmodify
    rw [queue, List.count_cons] at hmodify
    simp only [beq_iff_eq] at hmodify
    simp only [Server.owed, and_true]
    omega

theorem adds_tickEnd {r : RoomRef} : Adds s request 0 srv (srv.tickEnd env cfg r) := by
  have hcalls : RoomCalls (fun _ => True) PacketID.Notice env none (srv.room r).members srv.world
      ((srv.room r).tickEnd env cfg.reconnectWindowMs srv.world).2 :=
    calls_tickEnd (fun _ _ => trivial) cfg.reconnectWindowMs
  refine ⟨hcalls.down s, fun _ => ?_⟩
  have hcount : (srv.tickEnd env cfg r).world.countTo s request.answer =
      srv.world.countTo s request.answer := by
    refine hcalls.emits.countTo fun _ => ?_
    cases request <;> simp [Request.answer, PacketID.Notice]
  have howed : (srv.tickEnd env cfg r).owed s request = srv.owed s request := by
    cases request with
    | login => rfl
    | ping => rfl
    | leave =>
      refine queuedJobs_modify_same ?_
      rw [(GameRoom.tickEnd_spec cfg.reconnectWindowMs).1]
      rfl
  unfold Server.due
  rw [hcount, howed, Nat.add_zero]

/-! ## Whole runs -/

variable {a : Action}

/-- **What a step adds** for a session it does not just accept. -/
theorem adds_next (hs : s < srv.nextSession) (hexist : RoomsExist srv)
    (h : next cfg srv (a, env) = some srv') :
    Adds s request (if a.Asks s request then 1 else 0) srv srv' := by
  obtain ⟨srv₁, hacts, rfl⟩ := next_acts h
  -- reading the clock adds nothing
  have hclock : Adds s request 0 srv₁ { srv₁ with clock := env.later } :=
    .of_same rfl id (by cases request <;> rfl)
  refine .then_none ?_ hclock
  cases hacts with
  | accept token =>
    rw [if_neg (by simp [Action.Asks])]
    refine .of_same ?_ (fun hdown => ?_) ?_
    · unfold Server.handleAccept
      cases token <;> rfl
    · unfold Server.Down
      rwa [session_accept hs]
    · unfold Server.handleAccept
      cases request <;> cases token <;> rfl
  | packet packet accepted => exact adds_packet hexist packet
  | authCallback valid accountId pending =>
    rw [if_neg (by simp [Action.Asks])]
    exact adds_callback valid accountId pending
  | disconnect accepted =>
    rw [if_neg (by simp [Action.Asks])]
    exact adds_disconnect
  | job queue =>
    rw [if_neg (by simp [Action.Asks])]
    exact adds_job queue
  | tickEnd =>
    rw [if_neg (by simp [Action.Asks])]
    exact adds_tickEnd
  | removeIdleRooms =>
    rw [if_neg (by simp [Action.Asks])]
    exact .of_same rfl id (by cases request <;> rfl)

theorem length_heap_le (h : next cfg srv (a, env) = some srv') :
    srv.rooms.heap.length ≤ srv'.rooms.heap.length := by
  by_cases hpacket : ∃ t packet, a = .packet t packet
  · obtain ⟨t, packet, rfl⟩ := hpacket
    obtain ⟨srv₁, hacts, rfl⟩ := next_acts h
    cases hacts with
    | packet packet accepted => exact (handled_packet cfg packet srv).rooms.grows
  · exact (length_heap h fun t packet ha => hpacket ⟨t, packet, ha⟩).ge

theorem roomsExist_next (hexist : RoomsExist srv) (h : next cfg srv (a, env) = some srv') :
    RoomsExist srv' := by
  intro t r hroom
  refine lt_of_lt_of_le ?_ (length_heap_le h)
  rcases roomOf_next h hroom with hold | ⟨job, hjob, -⟩
  · exact hexist t r hold
  · exact RoomManager.lt_of_queued (mem_of_running hjob)

/-- Nothing is owed to a session that is not accepted yet. -/
theorem owed_of_unborn (hb : Born srv) (hs : srv.nextSession ≤ s) : srv.owed s request = 0 := by
  cases request with
  | login =>
    refine List.countP_eq_zero.mpr fun e he => ?_
    rw [decide_eq_true_eq]
    rintro rfl
    exact absurd (hb.auth e he) (not_lt.mpr hs)
  | ping => rfl
  | leave =>
    exact queuedJobs_eq_zero.mpr fun r hqueued =>
      absurd (hb.jobs r _ hqueued s rfl) (not_lt.mpr hs)

/-- Who may be sent to has been accepted. -/
theorem audience_born (hb : Born srv) (h : next cfg srv (a, env) = some srv')
    (haudience : srv.Audience srv' a s) : s < srv.nextSession := by
  cases a with
  | accept token => exact haudience.elim
  | disconnect t => exact haudience.elim
  | removeIdleRooms => exact haudience.elim
  | packet t packet =>
    rw [show s = t from haudience]
    exact actor_next h (Or.inl ⟨packet, rfl⟩)
  | authCallback i valid accountId =>
    obtain ⟨token, hpending⟩ := haudience
    exact hb.auth (s, token) (List.mem_of_getElem? hpending)
  | tickEnd r => exact hb.members r s haudience
  | job r =>
    rcases haudience with hmem | ⟨job, hjob, hown⟩
    · rcases (members_next h).mp hmem with htakes | ⟨hmem, -⟩
      · exact session_of_takesIn hb htakes
      · exact hb.members r s hmem
    · exact hb.jobs r job (mem_of_running hjob) s hown

/-- Nor is anything sent to it, or asked by it. -/
theorem countTo_unborn {id : PacketID} (hb : Born srv) (hs : srv.nextSession ≤ s)
    (h : next cfg srv (a, env) = some srv') :
    srv'.world.countTo s id = srv.world.countTo s id ∧ ¬ a.Asks s request := by
  have hout : ¬ srv.Audience srv' a s := fun haudience =>
    absurd hs (not_le.mpr (audience_born hb h haudience))
  refine ⟨by rw [countTo_sentTo, countTo_sentTo, sentTo_next h (Or.inr hout)], fun hasks => ?_⟩
  cases a with
  | packet t packet => exact hout hasks.1.symm
  | _ => exact hasks.elim

theorem asked_snoc {steps : List (Action × Env)} : asked s request (steps ++ [(a, env)]) =
    asked s request steps + if a.Asks s request then 1 else 0 := by
  unfold asked
  rw [List.countP_append, List.countP_singleton]
  simp only [decide_eq_true_eq]

/-- What is said of one session at some point of a run. -/
structure AnsweredOnce (steps : List (Action × Env)) (srv : Server) (s : SessionRef)
    (request : Request) : Prop where
  exist : RoomsExist srv
  /-- Before it is accepted. -/
  unborn : srv.nextSession ≤ s →
    srv.world.countTo s request.answer = 0 ∧ asked s request steps = 0
  due : s < srv.nextSession → ¬ srv.Down s → srv.due s request = asked s request steps

theorem answeredOnce_empty : AnsweredOnce [] .empty s request where
  exist := fun t r hroom => absurd hroom (by simp [Server.empty, Server.roomOf, ServerSession.new])
  unborn _ := ⟨rfl, rfl⟩
  due hs := absurd hs (Nat.not_lt_zero s)

theorem answeredOnce_next {steps : List (Action × Env)} (hb : Born srv)
    (hi : AnsweredOnce steps srv s request) (h : next cfg srv (a, env) = some srv') :
    AnsweredOnce (steps ++ [(a, env)]) srv' s request where
  exist := roomsExist_next hi.exist h
  unborn hs := by
    have hbefore := (nextSession_next h).trans hs
    obtain ⟨hcount, hasks⟩ : srv'.world.countTo s request.answer = _ ∧ ¬ a.Asks s request :=
      countTo_unborn hb hbefore h
    rw [asked_snoc, if_neg hasks, Nat.add_zero, hcount]
    exact hi.unborn hbefore
  due hs hup := by
    rw [asked_snoc]
    by_cases hbefore : s < srv.nextSession
    · have hadds : Adds s request _ srv srv' := adds_next hbefore hi.exist h
      rw [hadds.due hup, hi.due hbefore fun hdown => hup (hadds.down hdown)]
    · -- the session is accepted by this step
      have hunborn := not_lt.mp hbefore
      obtain ⟨hcount, hasks⟩ : srv'.world.countTo s request.answer = _ ∧ ¬ a.Asks s request :=
        countTo_unborn hb hunborn h
      obtain ⟨hnone, hnever⟩ := hi.unborn hunborn
      have howed : srv'.owed s request = srv.owed s request := by
        obtain ⟨srv₁, hacts, rfl⟩ := next_acts h
        change s < srv₁.nextSession at hs
        cases hacts with
        | accept token =>
          unfold Server.handleAccept
          cases request <;> cases token <;> rfl
        | packet packet accepted =>
          rw [(handled_packet cfg packet srv).nextSession] at hs
          exact absurd hs hbefore
        | authCallback valid accountId pending =>
          rw [nextSession_callback] at hs
          exact absurd hs hbefore
        | disconnect accepted =>
          rw [nextSession_disconnect] at hs
          exact absurd hs hbefore
        | job queue => exact absurd hs hbefore
        | tickEnd => exact absurd hs hbefore
        | removeIdleRooms => exact absurd hs hbefore
      unfold Server.due
      rw [howed, owed_of_unborn hb hunborn, hcount, hnone, hnever, if_neg hasks]

/-- The run lemma. -/
theorem due_of_run {steps : List (Action × Env)} (hrun : run (next cfg) .empty steps = some srv)
    (hup : ¬ srv.Down s) (request : Request) : srv.due s request = asked s request steps := by
  have hanswered : AnsweredOnce steps srv s request := by
    refine run_history (I := fun steps srv => AnsweredOnce steps srv s request)
      answeredOnce_empty ?_ hrun
    rintro steps srv ⟨a, env⟩ srv' hbefore hi h
    exact answeredOnce_next (born_of_run hbefore) hi h
  by_cases hs : s < srv.nextSession
  · exact hanswered.due hs hup
  · obtain ⟨hcount, hasked⟩ := hanswered.unborn (not_lt.mp hs)
    unfold Server.due
    rw [hcount, hasked, owed_of_unborn (born_of_run hrun) (not_lt.mp hs)]

/-- **Every request is answered once.** In any run, a session that is connected has been sent one
packet for each login, ping and leave it asked for, but for those whose validation or job has not
run yet; and it was sent no other. -/
theorem requests_answered {steps : List (Action × Env)}
    (hrun : run (next cfg) .empty steps = some srv) (hup : ¬ srv.Down s) (request : Request) :
    srv.world.countTo s request.answer + srv.owed s request = asked s request steps :=
  due_of_run hrun hup request

/-- A session that has left twice, pinged, and logs in again. -/
def asksAgain : List (Action × Env) :=
  quietly (lobby 1 ++ [.packet 0 .roomLeave, .packet 0 .roomLeave, .job 0,
    .packet 0 (.ping (List.replicate 8 0)), .packet 0 (.login (some [116]))])

theorem requests_answered_asksAgain :
    ∃ srv, run (next ⟨16, 30000, 60000⟩) .empty asksAgain = some srv ∧
      (∀ request, asked 0 request asksAgain = if request = .ping then 1 else 2) ∧
      ∀ request : Request, srv.world.countTo 0 request.answer = 1 := by
  obtain ⟨srv, hrun, hup, hlogin, hleave⟩ :
      ∃ srv, run (next ⟨16, 30000, 60000⟩) .empty asksAgain = some srv ∧ ¬ srv.Down 0 ∧
        srv.owed 0 .login = 1 ∧ srv.owed 0 .leave = 1 := by
    decide +kernel
  have hasked : ∀ request, asked 0 request asksAgain = if request = .ping then 1 else 2 := by
    intro request
    cases request <;> decide +kernel
  refine ⟨srv, hrun, hasked, fun request => ?_⟩
  have hanswered := requests_answered hrun hup request
  rw [hasked] at hanswered
  cases request with
  | login =>
    rw [hlogin] at hanswered
    simpa using hanswered
  | ping => simpa [Server.owed] using hanswered
  | leave =>
    rw [hleave] at hanswered
    simpa using hanswered

end

end RealtimeServer
