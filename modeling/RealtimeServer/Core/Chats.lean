import RealtimeServer.Core.Requests
import RealtimeServer.Game.Validated
import RealtimeServer.Lib.TwoRuns

/-!
# Chats

A `C_CHAT` is a job in the queue of the room its sender points to, and as the job runs an `S_CHAT`
goes to each member of the room.

* `Server.pushed`: the jobs an action queues in a room. **`queue_next`**: a step takes its job from
  the front of the queue, and puts these behind it.
* **`chats_delivered`**: every chat said in a room is queued there, or has run there, once; and a
  session gets one copy for each time it ran in a room of which the session was a member, unless the
  session is disconnected or the packet does not fit.
-/

namespace RealtimeServer

open Unordered Guarded Wire

/-- The job the action runs in the room. -/
def Server.ran (srv : Server) (a : Action) (r : RoomRef) : List Job := (srv.running a r).toList

/-- The jobs the action queues in the room. -/
def Server.pushed (cfg : Config) (env : Env) (srv : Server) (r : RoomRef) : Action → List Job
  | .packet s (.chat (some message)) =>
    if srv.roomOf s = some r then [.chat (srv.account s) message] else []
  | .packet s (.roomEnter (some roomName)) =>
    if srv.account s = [] then []
    else
      (if srv.roomOf s = some r then [.handleLeave s] else []) ++
        if (srv.rooms.getOrCreate cfg.maxRoomPlayers roomName).1 = r then [.handleEnter s] else []
  | .packet s .roomLeave => if srv.roomOf s = some r then [.leaveAndAck s] else []
  | .packet s (.move (some (x, y))) =>
    if srv.roomOf s = some r then [.handleMove (srv.account s) x y] else []
  | .packet s .ready =>
    if srv.account s ≠ [] ∧ srv.roomOf s = some r then [.handleReady (srv.account s)] else []
  | .authCallback i true accountId =>
    match srv.auth[i]? with
    | some (s, _) =>
      if srv.rooms.findReconnect env accountId = some r then [.handleRejoin s] else []
    | none => []
  | .disconnect s => if ¬ srv.Down s ∧ srv.roomOf s = some r then [.handleLeave s] else []
  | _ => []

/-- The rooms in the map were created, and those that are pointed to. -/
structure RoomsCreated (srv : Server) : Prop where
  pointer : RoomsExist srv
  live : ∀ r, srv.rooms.Live r → r < srv.rooms.heap.length

section

variable {cfg : Config} {env : Env} {srv srv' : Server} {a : Action} {r : RoomRef}
  {s t : SessionRef}

/-! ## The queue of a room -/

theorem length_getOrCreate {m : RoomManager} {maxRoomPlayers : Int} {name : Bytes} :
    m.heap.length ≤ (m.getOrCreate maxRoomPlayers name).2.heap.length := by
  unfold RoomManager.getOrCreate
  cases m.rooms.lookup name with
  | some _ => exact le_refl _
  | none => simp

theorem live_of_calls (h : HandlerCalls cfg env s srv srv')
    (hlive : ∀ r, srv.rooms.Live r → r < srv.rooms.heap.length) :
    ∀ r, srv'.rooms.Live r → r < srv'.rooms.heap.length := by
  induction h with
  | refl srv => exact hlive
  | trans h h' ih ih' => exact ih' (ih hlive)
  | send srv answers => exact hlive
  | sendRaw srv answers => exact hlive
  | pushJob srv own =>
    intro r hr
    have hlt := hlive r hr
    rwa [← RoomManager.length_modify] at hlt
  | getOrCreate srv name =>
    intro r hr
    rcases RoomManager.live_of_getOrCreate hr with hold | hnew
    · exact (hlive r hold).trans_le length_getOrCreate
    · exact hnew
  | validateAsync srv token => exact hlive

theorem roomsCreated_empty : RoomsCreated .empty where
  pointer := fun t r hroom =>
    absurd hroom (by simp [Server.empty, Server.roomOf, ServerSession.new])
  live r hr := by
    obtain ⟨key, hkey⟩ := Map.mem_values.mp hr
    exact absurd hkey (by simp [Server.empty, RoomManager.empty])

theorem live_pushed {r' : RoomRef} {job : Job}
    (hlive : ∀ r, srv.rooms.Live r → r < srv.rooms.heap.length) (hr : srv.rooms.Live r) :
    r < (srv.pushJob r' job).rooms.heap.length := by
  have hlt := hlive r hr
  rwa [← RoomManager.length_modify] at hlt

theorem roomsCreated_next (hi : RoomsCreated srv) (h : next cfg srv (a, env) = some srv') :
    RoomsCreated srv' := by
  refine ⟨roomsExist_next hi.pointer h, ?_⟩
  obtain ⟨srv₁, hacts, rfl⟩ := next_acts h
  change ∀ r, srv₁.rooms.Live r → r < srv₁.rooms.heap.length
  cases hacts with
  | accept token =>
    unfold Server.handleAccept
    cases token <;> exact hi.live
  | packet packet accepted => exact live_of_calls (calls_packet cfg packet srv) hi.live
  | authCallback valid accountId pending =>
    unfold Server.loginCallback
    cases valid with
    | false => exact hi.live
    | true =>
      simp only [if_true]
      split
      · exact fun r hr => live_pushed hi.live hr
      · exact hi.live
  | disconnect accepted =>
    unfold Server.handleDisconnect
    split
    · exact hi.live
    · simp only
      split
      · exact hi.live
      · exact fun r hr => live_pushed hi.live hr
  | job queue =>
    intro r hr
    rw [Server.runJob, length_inRoom]
    exact hi.live r hr
  | tickEnd =>
    intro r hr
    rw [Server.tickEnd, length_inRoom]
    exact hi.live r hr
  | removeIdleRooms => exact fun r hr => hi.live r (RoomManager.live_removeIdleRooms.mp hr).1

theorem queue_pushJob {r' : RoomRef} {job : Job} (hr : r' < srv.rooms.heap.length) :
    ((srv.pushJob r' job).room r).jobQueue =
      (srv.room r).jobQueue ++ if r' = r then [job] else [] := by
  refine RoomManager.jobQueue_pushJob.trans ?_
  by_cases hrr : r = r'
  · rw [if_pos ⟨hrr, hr⟩, if_pos hrr.symm]
  · rw [if_neg fun h => hrr h.1, if_neg (Ne.symm hrr), List.append_nil]

/-- A job that is pushed to the room the session points to. -/
theorem queue_pointed {job : Job} {r' : RoomRef} (hi : RoomsCreated srv)
    (hroom : srv.roomOf s = some r') : ((srv.pushJob r' job).room r).jobQueue =
      (srv.room r).jobQueue ++ if srv.roomOf s = some r then [job] else [] := by
  rw [queue_pushJob (hi.pointer s r' hroom), hroom]
  simp only [Option.some.injEq]

/-- The room of a `GetOrCreate` does not depend on the queues. -/
theorem getOrCreate_pushed {r' : RoomRef} {job : Job} {name : Bytes} :
    ((srv.pushJob r' job).rooms.getOrCreate cfg.maxRoomPlayers name).1 =
      (srv.rooms.getOrCreate cfg.maxRoomPlayers name).1 := by
  have hrooms : (srv.pushJob r' job).rooms.rooms = srv.rooms.rooms := rfl
  unfold RoomManager.getOrCreate
  rw [hrooms]
  cases srv.rooms.rooms.lookup name with
  | some _ => rfl
  | none => exact RoomManager.length_modify _

/-- A job that is pushed to the room a `GetOrCreate` returns. -/
theorem queue_getOrCreate {job : Job} {name : Bytes}
    (hlive : ∀ r, srv.rooms.Live r → r < srv.rooms.heap.length) :
    (({ srv with rooms := (srv.rooms.getOrCreate cfg.maxRoomPlayers name).2 }.pushJob
        (srv.rooms.getOrCreate cfg.maxRoomPlayers name).1 job).room r).jobQueue =
      (srv.room r).jobQueue ++
        if (srv.rooms.getOrCreate cfg.maxRoomPlayers name).1 = r then [job] else [] := by
  rw [queue_pushJob]
  · congr 1
    exact RoomManager.jobQueue_getOrCreate
  · rcases RoomManager.live_of_getOrCreate RoomManager.getOrCreate_live with hold | hnew
    · exact (hlive _ hold).trans_le length_getOrCreate
    · exact hnew

/-- The enter behind the leave, if there is one. -/
def Server.enters (cfg : Config) (s : SessionRef) (roomName : Bytes) (srv : Server) : Server :=
  { srv with rooms := (srv.rooms.getOrCreate cfg.maxRoomPlayers roomName).2 }.pushJob
    (srv.rooms.getOrCreate cfg.maxRoomPlayers roomName).1 (.handleEnter s)

theorem handleCRoomEnter_eq {roomName : Bytes} (haccount : srv.account s ≠ []) :
    srv.handleCRoomEnter env s cfg (some roomName) =
      (match srv.roomOf s with
        | some prev => srv.pushJob prev (.handleLeave s)
        | none => srv).enters cfg s roomName := by
  unfold Server.handleCRoomEnter
  exact if_neg haccount

theorem queue_packet (hi : RoomsCreated srv) (packet : ClientPacket) :
    ((srv.handlePacket env s cfg packet).room r).jobQueue =
      (srv.room r).jobQueue ++ srv.pushed cfg env r (.packet s packet) := by
  cases packet with
  | login password =>
    rw [show srv.pushed cfg env r (.packet s (.login password)) = [] from rfl, List.append_nil]
    change ((srv.handleCLogin env s password).room r).jobQueue = _
    unfold Server.handleCLogin
    split
    · rfl
    · split <;> rfl
  | chat message =>
    change ((srv.handleCChat s message).room r).jobQueue = _
    unfold Server.handleCChat
    cases message with
    | none => exact (List.append_nil _).symm
    | some message =>
      cases hroom : (srv.world.session s).room with
      | none =>
        simp only [Server.pushed, Server.roomOf, hroom]
        exact (List.append_nil _).symm
      | some r' => exact queue_pointed hi hroom
  | roomEnter roomName =>
    change ((srv.handleCRoomEnter env s cfg roomName).room r).jobQueue = _
    cases roomName with
    | none => exact (List.append_nil _).symm
    | some roomName =>
      by_cases haccount : srv.account s = []
      · have hpushed : srv.pushed cfg env r (.packet s (.roomEnter (some roomName))) = [] :=
          if_pos haccount
        unfold Server.handleCRoomEnter
        rw [hpushed, List.append_nil]
        simp only [if_pos (show (srv.world.session s).accountId = [] from haccount)]
        rfl
      · have hpushed : srv.pushed cfg env r (.packet s (.roomEnter (some roomName))) = _ :=
          if_neg haccount
        rw [hpushed, ← List.append_assoc, handleCRoomEnter_eq haccount]
        cases hroom : srv.roomOf s with
        | none =>
          rw [if_neg (by simp), List.append_nil]
          exact queue_getOrCreate hi.live
        | some prev =>
          have hleave : ((srv.pushJob prev (.handleLeave s)).room r).jobQueue = _ :=
            queue_pointed hi hroom
          have hsame : ((srv.pushJob prev (.handleLeave s)).rooms.getOrCreate cfg.maxRoomPlayers
              roomName).1 = _ := getOrCreate_pushed
          rw [hroom] at hleave
          rw [← hleave, ← hsame]
          exact queue_getOrCreate fun r hr => live_pushed hi.live hr
  | roomLeave =>
    change ((srv.handleCRoomLeave env s).room r).jobQueue = _
    unfold Server.handleCRoomLeave
    cases hroom : (srv.world.session s).room with
    | none =>
      simp only [Server.pushed, Server.roomOf, hroom]
      exact (List.append_nil _).symm
    | some r' => exact queue_pointed hi hroom
  | move position =>
    change ((srv.handleCMove s position).room r).jobQueue = _
    unfold Server.handleCMove
    cases position with
    | none => exact (List.append_nil _).symm
    | some position =>
      cases hroom : (srv.world.session s).room with
      | none =>
        simp only [Server.pushed, Server.roomOf, hroom]
        exact (List.append_nil _).symm
      | some r' => exact queue_pointed hi hroom
  | ping payload =>
    rw [show srv.pushed cfg env r (.packet s (.ping payload)) = [] from rfl, List.append_nil]
    change ((srv.handleCPing env s payload).room r).jobQueue = _
    unfold Server.handleCPing
    split <;> rfl
  | roomList => exact (List.append_nil _).symm
  | ready =>
    change ((srv.handleCReady s).room r).jobQueue = _
    unfold Server.handleCReady
    by_cases haccount : srv.account s = []
    · have hpushed : srv.pushed cfg env r (.packet s .ready) = [] := if_neg fun h => h.1 haccount
      rw [hpushed, List.append_nil,
        if_pos (show (srv.world.session s).accountId = [] from haccount)]
    · have hpushed : srv.pushed cfg env r (.packet s .ready) =
          if srv.roomOf s = some r then [.handleReady (srv.account s)] else [] :=
        if_congr (and_iff_right haccount) rfl rfl
      rw [hpushed, if_neg (show (srv.world.session s).accountId ≠ [] from haccount)]
      cases hroom : (srv.world.session s).room with
      | none => rw [if_neg (by simp [Server.roomOf, hroom]), List.append_nil]
      | some r' => exact queue_pointed hi hroom

theorem queue_callback {i : Nat} {token : Bytes} (valid : Bool) (accountId : Bytes)
    (pending : srv.auth[i]? = some (s, token)) :
    (({ srv with auth := srv.auth.eraseIdx i }.loginCallback env s valid accountId).room
        r).jobQueue =
      (srv.room r).jobQueue ++ srv.pushed cfg env r (.authCallback i valid accountId) := by
  unfold Server.loginCallback
  cases valid with
  | false => exact (List.append_nil _).symm
  | true =>
    simp only [if_true, Server.pushed, pending]
    cases hfound : srv.rooms.findReconnect env accountId with
    | none =>
      rw [if_neg (by simp), List.append_nil]
      rfl
    | some r' =>
      simp only [Option.some.injEq]
      exact queue_pushJob
        (RoomManager.lt_of_slot (RoomManager.findReconnect_some hfound))

theorem queue_disconnect (hi : RoomsCreated srv) : ((srv.handleDisconnect s).room r).jobQueue =
    (srv.room r).jobQueue ++ srv.pushed cfg env r (.disconnect s) := by
  unfold Server.handleDisconnect
  by_cases hdown : (srv.world.session s).disconnected = true
  · have hpushed : srv.pushed cfg env r (.disconnect s) = [] := if_neg fun h => h.1 hdown
    rw [hpushed, if_pos hdown, List.append_nil]
  · have hpushed : srv.pushed cfg env r (.disconnect s) =
        if srv.roomOf s = some r then [.handleLeave s] else [] :=
      if_congr (and_iff_right hdown) rfl rfl
    rw [hpushed, if_neg hdown]
    have hsame : ((Server.countOut (srv.world.disconnect s)).session s).room = srv.roomOf s :=
      World.room_disconnect _ _ _
    simp only [hsame]
    cases hroom : srv.roomOf s with
    | none =>
      rw [if_neg (by simp), List.append_nil]
    | some r' =>
      simp only [Option.some.injEq]
      exact queue_pushJob (hi.pointer s r' hroom)

/-- **A step at the queue of a room**: its job is taken from the front, and the jobs it pushes come
behind. -/
theorem queue_next (hi : RoomsCreated srv) (h : next cfg srv (a, env) = some srv') :
    srv.ran a r ++ (srv'.room r).jobQueue = (srv.room r).jobQueue ++ srv.pushed cfg env r a := by
  obtain ⟨srv₁, hacts, rfl⟩ := next_acts h
  change _ ++ (srv₁.room r).jobQueue = _
  cases hacts with
  | accept token =>
    refine Eq.trans ?_ (List.append_nil _).symm
    unfold Server.handleAccept
    cases token <;> rfl
  | packet packet accepted => exact queue_packet hi packet
  | authCallback valid accountId pending => exact queue_callback valid accountId pending
  | disconnect accepted => exact queue_disconnect hi
  | @job r' job jobs queue =>
    refine Eq.trans ?_ (List.append_nil _).symm
    by_cases hr : r = r'
    · subst hr
      have hran : srv.ran (.job r) r = [job] := congrArg Option.toList (running_job queue)
      have hroom : ((srv.runJob env r job jobs).room r).jobQueue = jobs := by
        rw [Server.runJob, room_inRoom_self (RoomManager.lt_of_head queue), Job.jobQueue_run]
      rw [hran, hroom, queue, List.singleton_append]
    · have hran : srv.ran (.job r') r = [] := congrArg Option.toList (if_neg (Ne.symm hr))
      have hroom : (srv.runJob env r' job jobs).room r = srv.room r := room_inRoom_ne hr
      rw [hran, hroom, List.nil_append]
  | @tickEnd r' =>
    refine Eq.trans ?_ (List.append_nil _).symm
    change ((srv.tickEnd env cfg r').room r).jobQueue = _
    by_cases hr : r = r'
    · subst hr
      by_cases hlen : r < srv.rooms.heap.length
      · rw [Server.tickEnd, room_inRoom_self hlen, (GameRoom.tickEnd_spec _).1]
        rfl
      · have hlen' : (srv.tickEnd env cfg r).rooms.heap.length ≤ r := by
          rw [Server.tickEnd, length_inRoom]
          exact not_lt.mp hlen
        exact congrArg GameRoom.jobQueue
          ((RoomManager.room_of_le hlen').trans (RoomManager.room_of_le (not_lt.mp hlen)).symm)
    · rw [Server.tickEnd, room_inRoom_ne hr]
  | removeIdleRooms => exact (List.append_nil _).symm

end

/-! ## What a chat says -/

section

variable {sender message sender' message' : Bytes} {skip : Skip}

/-- The two texts, as any bytes. -/
def chatTexts : List (FieldParser (Bytes × Bytes)) :=
  [.message 1 some fun text texts => (text, texts.2),
    .message 2 some fun text texts => (texts.1, text)]

theorem parse_chatTexts (hsender : sender.length ≤ maxSize) (hmessage : message.length ≤ maxSize) :
    parse chatTexts skip ([], []) (ServerMessage.chat sender message).serialize =
      some (sender, message) := by
  have hfirst : Case chatTexts (UInt8.ofNat (1 * 8 + 2))
      (.message 1 some fun text texts => (text, texts.2)) := ⟨by decide, rfl⟩
  have hsecond : Case chatTexts (UInt8.ofNat (2 * 8 + 2))
      (.message 2 some fun text texts => (texts.1, text)) := ⟨by decide, rfl⟩
  have hrest : ∀ text, parse chatTexts skip (text, []) (stringField 2 message) =
      some (text, message) := by
    intro text
    unfold stringField
    split
    · rename_i hempty
      rw [parse_nil, hempty]
    · rw [← List.append_nil (bytesField 2 message), parse_bytesField hsecond hmessage]
      rfl
  change parse chatTexts skip ([], []) (stringField 1 sender ++ stringField 2 message) = _
  unfold stringField
  split
  · rename_i hempty
    rw [List.nil_append, hempty]
    exact hrest []
  · rw [parse_bytesField hfirst hsender]
    exact hrest sender

/-- The bytes of a chat that fits say who sent it, and what. -/
theorem chat_inj (hfits : (ServerMessage.chat sender message).Fits)
    (h : (ServerMessage.chat sender' message').serialize =
      (ServerMessage.chat sender message).serialize) : sender' = sender ∧ message' = message := by
  have hshort : ∀ sender message, (ServerMessage.chat sender message).serialize.length ≤ maxSize →
      sender.length ≤ maxSize ∧ message.length ≤ maxSize := by
    intro sender message hlength
    change (stringField 1 sender ++ stringField 2 message).length ≤ maxSize at hlength
    rw [List.length_append] at hlength
    have hfirst := length_le_stringField 1 sender
    have hsecond := length_le_stringField 2 message
    omega
  have hlength : (ServerMessage.chat sender message).serialize.length ≤ maxSize := by
    unfold ServerMessage.Fits maxBufSize at hfits
    unfold maxSize
    omega
  obtain ⟨hsender, hmessage⟩ := hshort sender message hlength
  obtain ⟨hsender', hmessage'⟩ := hshort sender' message' (h ▸ hlength)
  have hread : parse chatTexts Skip.refuse ([], []) _ = _ := parse_chatTexts hsender hmessage
  rw [← h, parse_chatTexts hsender' hmessage'] at hread
  exact Prod.mk.inj (Option.some.inj hread)

end

/-! ## Said, run and heard -/

/-- The packet of a chat. -/
def chatPacket (sender message : Bytes) : Bytes :=
  frame PacketID.sChat.toUInt16 (ServerMessage.chat sender message).serialize

/-- How often the session was sent the chat. -/
def World.copies (w : World) (t : SessionRef) (sender message : Bytes) : Nat :=
  w.sent.count (t, chatPacket sender message)

/-- The action is the `C_CHAT` of a session with this account that points to the room. -/
def Server.Says (srv : Server) (r : RoomRef) (sender message : Bytes) : Action → Prop
  | .packet s (.chat (some text)) =>
    srv.roomOf s = some r ∧ srv.account s = sender ∧ text = message
  | _ => False

instance (srv : Server) (r : RoomRef) (sender message : Bytes) :
    DecidablePred (srv.Says r sender message) := fun a => by
  unfold Server.Says
  split <;> infer_instance

/-- The action runs the chat, in a room of which the session is a member. -/
def Server.Hears (srv : Server) (t : SessionRef) (sender message : Bytes) : Action → Prop
  | .job r => t ∈ (srv.room r).members ∧ (srv.room r).jobQueue.head? = some (.chat sender message)
  | _ => False

instance (srv : Server) (t : SessionRef) (sender message : Bytes) :
    DecidablePred (srv.Hears t sender message) := fun a => by
  unfold Server.Hears
  split <;> infer_instance

section

variable {cfg : Config} {env : Env} {srv srv' : Server} {a : Action} {r : RoomRef}
  {s t : SessionRef} {sender message : Bytes} {w : World} {room : GameRoom}

/-- How often the chat was said in the room. -/
def said (cfg : Config) (r : RoomRef) (sender message : Bytes) (steps : List (Action × Env)) :
    Nat :=
  occurs (next cfg) (fun srv step => srv.Says r sender message step.1) .empty steps

/-- How often it ran in the room. -/
def ranChats (cfg : Config) (r : RoomRef) (sender message : Bytes) (steps : List (Action × Env)) :
    Nat :=
  occurs (next cfg) (fun srv step => srv.running step.1 r = some (.chat sender message)) .empty
    steps

/-- How often it ran in a room of which the session was a member. -/
def heardChats (cfg : Config) (t : SessionRef) (sender message : Bytes)
    (steps : List (Action × Env)) : Nat :=
  occurs (next cfg) (fun srv step => srv.Hears t sender message step.1) .empty steps

theorem said_snoc {steps : List (Action × Env)} (hrun : run (next cfg) .empty steps = some srv) :
    said cfg r sender message (steps ++ [(a, env)]) =
      said cfg r sender message steps + if srv.Says r sender message a then 1 else 0 :=
  occurs_snoc hrun

theorem ranChats_snoc {steps : List (Action × Env)}
    (hrun : run (next cfg) .empty steps = some srv) :
    ranChats cfg r sender message (steps ++ [(a, env)]) = ranChats cfg r sender message steps +
      if srv.running a r = some (.chat sender message) then 1 else 0 :=
  occurs_snoc hrun

theorem heardChats_snoc {steps : List (Action × Env)}
    (hrun : run (next cfg) .empty steps = some srv) :
    heardChats cfg t sender message (steps ++ [(a, env)]) = heardChats cfg t sender message steps +
      if srv.Hears t sender message a then 1 else 0 :=
  occurs_snoc hrun

theorem count_pushed : (srv.pushed cfg env r a).count (.chat sender message) =
    if srv.Says r sender message a then 1 else 0 := by
  unfold Server.pushed Server.Says
  split
  · rename_i s text
    by_cases hroom : srv.roomOf s = some r
    · simp [hroom, List.count_singleton]
    · simp [hroom]
  · split
    · rfl
    · rw [List.count_append]
      split <;> split <;> simp
  · split <;> simp
  · split <;> simp
  · split <;> simp
  · split
    · split <;> simp
    · simp
  · split <;> simp
  · rename_i hchat _ _ _ _ _ _
    split
    · exact absurd rfl (hchat _ _)
    · rfl

theorem count_ran {job : Job} : (srv.ran a r).count job =
    if srv.running a r = some job then 1 else 0 := by
  unfold Server.ran
  cases srv.running a r with
  | none => simp
  | some running => simp [List.count_singleton]

theorem copies_send_le {sent : ServerMessage} : (w.send env s sent).copies t sender message ≤
    w.copies t sender message + if s = t then 1 else 0 := by
  unfold World.copies World.send
  split
  · exact Nat.le_add_right _ _
  · split
    · exact Nat.le_add_right _ _
    · unfold World.countAndPost World.postSend
      split
      · exact Nat.le_add_right _ _
      · split
        · exact Nat.le_add_right _ _
        · change (w.sent ++ [_]).count _ ≤ _
          rw [List.count_append, List.count_singleton]
          by_cases hst : s = t
          · rw [if_pos hst]
            split <;> omega
          · rw [if_neg (by simp [hst])]
            exact Nat.le_add_right _ _

/-- A broadcast sends each member one packet at most. -/
theorem copies_broadcast_le {sent : ServerMessage} :
    (room.broadcast env sent w).copies t sender message ≤
      w.copies t sender message + if t ∈ room.members then 1 else 0 := by
  have hall : ∀ (members : List SessionRef), members.Nodup → ∀ w : World,
      (members.foldl (fun w s => w.send env s sent) w).copies t sender message ≤
        w.copies t sender message + if t ∈ members then 1 else 0 := by
    intro members hnodup
    induction members with
    | nil => exact fun w => Nat.le_add_right _ _
    | cons s members ih =>
      intro w
      obtain ⟨hnot, hnodup⟩ := List.nodup_cons.mp hnodup
      have hfirst : (w.send env s sent).copies t sender message ≤ _ := copies_send_le
      have hrest := ih hnodup (w.send env s sent)
      rw [List.foldl_cons]
      by_cases hst : s = t
      · subst hst
        rw [if_pos rfl] at hfirst
        rw [if_neg hnot] at hrest
        rw [if_pos List.mem_cons_self]
        omega
      · rw [if_neg hst] at hfirst
        have hmem : t ∈ s :: members ↔ t ∈ members :=
          List.mem_cons.trans (or_iff_right (Ne.symm hst))
        rw [if_congr hmem rfl rfl]
        omega
  exact hall _ room.members.nodup w

/-- **What a step sends of a chat**: a packet for each `S_CHAT`, where the step runs the chat, and
nothing else. -/
theorem copies_next (hfits : (ServerMessage.chat sender message).Fits)
    (h : next cfg srv (a, env) = some srv') :
    ((∀ r, srv.running a r ≠ some (.chat sender message)) →
      srv'.world.copies t sender message = srv.world.copies t sender message) ∧
    (∀ r, srv.running a r = some (.chat sender message) →
      srv'.world.copies t sender message + srv.world.countTo t .sChat =
        srv.world.copies t sender message + srv'.world.countTo t .sChat) := by
  obtain ⟨packets, hsent, hall⟩ := chat_next h
  unfold World.copies World.countTo
  rw [hsent, List.count_append, List.countP_append]
  constructor
  · intro hidle
    rw [Nat.add_eq_left, List.count_eq_zero]
    intro hmem
    obtain ⟨id, payload, hframe, hchat⟩ := hall _ hmem
    obtain ⟨rfl, rfl⟩ := frame_inj hframe
    obtain ⟨r, sender', message', hrunning, hsame⟩ := hchat rfl
    obtain ⟨rfl, rfl⟩ := chat_inj hfits hsame.symm
    exact hidle r hrunning
  · intro r hrunning
    have hcount : packets.count (t, chatPacket sender message) =
        packets.countP fun packet => IsTo t .sChat packet := by
      refine List.countP_congr fun packet hmem => ?_
      obtain ⟨id, payload, hframe, hchat⟩ := hall packet hmem
      rw [beq_iff_eq, decide_eq_true_eq]
      constructor
      · rintro rfl
        exact isTo_frame.mpr ⟨rfl, rfl⟩
      · intro hto
        obtain ⟨u, bytes⟩ := packet
        subst hframe
        obtain ⟨rfl, rfl⟩ := isTo_frame.mp hto
        obtain ⟨r', sender', message', hrunning', rfl⟩ := hchat rfl
        have hr : r' = r := by
          have haction := (action_of_running hrunning').symm.trans (action_of_running hrunning)
          exact Action.job.inj haction
        subst hr
        obtain ⟨rfl, rfl⟩ := Job.chat.inj (Option.some.inj (hrunning'.symm.trans hrunning))
        rfl
    rw [hcount]
    omega

theorem copies_mono (h : next cfg srv (a, env) = some srv') :
    srv.world.copies t sender message ≤ srv'.world.copies t sender message := by
  obtain ⟨packets, hsent, -⟩ := chat_next h
  unfold World.copies
  rw [hsent, List.count_append]
  exact Nat.le_add_right _ _

/-- The step at which a session hears the chat. -/
theorem hears_of_running (hrunning : srv.running a r = some (.chat sender message)) :
    srv.Hears t sender message a ↔ t ∈ (srv.room r).members := by
  obtain rfl := action_of_running hrunning
  have hhead : (srv.room r).jobQueue.head? = some (.chat sender message) :=
    (if_pos rfl).symm.trans hrunning
  exact and_iff_left hhead

theorem running_of_hears (h : srv.Hears t sender message a) :
    ∃ r, srv.running a r = some (.chat sender message) := by
  cases a with
  | job r => exact ⟨r, (if_pos rfl).trans h.2⟩
  | _ => exact h.elim

/-- **A step delivers a chat** to the members of the room that runs it, once, but for those that are
disconnected. -/
theorem delivered_next (hfits : (ServerMessage.chat sender message).Fits)
    (h : next cfg srv (a, env) = some srv') :
    srv'.world.copies t sender message ≤
        srv.world.copies t sender message + (if srv.Hears t sender message a then 1 else 0) ∧
      (¬ srv'.Down t → srv'.world.copies t sender message =
        srv.world.copies t sender message + if srv.Hears t sender message a then 1 else 0) := by
  obtain ⟨hidle, hcounts⟩ := copies_next (t := t) hfits h
  by_cases hruns : ∃ r, srv.running a r = some (.chat sender message)
  · obtain ⟨r, hrunning⟩ := hruns
    have hhears : srv.Hears t sender message a ↔ t ∈ (srv.room r).members :=
      hears_of_running hrunning
    obtain rfl := action_of_running hrunning
    obtain ⟨room, hroom, hworld⟩ := world_job h hrunning
    have hmembers : room.members = (srv.room r).members := (congrArg GameRoom.members hroom :)
    change srv'.world = room.broadcast env (.chat sender message) srv.world at hworld
    rw [if_congr hhears rfl rfl, ← hmembers]
    constructor
    · rw [hworld]
      exact copies_broadcast_le
    · intro hup
      have hgets : Gets t .sChat _ srv.world
          (room.broadcast env (.chat sender message) srv.world) :=
        Gets.broadcast env (.chat sender message) room srv.world
      rw [← hworld] at hgets
      have hcount := hgets.countTo (Bool.eq_false_iff.mpr hup)
      have hsame := hcounts r hrunning
      have hone : (if (ServerMessage.chat sender message).packetId = .sChat ∧
          (ServerMessage.chat sender message).Fits then
          [(ServerMessage.chat sender message).serialize] else []) =
          [(ServerMessage.chat sender message).serialize] := if_pos ⟨rfl, hfits⟩
      rw [hone] at hcount
      by_cases hmem : t ∈ room.members
      · rw [if_pos hmem, List.length_singleton] at hcount
        rw [if_pos hmem]
        omega
      · rw [if_neg hmem, List.length_nil] at hcount
        rw [if_neg hmem]
        omega
  · have hnot : ¬ srv.Hears t sender message a := fun hhears => hruns (running_of_hears hhears)
    rw [if_neg hnot, hidle fun r hrunning => hruns ⟨r, hrunning⟩]
    exact ⟨le_refl _, fun _ => rfl⟩

/-! ## Runs -/

/-- What is said of the chat at some point of a run. -/
structure Delivered (cfg : Config) (sender message : Bytes) (steps : List (Action × Env))
    (srv : Server) : Prop where
  created : RoomsCreated srv
  queued : ∀ r, ranChats cfg r sender message steps +
    (srv.room r).jobQueue.count (.chat sender message) = said cfg r sender message steps
  most : ∀ t, srv.world.copies t sender message ≤ heardChats cfg t sender message steps
  all : ∀ t, srv.nextSession ≤ t ∨ ¬ srv.Down t →
    srv.world.copies t sender message = heardChats cfg t sender message steps

theorem delivered_empty : Delivered cfg sender message [] .empty where
  created := roomsCreated_empty
  queued r := by
    rw [room_empty]
    rfl
  most t := Nat.zero_le _
  all t hup := rfl

theorem delivered_step {steps : List (Action × Env)}
    (hfits : (ServerMessage.chat sender message).Fits)
    (hrun : run (next cfg) .empty steps = some srv) (hi : Delivered cfg sender message steps srv)
    (h : next cfg srv (a, env) = some srv') :
    Delivered cfg sender message (steps ++ [(a, env)]) srv' where
  created := roomsCreated_next hi.created h
  queued r := by
    have hqueue := congrArg (List.count (.chat sender message)) (queue_next (r := r) hi.created h)
    rw [List.count_append, List.count_append, count_ran, count_pushed] at hqueue
    have hbefore := hi.queued r
    rw [ranChats_snoc hrun, said_snoc hrun]
    omega
  most t := by
    have hstep := (delivered_next (t := t) hfits h).1
    have hbefore := hi.most t
    rw [heardChats_snoc hrun]
    omega
  all t hup := by
    rw [heardChats_snoc hrun]
    by_cases hs : t < srv'.nextSession
    · rw [(delivered_next hfits h).2 (hup.resolve_left (not_le.mpr hs)), hi.all t ?_]
      by_cases hbefore : t < srv.nextSession
      · exact Or.inr fun hdown =>
          hup.resolve_left (not_le.mpr hs) ((sessions_next h hbefore).down hdown)
      · exact Or.inl (not_lt.mp hbefore)
    · -- it is not accepted yet
      have hunborn := (nextSession_next h).trans (not_lt.mp hs)
      have hnot : ¬ srv.Hears t sender message a := by
        cases a with
        | job r =>
          exact fun hhears => absurd ((born_of_run hrun).members r t hhears.1) (not_lt.mpr hunborn)
        | _ => exact id
      have hle := (delivered_next (t := t) hfits h).1
      have hge : srv.world.copies t sender message ≤ _ := copies_mono h
      rw [if_neg hnot] at hle ⊢
      rw [← hi.all t (Or.inl hunborn)]
      omega

/-- **Chats are delivered once.** In any run, a chat that fits has run in a room, or is queued
there, as often as a session that had the sender's account and pointed to the room said it. And a
session was sent one copy for each time it ran in a room of which the session was a member, and no
other; only one that is disconnected may have missed some. -/
theorem chats_delivered {steps : List (Action × Env)}
    (hfits : (ServerMessage.chat sender message).Fits)
    (hrun : run (next cfg) .empty steps = some srv) :
    (∀ r, ranChats cfg r sender message steps +
        (srv.room r).jobQueue.count (.chat sender message) = said cfg r sender message steps) ∧
      ∀ t, srv.world.copies t sender message ≤ heardChats cfg t sender message steps ∧
        (¬ srv.Down t →
          srv.world.copies t sender message = heardChats cfg t sender message steps) := by
  have h : Delivered cfg sender message steps srv := by
    refine run_history (I := fun steps srv => Delivered cfg sender message steps srv)
      delivered_empty ?_ hrun
    rintro steps srv ⟨a, env⟩ srv' hbefore hi h
    exact delivered_step hfits hbefore hi h
  exact ⟨h.queued, fun t => ⟨h.most t, fun hup => h.all t (Or.inr hup)⟩⟩

/-- A player says the same twice; the first one has run. -/
def saysTwice : List (Action × Env) :=
  quietly (lobby 2 ++ [.packet 0 (.chat (some [104])), .packet 0 (.chat (some [104])), .job 0])

theorem chats_delivered_saysTwice :
    ∃ srv, run (next ⟨16, 30000, 60000⟩) .empty saysTwice = some srv ∧
      (srv.room 0).jobQueue.count (.chat [97] [104]) = 1 ∧
      srv.world.copies 0 [97] [104] = 1 ∧ srv.world.copies 1 [97] [104] = 1 := by
  obtain ⟨srv, hrun, hup, hup'⟩ :
      ∃ srv, run (next ⟨16, 30000, 60000⟩) .empty saysTwice = some srv ∧ ¬ srv.Down 0 ∧
        ¬ srv.Down 1 := by
    decide +kernel
  have hfits : (ServerMessage.chat [97] [104]).Fits := by decide +kernel
  obtain ⟨hran, hheard⟩ := chats_delivered hfits hrun
  refine ⟨srv, hrun, ?_, ?_, ?_⟩
  · have hcounts : said ⟨16, 30000, 60000⟩ 0 [97] [104] saysTwice = 2 ∧
        ranChats ⟨16, 30000, 60000⟩ 0 [97] [104] saysTwice = 1 := by
      decide +kernel
    have hroom := hran 0
    omega
  · rw [(hheard 0).2 hup]
    decide +kernel
  · rw [(hheard 1).2 hup']
    decide +kernel

end

end RealtimeServer
