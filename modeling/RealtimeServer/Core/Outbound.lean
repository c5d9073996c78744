import RealtimeServer.Game.Placement
import RealtimeServer.Game.ReadyStart
import RealtimeServer.Game.RoomCalls
import RealtimeServer.Game.RoomList
import RealtimeServer.Packet.Frames

/-!
# What the clients are sent

The other direction of the wire: whom a step of the server sends to, where the texts come from that
it sends, and what a client reads out of the bytes.

* `Told T E`: what may stand in a packet: a message, or one of the layouts of the source; the texts
  have the property `T`, and what a pong echoes has the property `E`.
* `Utters T E A w w'`: what is sent from `w` to `w'` goes to connected sessions of the audience `A`,
  and is `Told T E`. `RoomCalls.utters`, `utters_packet` and `utters_callback` say it of rooms and
  handlers.
* `Worded`: the invariant that goes with it, of accounts, room names, queued jobs and pending moves.
* **`silent_when_down`**: behind the step that finds a session down nothing is sent to it any more,
  and what a room sends goes to its members or to the session its job is about.
* **`texts_of_run`**: a text in a packet is one of the source, the message of a chat, the name of a
  room that a client asked for, or an account of the auth service; no text of a login.
* **`client_reads_stream`**: a client that is sent nothing too long reads its stream back packet by
  packet, each as the message the server built.
-/

namespace RealtimeServer

open Unordered Guarded Wire

/-- What may stand in a packet whose texts have the property `T` and whose echoes have the property
`E`: only a snapshot of moves is not tested against `MAX_BUF_SIZE`. -/
inductive Told (T E : Bytes → Prop) : PacketID → Bytes → Prop
  | message {message : ServerMessage} (texts : message.Of T)
      (fits : message.packetId = .sMoveBroadcast ∨
        headerSize + message.serialize.length ≤ maxBufSize) :
      Told T E message.packetId message.serialize
  | room {id : PacketID} {payload : Bytes} (room : RoomTold T id payload)
      (fits : headerSize + payload.length ≤ maxBufSize) : Told T E id payload
  /-- `[uint64 clientTimestampMs][uint64 serverTimestampMs]`. -/
  | pong {clientTimestamp : Bytes} (size : clientTimestamp.length = 8) (echo : E clientTimestamp)
      (serverTimestampMs : Nat) :
      Told T E .sPong (clientTimestamp ++ leBytes 8 serverTimestampMs)
  /-- It can be read back where its size is an `int`. -/
  | roomList {rooms : List RoomInfo} (names : ∀ info ∈ rooms, T info.name)
      (fits : headerSize + (Server.passed (roomListData rooms)).length ≤ maxBufSize)
      (read : (roomListData rooms).length < 2 ^ 31 →
        readRoomList (Server.passed (roomListData rooms)) =
          some (rooms.map RoomInfo.carried, [])) :
      Told T E .sRoomList (Server.passed (roomListData rooms))

/-- From `w` to `w'` packets were sent, each to a connected session of the audience. -/
structure Utters (T E : Bytes → Prop) (A : SessionRef → Prop) (w w' : World) : Prop where
  sent : ∃ packets, w'.sent = w.sent ++ packets ∧ ∀ packet ∈ packets,
    A packet.1 ∧ (w.session packet.1).disconnected = false ∧
      ∃ id payload, packet.2 = frame id.toUInt16 payload ∧ Told T E id payload
  /-- No session comes back. -/
  down : ∀ s, (w.session s).disconnected = true → (w'.session s).disconnected = true

namespace Utters

variable {T E : Bytes → Prop} {A B : SessionRef → Prop} {env : Env} {w w' w'' : World}
  {s : SessionRef}

/-- Nothing is sent. -/
theorem silent (hsent : w'.sent = w.sent)
    (hdown : ∀ s, (w.session s).disconnected = true → (w'.session s).disconnected = true) :
    Utters T E A w w' :=
  ⟨⟨[], by rw [hsent, List.append_nil], by simp⟩, hdown⟩

theorem refl (w : World) : Utters T E A w w := silent rfl fun _ h => h

theorem trans (h : Utters T E A w w') (h' : Utters T E A w' w'') : Utters T E A w w'' := by
  obtain ⟨⟨packets, hsent, hall⟩, hdown⟩ := h
  obtain ⟨⟨packets', hsent', hall'⟩, hdown'⟩ := h'
  refine ⟨⟨packets ++ packets', by rw [hsent', hsent, List.append_assoc], fun packet hp => ?_⟩,
    fun s hs => hdown' s (hdown s hs)⟩
  rcases List.mem_append.mp hp with hp | hp
  · exact hall packet hp
  · obtain ⟨haudience, hconnected, htold⟩ := hall' packet hp
    refine ⟨haudience, ?_, htold⟩
    -- whoever is connected at the later send was so before
    by_contra hdisconnected
    rw [Bool.not_eq_false] at hdisconnected
    exact absurd (hdown _ hdisconnected) (by simp [hconnected])

theorem mono (h : Utters T E A w w') (hab : ∀ s, A s → B s) : Utters T E B w w' := by
  obtain ⟨⟨packets, hsent, hall⟩, hdown⟩ := h
  exact ⟨⟨packets, hsent, fun packet hp => ⟨hab _ (hall packet hp).1, (hall packet hp).2⟩⟩, hdown⟩

theorem countAndPost {id : PacketID} {payload : Bytes} (w : World) (hs : A s)
    (htold : Told T E id payload) :
    Utters T E A w (w.countAndPost env s (frame id.toUInt16 payload)) := by
  refine ⟨?_, (Sent.countAndPost env s _ w).down⟩
  unfold World.countAndPost World.postSend
  split
  · exact (refl (T := T) (E := E) (A := A) w).sent
  · rename_i hconnected
    split
    · exact (refl (T := T) (E := E) (A := A) w).sent
    · refine ⟨[(s, frame id.toUInt16 payload)], rfl, fun packet hp => ?_⟩
      obtain rfl := List.mem_singleton.mp hp
      exact ⟨hs, Bool.eq_false_iff.mpr hconnected, id, payload, rfl, htold⟩

theorem sendRaw {id : PacketID} {data : Bytes} (w : World) (hs : A s)
    (htold : headerSize + data.length ≤ maxBufSize → Told T E id data) :
    Utters T E A w (w.sendRaw env s id data) := by
  unfold World.sendRaw
  split
  · exact refl w
  · split
    · exact refl w
    · rename_i hfits
      exact countAndPost w hs (htold (not_lt.mp hfits))

theorem send {message : ServerMessage} (w : World) (hs : A s) (htexts : message.Of T) :
    Utters T E A w (w.send env s message) := by
  unfold World.send
  split
  · exact refl w
  · split
    · exact refl w
    · rename_i hfits
      exact countAndPost w hs (.message htexts (Or.inr (not_lt.mp hfits)))

theorem sendShared {actors : List MovedActor} (w : World) (hs : A s)
    (htexts : (ServerMessage.moveBroadcast actors).Of T) :
    Utters T E A w (w.sendShared env s
      (frame PacketID.sMoveBroadcast.toUInt16 (ServerMessage.moveBroadcast actors).serialize)) := by
  unfold World.sendShared
  split
  · exact refl w
  · exact countAndPost w hs (.message htexts (Or.inl rfl))

/-- A loop of sends. -/
theorem foldl {f : World → SessionRef → World} {l : List SessionRef}
    (hf : ∀ w, ∀ s ∈ l, Utters T E A w (f w s)) (w : World) : Utters T E A w (l.foldl f w) := by
  induction l generalizing w with
  | nil => exact refl w
  | cons s l ih =>
    exact (hf w s List.mem_cons_self).trans
      (ih (fun w t ht => hf w t (List.mem_cons_of_mem s ht)) (f w s))

end Utters

section

variable {T E : Bytes → Prop} {K : PacketID → Prop} {env : Env} {own : Option SessionRef}
  {members : IterSet SessionRef} {w w' : World}

/-- **A room** speaks to the members and to the session of its job. -/
theorem RoomCalls.utters (h : RoomCalls T K env own members w w') :
    Utters T E (fun s => s ∈ members ∨ own = some s) w w' := by
  induction h with
  | refl w => exact .refl w
  | trans h h' ih ih' => exact ih.trans ih'
  | setRoom w room mine =>
    refine .silent rfl fun t ht => ?_
    rw [World.disconnected_setRoom]
    exact ht
  | send w mine kind texts => exact .send w (Or.inr mine) texts
  | broadcast w same kind texts =>
    subst same
    exact .foldl (fun w s hs => .send w (Or.inl hs) texts) w
  | broadcastExcept w same mine kind texts =>
    subst same
    refine .foldl (fun w s hs => ?_) w
    split
    · exact .send w (Or.inl hs) texts
    · exact .refl w
  | broadcastShared w same kind texts =>
    subst same
    unfold GameRoom.broadcastShared
    split
    · exact .refl w
    · exact .foldl (fun w s hs => .sendShared w (Or.inl hs) texts) w
  | sendRawBroadcast w same kind raw =>
    subst same
    exact .foldl (fun w s hs => .sendRaw w (Or.inl hs) (.room raw)) w

/-- No session comes back. -/
theorem RoomCalls.down (h : RoomCalls T K env own members w w') (s : SessionRef)
    (hdown : (w.session s).disconnected = true) : (w'.session s).disconnected = true :=
  (h.utters : Utters T (fun _ => True) _ w w').down s hdown

end

/-! ## Handlers -/

section

variable {T E : Bytes → Prop} {cfg : Config} {env : Env} {srv srv' : Server} {s : SessionRef}
  {a : Action}

/-- A text of the source, in a message that has no other. -/
theorem of_sourceText (hT : ∀ text, SourceText text → T text) {message : ServerMessage}
    (h : ∀ text ∈ message.texts, SourceText text) : message.Of T :=
  fun text htext => hT text (h text htext)

/-- What of a packet is echoed: the timestamp of a ping. -/
def ClientPacket.echoes : ClientPacket → List Bytes
  | ping payload => if payload.length < 8 then [] else [payload.take 8]
  | _ => []

/-- A room list that fits, with the names of rooms as they are. -/
theorem told_roomList {rooms : List RoomInfo} (hnames : ∀ info ∈ rooms, T info.name)
    (hfits : headerSize + (Server.passed (roomListData rooms)).length ≤ maxBufSize) :
    Told T E .sRoomList (Server.passed (roomListData rooms)) := by
  refine .roomList hnames hfits fun hint => ?_
  have hwhole : Server.passed (roomListData rooms) = roomListData rooms := by
    unfold Server.passed
    rw [Signed.int32_of_fits ⟨by omega, by omega⟩, Int.toNat_natCast, List.take_length]
  rw [hwhole] at hfits ⊢
  obtain ⟨hcount, hname⟩ := le_roomListData rooms
  unfold headerSize maxBufSize at hfits
  refine (reads_roomList (by omega) fun info hinfo => ?_).exact
  have := hname info hinfo
  omega

/-- **A packet handler** answers its session. -/
theorem utters_packet (hT : ∀ text, SourceText text → T text) (packet : ClientPacket)
    (hechoes : ∀ stamp ∈ packet.echoes, E stamp)
    (hlisted : ∀ info ∈ srv.rooms.getRoomInfoList env, T info.name) :
    Utters T E (· = s) srv.world (srv.handlePacket env s cfg packet).world := by
  cases packet with
  | login password =>
    change Utters T E _ _ (srv.handleCLogin env s password).world
    unfold Server.handleCLogin
    split
    · exact .refl _
    · split
      · exact .send _ rfl
          (of_sourceText hT (by simpa [ServerMessage.texts] using SourceText.noToken))
      · exact .refl _
  | chat message =>
    change Utters T E _ _ (srv.handleCChat s message).world
    unfold Server.handleCChat
    split <;> exact .refl _
  | roomEnter roomName =>
    change Utters T E _ _ (srv.handleCRoomEnter env s cfg roomName).world
    unfold Server.handleCRoomEnter
    split
    · exact .refl _
    · split
      · exact .send _ rfl (of_sourceText hT (by simpa [ServerMessage.texts] using
          ⟨SourceText.notLoggedIn, SourceText.empty⟩))
      · cases (srv.world.session s).room <;> exact .refl _
  | roomLeave =>
    change Utters T E _ _ (srv.handleCRoomLeave env s).world
    unfold Server.handleCRoomLeave
    split
    · exact .send _ rfl (of_sourceText hT (by simp [ServerMessage.texts]))
    · exact .refl _
  | move position =>
    change Utters T E _ _ (srv.handleCMove s position).world
    unfold Server.handleCMove
    split <;> exact .refl _
  | ping payload =>
    change Utters T E _ _ (srv.handleCPing env s payload).world
    unfold Server.handleCPing
    split
    · exact .refl _
    · rename_i hlong
      refine .sendRaw _ rfl fun _ => .pong ?_ (hechoes _ ?_) _
      · rw [List.length_take]
        omega
      · rw [ClientPacket.echoes, if_neg hlong]
        exact List.mem_singleton_self _
  | roomList => exact .sendRaw _ rfl (told_roomList hlisted)
  | ready =>
    change Utters T E _ _ (srv.handleCReady s).world
    unfold Server.handleCReady
    split
    · exact .refl _
    · split <;> exact .refl _

/-- The callback of a login answers its session. -/
theorem utters_callback (hT : ∀ text, SourceText text → T text) (valid : Bool) (accountId : Bytes) :
    Utters T E (· = s) srv.world (srv.loginCallback env s valid accountId).world := by
  unfold Server.loginCallback
  cases valid with
  | false =>
    exact .send _ rfl (of_sourceText hT (by simpa [ServerMessage.texts] using SourceText.badToken))
  | true =>
    have hlogin : Utters T E (· = s) srv.world (srv.world.setAccountId s accountId) := by
      refine .silent rfl fun t ht => ?_
      by_cases hts : t = s
      · subst hts
        rw [World.session_setAccountId_self]
        exact ht
      · rwa [World.session_setAccountId_ne hts]
    simp only [if_true]
    split
    · exact hlogin.trans (.send _ rfl (of_sourceText hT
        (by simpa [ServerMessage.texts] using SourceText.reconnected)))
    · exact hlogin.trans (.send _ rfl (of_sourceText hT
        (by simpa [ServerMessage.texts] using SourceText.loggedIn)))

/-! ## One step -/

/-- The sessions an action may send to. -/
def Server.Audience (srv srv' : Server) : Action → SessionRef → Prop
  | .packet t _, s => s = t
  | .authCallback i _ _, s => ∃ token, srv.auth[i]? = some (s, token)
  | .job r, s =>
    s ∈ (srv'.room r).members ∨ ∃ job ∈ srv.running (.job r) r, job.session = some s
  | .tickEnd r, s => s ∈ (srv.room r).members
  | .accept .., _ | .disconnect .., _ | .removeIdleRooms, _ => False

/-- **The invariant**: the accounts, the names of the rooms, what the queued jobs captured and the
accounts of the pending moves have the property `T`. -/
structure Worded (T : Bytes → Prop) (srv : Server) : Prop where
  account : ∀ s, T (srv.account s)
  name : ∀ r, T (srv.room r).name
  jobs : ∀ r, ∀ job ∈ (srv.room r).jobQueue, ∀ text ∈ job.texts, T text
  moves : ∀ r, ∀ accountId ∈ (srv.room r).pendingMoves, T accountId

/-- The texts a packet brings that may be passed on; a login has none. -/
def ClientPacket.spoken : ClientPacket → List Bytes
  | chat (some message) => [message]
  | roomEnter (some roomName) => [roomName]
  | login _ | chat none | roomEnter none | roomLeave | move _ | ping _ | roomList | ready => []

theorem ClientPacket.texts_of_spoken {packet : ClientPacket} {text : Bytes}
    (h : text ∈ packet.spoken) : text ∈ packet.texts := by
  cases packet with
  | chat message => cases message <;> exact h
  | roomEnter roomName => cases roomName <;> exact h
  | _ => exact absurd h List.not_mem_nil

/-- The texts the action brings from outside. -/
def Action.texts : Action → List Bytes
  | .packet _ read => read.spoken
  | .authCallback _ true accountId => [accountId]
  | _ => []

/-- What the action brings to be echoed. -/
def Action.echoes : Action → List Bytes
  | .packet _ read => read.echoes
  | _ => []

/-- **What a step sends.** -/
theorem sent_next (hT : ∀ text, SourceText text → T text) (hw : Worded T srv)
    (hlisted : ∀ info ∈ srv.rooms.getRoomInfoList env, T info.name)
    (hechoes : ∀ stamp ∈ a.echoes, E stamp) (h : next cfg srv (a, env) = some srv') :
    ∃ packets, srv'.world.sent = srv.world.sent ++ packets ∧ ∀ packet ∈ packets,
      srv.Audience srv' a packet.1 ∧ ¬ srv.Down packet.1 ∧
        ∃ id payload, packet.2 = frame id.toUInt16 payload ∧ Told T E id payload := by
  have hutters : ∀ {A : SessionRef → Prop} {w' : World}, Utters T E A srv.world w' →
      (∀ s, A s → srv.Audience srv' a s) → srv'.world = w' →
      ∃ packets, srv'.world.sent = srv.world.sent ++ packets ∧ ∀ packet ∈ packets,
        srv.Audience srv' a packet.1 ∧ ¬ srv.Down packet.1 ∧
          ∃ id payload, packet.2 = frame id.toUInt16 payload ∧ Told T E id payload := by
    intro A w' hs haudience hworld
    obtain ⟨packets, hsent, hall⟩ := hs.sent
    refine ⟨packets, hworld ▸ hsent, fun packet hp => ?_⟩
    obtain ⟨hto, hconnected, htold⟩ := hall packet hp
    exact ⟨haudience _ hto, Bool.eq_false_iff.mp hconnected, htold⟩
  obtain ⟨srv₁, hacts, rfl⟩ := next_acts h
  have hsilent : srv₁.world.sent = srv.world.sent →
      ∃ packets, srv₁.world.sent = srv.world.sent ++ packets ∧ ∀ packet ∈ packets,
        srv.Audience { srv₁ with clock := env.later } a packet.1 ∧ ¬ srv.Down packet.1 ∧
          ∃ id payload, packet.2 = frame id.toUInt16 payload ∧ Told T E id payload :=
    fun hsame => ⟨[], by rw [hsame, List.append_nil], by simp⟩
  cases hacts with
  | accept token =>
    refine hsilent ?_
    unfold Server.handleAccept
    cases token <;> rfl
  | packet packet accepted =>
    exact hutters (utters_packet hT packet hechoes hlisted) (fun s hs => hs) rfl
  | @authCallback i s token valid accountId pending =>
    refine hutters (@utters_callback T E env { srv with auth := srv.auth.eraseIdx i } s hT valid
      accountId) (fun t ht => ?_) rfl
    exact ⟨token, ht ▸ pending⟩
  | disconnect accepted =>
    refine hsilent ?_
    unfold Server.handleDisconnect
    split
    · rfl
    · simp only
      split <;> rfl
  | @job r job jobs queue =>
    have hqueued : job ∈ (srv.room r).jobQueue := by
      rw [queue]
      exact List.mem_cons_self
    have hworded : GameRoom.Worded T { srv.room r with jobQueue := jobs } srv.world :=
      ⟨hT, hw.account, hw.name r⟩
    refine hutters (calls_runJob queue hworded (hw.jobs r job hqueued)).utters (fun s hs => ?_) rfl
    exact hs.imp id fun hown => ⟨job, running_job queue, hown⟩
  | @tickEnd r =>
    refine hutters (calls_tickEnd (hw.moves r) cfg.reconnectWindowMs).utters (fun s hs => ?_) rfl
    exact hs.resolve_right (by simp)
  | removeIdleRooms => exact hsilent rfl

theorem texts_of_sentBy {r : RoomRef} {job : Job} {packet : ClientPacket} (hw : Worded T srv)
    (hbrings : ∀ text ∈ packet.spoken, T text) (h : job.SentBy srv s packet r) :
    ∀ text ∈ job.texts, T text := by
  cases job with
  | chat sender message =>
    obtain ⟨rfl, -, rfl⟩ := h
    simpa [Job.texts] using ⟨hw.account s, hbrings message (by simp [ClientPacket.spoken])⟩
  | handleMove accountId x y =>
    obtain ⟨rfl, -, -⟩ := h
    simpa [Job.texts] using hw.account s
  | _ => simp [Job.texts]

/-- A job that is queued changes no name. -/
theorem name_pushJob {m : RoomManager} (hm : ∀ r, T (m.room r).name) (r' : RoomRef) (job : Job)
    (r : RoomRef) : T ((m.pushJob r' job).room r).name := by
  have hname := RoomManager.room_modify_part (m := m) GameRoom.name
    (f := fun room => room.pushJob job) (fun _ => rfl) r' r
  change T ((m.modify r' fun room => room.pushJob job).room r).name
  rw [hname]
  exact hm r

/-- A room that is created goes by the name that was asked for. -/
theorem name_getOrCreate {m : RoomManager} {name : Bytes} (hm : ∀ r, T (m.room r).name)
    (hname : T name) (r : RoomRef) :
    T ((m.getOrCreate cfg.maxRoomPlayers name).2.room r).name := by
  by_cases hold : r < m.heap.length
  · rw [RoomManager.room_getOrCreate_old hold]
    exact hm r
  · by_cases hnew : r < (m.getOrCreate cfg.maxRoomPlayers name).2.heap.length
    · rw [RoomManager.room_getOrCreate_new hnew (not_lt.mp hold)]
      exact hname
    · have hnone := hm r
      rw [RoomManager.room_of_le (not_lt.mp hold)] at hnone
      rw [RoomManager.room_of_le (not_lt.mp hnew)]
      exact hnone

/-- The name of a room is the one a `C_ROOM_ENTER` brought. -/
theorem name_packet (hw : Worded T srv) {packet : ClientPacket}
    (hbrings : ∀ text ∈ packet.spoken, T text) (r : RoomRef) :
    T ((srv.handlePacket env s cfg packet).room r).name := by
  cases packet with
  | login password =>
    change T ((srv.handleCLogin env s password).room r).name
    unfold Server.handleCLogin
    split
    · exact hw.name r
    · split <;> exact hw.name r
  | chat message =>
    change T ((srv.handleCChat s message).room r).name
    unfold Server.handleCChat
    split
    · exact name_pushJob hw.name _ _ r
    · exact hw.name r
  | roomEnter roomName =>
    change T ((srv.handleCRoomEnter env s cfg roomName).room r).name
    unfold Server.handleCRoomEnter
    split
    · exact hw.name r
    · rename_i name
      split
      · exact hw.name r
      · have hname : T name := hbrings name (by simp [ClientPacket.spoken])
        cases (srv.world.session s).room with
        | none => exact name_pushJob (name_getOrCreate hw.name hname) _ _ r
        | some prev => exact name_pushJob (name_getOrCreate (name_pushJob hw.name _ _) hname) _ _ r
  | roomLeave =>
    change T ((srv.handleCRoomLeave env s).room r).name
    unfold Server.handleCRoomLeave
    split
    · exact hw.name r
    · exact name_pushJob hw.name _ _ r
  | move position =>
    change T ((srv.handleCMove s position).room r).name
    unfold Server.handleCMove
    split
    · exact name_pushJob hw.name _ _ r
    · exact hw.name r
  | ping payload =>
    change T ((srv.handleCPing env s payload).room r).name
    unfold Server.handleCPing
    split <;> exact hw.name r
  | roomList => exact hw.name r
  | ready =>
    change T ((srv.handleCReady s).room r).name
    unfold Server.handleCReady
    split
    · exact hw.name r
    · split
      · exact hw.name r
      · exact name_pushJob hw.name _ _ r

/-- Only a packet creates a room. -/
theorem length_heap (h : next cfg srv (a, env) = some srv')
    (hnot : ∀ s packet, a ≠ .packet s packet) :
    srv'.rooms.heap.length = srv.rooms.heap.length := by
  obtain ⟨srv₁, hacts, rfl⟩ := next_acts h
  change srv₁.rooms.heap.length = _
  cases hacts with
  | accept token => unfold Server.handleAccept; cases token <;> rfl
  | packet packet accepted => exact absurd rfl (hnot _ packet)
  | @authCallback i s token valid accountId pending =>
    unfold Server.loginCallback
    cases valid with
    | false => rfl
    | true =>
      simp only [if_true]
      split
      · exact RoomManager.length_modify _
      · rfl
  | disconnect accepted =>
    unfold Server.handleDisconnect
    split
    · rfl
    · simp only
      split
      · rfl
      · exact RoomManager.length_modify _
  | job queue => exact length_inRoom _
  | tickEnd => exact length_inRoom _
  | removeIdleRooms => rfl

/-- A session has no account at first, and then the one its login was answered with. -/
theorem worded_account (hw : Worded T srv) (hnil : T []) (hbrings : ∀ text ∈ a.texts, T text)
    (h : next cfg srv (a, env) = some srv') (s : SessionRef) : T (srv'.account s) := by
  by_cases haccept : ∃ token, a = .accept token
  · obtain ⟨token, rfl⟩ := haccept
    obtain ⟨srv₁, hacts, rfl⟩ := next_acts h
    cases hacts with
    | accept token =>
      cases token with
      | false => exact hw.account s
      | true =>
        by_cases hs : s = srv.nextSession
        · change T ((srv.handleAccept true).world.session s).accountId
          rw [hs, show (srv.handleAccept true).world.session srv.nextSession = _ from
            Function.update_self _ _ _]
          exact hnil
        · change T ((srv.handleAccept true).world.session s).accountId
          rw [show (srv.handleAccept true).world.session s = srv.world.session s from
            Function.update_of_ne hs _ _]
          exact hw.account s
  · have heffect := sessionEffect_next (s := s) h fun token ha => absurd ⟨token, ha⟩ haccept
    change T (srv'.world.session s).accountId
    rw [heffect.account]
    by_cases hlogin : ∃ accountId, srv.loggingIn a = some (s, accountId)
    · obtain ⟨accountId, hlogin⟩ := hlogin
      rw [accountAfter_login hlogin]
      obtain ⟨i, token, rfl, -⟩ := callback_of_loggingIn hlogin
      exact hbrings accountId (by simp [Action.texts])
    · rw [accountAfter_other fun accountId hsome => hlogin ⟨accountId, hsome⟩]
      exact hw.account s

/-- A step on what has the property, bringing what has it. -/
theorem worded_next (hw : Worded T srv) (hnil : T []) (hbrings : ∀ text ∈ a.texts, T text)
    (h : next cfg srv (a, env) = some srv') : Worded T srv' where
  account := worded_account hw hnil hbrings h
  name r := by
    by_cases hpacket : ∃ s packet, a = .packet s packet
    · obtain ⟨s, packet, rfl⟩ := hpacket
      obtain ⟨srv₁, hacts, rfl⟩ := next_acts h
      cases hacts with
      | packet packet accepted => exact name_packet hw hbrings r
    · by_cases hr : r < srv.rooms.heap.length
      · rw [name_next h hr]
        exact hw.name r
      · have hlength := length_heap h fun s packet ha => hpacket ⟨s, packet, ha⟩
        rw [show srv'.room r = .new [] 0 from RoomManager.room_of_le (hlength ▸ not_lt.mp hr)]
        exact hnil
  jobs r job hjob := by
    obtain ⟨jobs, hjobs, hall⟩ := pushed_next h r
    rw [hjobs] at hjob
    rcases List.mem_append.mp hjob with hjob | hjob
    · exact hw.jobs r job (waiting_subset hjob)
    · obtain ⟨s, hpushes⟩ := hall job hjob
      cases hpushes with
      | packet packet action sent =>
        subst action
        exact texts_of_sentBy hw hbrings sent
      | callback i accountId token action pending hjob found =>
        subst hjob
        simp [Job.texts]
      | disconnect action hjob room =>
        subst hjob
        simp [Job.texts]
  moves r accountId hmove := by
    cases rooms_next h r with
    | queued inside kept queue idle waiting =>
      rw [show (srv'.room r).pendingMoves = (srv.room r).pendingMoves from
        (congrArg GameRoom.pendingMoves inside :)] at hmove
      exact hw.moves r accountId hmove
    | ran job jobs action queue room =>
      rw [room] at hmove
      rcases Job.move_run hmove with hold | ⟨x, y, rfl⟩
      · exact hw.moves r accountId hold
      · exact hw.jobs r (.handleMove accountId x y) (queue ▸ List.mem_cons_self) accountId
          (by simp [Job.texts])
    | swept action room =>
      rw [room] at hmove
      change accountId ∈ (if (srv.room r).state = .finished then (srv.room r).pendingMoves
        else ∅) at hmove
      split at hmove
      · exact hw.moves r accountId hmove
      · exact absurd hmove (AList.notMem_empty accountId)

end

/-! ## Whole runs -/

/-- The packets a session was sent. -/
def World.sentTo (w : World) (s : SessionRef) : List Bytes :=
  (w.sent.filter fun packet => packet.1 = s).map Prod.snd

section

variable {T E : Bytes → Prop} {cfg : Config} {srv srv' : Server} {s : SessionRef}
  {steps : List (Action × Env)}

theorem sentTo_append {w w' : World} {packets : List (SessionRef × Bytes)}
    (h : w'.sent = w.sent ++ packets) :
    w'.sentTo s = w.sentTo s ++ (packets.filter fun packet => packet.1 = s).map Prod.snd := by
  unfold World.sentTo
  rw [h, List.filter_append, List.map_append]

/-- A step sends nothing to a session that is down, or not in its audience. -/
theorem sentTo_next {a : Action} {env : Env} (h : next cfg srv (a, env) = some srv')
    (hout : srv.Down s ∨ ¬ srv.Audience srv' a s) :
    srv'.world.sentTo s = srv.world.sentTo s := by
  have hworded : Worded (fun _ => True) srv :=
    ⟨fun _ => trivial, fun _ => trivial, fun _ _ _ _ _ => trivial, fun _ _ _ => trivial⟩
  obtain ⟨packets, hsent, hall⟩ := @sent_next (fun _ => True) (fun _ => True) cfg env srv srv' a
    (fun _ _ => trivial) hworded (fun _ _ => trivial) (fun _ _ => trivial) h
  have hnone : packets.filter (fun packet => packet.1 = s) = [] := by
    rw [List.filter_eq_nil_iff]
    intro packet hp
    rw [decide_eq_true_eq]
    rintro rfl
    obtain ⟨haudience, hconnected, -⟩ := hall packet hp
    exact hout.elim hconnected fun hnot => hnot haudience
  rw [sentTo_append hsent, hnone, List.map_nil, List.append_nil]

/-- **Nothing is sent** to a session in a run at every step of which it is outside the audience; and
once it is down it stays down, and nothing is sent to it. -/
theorem silent_when_down (hs : s < srv.nextSession)
    (hrun : run (next cfg) srv steps = some srv') :
    (Along (next cfg) (fun mid step => ∀ mid', next cfg mid step = some mid' →
        ¬ mid.Audience mid' step.1 s) srv steps →
      srv'.world.sentTo s = srv.world.sentTo s) ∧
    (srv.Down s → srv'.Down s ∧ srv'.world.sentTo s = srv.world.sentTo s) := by
  constructor
  · intro hout
    refine run_invariant (I := fun mid => mid.world.sentTo s = srv.world.sentTo s) ?_ rfl hout hrun
    rintro mid ⟨a, env⟩ mid' hsame hnot hnext
    exact (sentTo_next hnext (Or.inr (hnot mid' hnext))).trans hsame
  · intro hdown
    have hkept : srv.nextSession ≤ srv'.nextSession ∧ srv'.Down s ∧
        srv'.world.sentTo s = srv.world.sentTo s := by
      refine run_preserves (I := fun mid => srv.nextSession ≤ mid.nextSession ∧ mid.Down s ∧
        mid.world.sentTo s = srv.world.sentTo s) ?_ ⟨le_refl _, hdown, rfl⟩ hrun
      rintro mid ⟨a, env⟩ mid' ⟨hle, hmid, hsame⟩ hnext
      exact ⟨hle.trans (nextSession_next hnext),
        (sessions_next hnext (lt_of_lt_of_le hs hle)).down hmid,
        (sentTo_next hnext (Or.inl hmid)).trans hsame⟩
    exact hkept.2

/-- A member that has dropped out hears nothing of the chat that goes on. -/
theorem silent_when_dropped :
    ∃ srv srv', run (next ⟨16, 30000, 60000⟩) .empty (quietly (lobby 2 ++ [.disconnect 0])) =
        some srv ∧
      run (next ⟨16, 30000, 60000⟩) srv
        (quietly [.packet 1 (.chat (some [104])), .job 0, .job 0]) = some srv' ∧
      srv'.Down 0 ∧ srv'.world.sentTo 0 = srv.world.sentTo 0 ∧
      srv'.world.sentTo 1 ≠ srv.world.sentTo 1 := by
  obtain ⟨srv, hbefore, hs, hdown, srv', hafter, hother⟩ :
      ∃ srv, run (next ⟨16, 30000, 60000⟩) .empty (quietly (lobby 2 ++ [.disconnect 0])) =
          some srv ∧ 0 < srv.nextSession ∧ srv.Down 0 ∧
        ∃ srv', run (next ⟨16, 30000, 60000⟩) srv
            (quietly [.packet 1 (.chat (some [104])), .job 0, .job 0]) = some srv' ∧
          srv'.world.sentTo 1 ≠ srv.world.sentTo 1 := by
    decide +kernel
  obtain ⟨hdown', hsame⟩ := (silent_when_down hs hafter).2 hdown
  exact ⟨srv, srv', hbefore, hafter, hdown', hsame, hother⟩

theorem worded_empty (hnil : T []) : Worded T .empty where
  account _ := hnil
  name r := by
    rw [room_empty]
    exact hnil
  jobs r job hjob := by
    rw [room_empty] at hjob
    exact absurd hjob List.not_mem_nil
  moves r accountId hmove := by
    rw [room_empty] at hmove
    exact absurd hmove (AList.notMem_empty accountId)

/-- The run brought the text from outside. -/
def Brought (steps : List (Action × Env)) (text : Bytes) : Prop :=
  ∃ step ∈ steps, text ∈ step.1.texts

/-- The run brought the timestamp in a ping. -/
def Pinged (steps : List (Action × Env)) (stamp : Bytes) : Prop :=
  ∃ step ∈ steps, stamp ∈ step.1.echoes

theorem named_empty : Server.empty.rooms.Named :=
  fun _ _ h => absurd h (by simp [Server.empty, RoomManager.empty])

/-- The rooms of the list go by their own names. -/
theorem listed_of_worded {env : Env} (hw : Worded T srv) (hm : srv.rooms.Named) :
    ∀ info ∈ srv.rooms.getRoomInfoList env, T info.name := by
  intro info hinfo
  obtain ⟨⟨name, r⟩, hwalk, rfl⟩ := List.mem_map.mp hinfo
  obtain ⟨name', -, hname⟩ := List.mem_filterMap.mp hwalk
  obtain ⟨r', hlookup, hsame⟩ := Option.map_eq_some_iff.mp hname
  obtain ⟨rfl, rfl⟩ := Prod.mk.inj hsame
  change T name'
  rw [← (hm name' r' hlookup).2]
  exact hw.name r'

/-- What has a property that the source's texts and those of the steps have, over a run. -/
theorem told_of_run (hT : ∀ text, SourceText text → T text)
    (hrun : run (next cfg) .empty steps = some srv)
    (hbrings : ∀ text, Brought steps text → T text)
    (hpings : ∀ stamp, Pinged steps stamp → E stamp) :
    ∀ packet ∈ srv.world.sent, ∃ id payload,
      packet.2 = frame id.toUInt16 payload ∧ Told T E id payload := by
  have hall : (Worded T srv ∧ srv.rooms.Named) ∧ ∀ packet ∈ srv.world.sent, ∃ id payload,
      packet.2 = frame id.toUInt16 payload ∧ Told T E id payload := by
    refine run_invariant (I := fun srv => (Worded T srv ∧ srv.rooms.Named) ∧
        ∀ packet ∈ srv.world.sent, ∃ id payload,
          packet.2 = frame id.toUInt16 payload ∧ Told T E id payload)
      (C := fun _ step => True ∧ (∀ text ∈ step.1.texts, T text) ∧
        ∀ stamp ∈ step.1.echoes, E stamp) ?_
      ⟨⟨worded_empty (hT [] .empty), named_empty⟩, by simp [Server.empty]⟩
      (along_and_mem (along_of_forall (fun _ _ => trivial) _ _) fun step hstep =>
        ⟨fun text htext => hbrings text ⟨step, hstep, htext⟩,
          fun stamp hstamp => hpings stamp ⟨step, hstep, hstamp⟩⟩) hrun
    rintro srv ⟨a, env⟩ srv' ⟨⟨hw, hm⟩, hsent⟩ ⟨-, hbrings, hechoes⟩ hnext
    refine ⟨⟨worded_next hw (hT [] .empty) hbrings hnext, named_next hm hnext⟩,
      fun packet hp => ?_⟩
    obtain ⟨packets, happend, hnew⟩ := sent_next hT hw (listed_of_worded hw hm) hechoes hnext
    rw [happend] at hp
    rcases List.mem_append.mp hp with hp | hp
    · exact hsent packet hp
    · exact (hnew packet hp).2.2
  exact hall.2

/-- **What is sent** is a message or one of the layouts of the source, and within `MAX_BUF_SIZE` but
for a snapshot of moves. A text in it is one of the source, the message of a chat, the name of a
room that a client asked for, or an account that was validated; no text of a login is among them.
What a pong echoes is the timestamp of a ping. -/
theorem texts_of_run (hrun : run (next cfg) .empty steps = some srv) :
    ∀ packet ∈ srv.world.sent, ∃ id payload, packet.2 = frame id.toUInt16 payload ∧
      Told (fun text => SourceText text ∨ Brought steps text) (Pinged steps) id payload :=
  told_of_run (fun _ => Or.inl) hrun (fun _ => Or.inr) fun _ => id

/-- A player logs in, pings and asks for the rooms. -/
def asksAround : List (Action × Env) :=
  quietly (lobby 1 ++ [.packet 0 (.ping [1, 2, 3, 4, 5, 6, 7, 8]), .packet 0 .roomList])

theorem texts_of_run_asksAround :
    ∃ srv, run (next ⟨16, 30000, 60000⟩) .empty asksAround = some srv ∧
      srv.world.sent.length = 5 ∧ ¬ Brought asksAround [116] ∧
      ∀ packet ∈ srv.world.sent, ∃ id payload, packet.2 = frame id.toUInt16 payload ∧
        Told (fun text => SourceText text ∨ Brought asksAround text) (Pinged asksAround) id
          payload := by
  obtain ⟨srv, hrun, hlength, hbrought⟩ :
      ∃ srv, run (next ⟨16, 30000, 60000⟩) .empty asksAround = some srv ∧
        srv.world.sent.length = 5 ∧ ∀ step ∈ asksAround, [116] ∉ step.1.texts := by
    decide +kernel
  exact ⟨srv, hrun, hlength, fun ⟨step, hstep, htext⟩ => hbrought step hstep htext,
    texts_of_run hrun⟩

/-! ## What a client reads -/

/-- A list of frames is a list of packets. -/
theorem packets_of_told {sent : List Bytes}
    (h : ∀ bytes ∈ sent, ∃ id payload, bytes = frame id.toUInt16 payload ∧ Told T E id payload) :
    ∃ packets : List (PacketID × Bytes),
      sent = packets.map (fun packet => frame packet.1.toUInt16 packet.2) ∧
        ∀ packet ∈ packets, Told T E packet.1 packet.2 := by
  induction sent with
  | nil => exact ⟨[], rfl, by simp⟩
  | cons bytes sent ih =>
    obtain ⟨id, payload, rfl, htold⟩ := h bytes List.mem_cons_self
    obtain ⟨packets, rfl, hall⟩ := ih fun bytes hb => h bytes (List.mem_cons_of_mem _ hb)
    exact ⟨(id, payload) :: packets, rfl, List.forall_mem_cons.mpr ⟨htold, hall⟩⟩

/-- Only a snapshot of moves can be long. -/
theorem Told.short {id : PacketID} {payload : Bytes} (h : Told T E id payload)
    (hmove : id ≠ .sMoveBroadcast) : payload.length < 2 ^ 16 := by
  have hfits : headerSize + payload.length ≤ maxBufSize := by
    cases h with
    | message texts fits => exact fits.resolve_left hmove
    | room room fits => exact fits
    | pong size =>
      rw [List.length_append, size]
      exact show headerSize + (8 + 8) ≤ maxBufSize by decide
    | roomList names fits => exact fits
  unfold headerSize maxBufSize at hfits
  omega

/-- What a client makes of a packet of UTF-8 texts. -/
theorem Told.parse {id : PacketID} {payload : Bytes} (skip : Skip) (h : Told Utf8 E id payload)
    (hshort : payload.length < 2 ^ 16) : id.Raw ∨ ∃ message : ServerMessage,
      id = message.packetId ∧ payload = message.serialize ∧
        ServerMessage.parse skip id payload = some message := by
  cases h with
  | @message message texts fits =>
    have hsize : message.serialize.length ≤ maxSize := by
      unfold maxSize
      omega
    exact Or.inr ⟨message, rfl, rfl, (parse_serialize skip message hsize).trans (if_pos texts)⟩
  | room room fits => exact Or.inl room.raw
  | pong | roomList => exact Or.inl trivial

theorem utf8_of_sourceText {text : Bytes} (h : SourceText text) : Utf8 text := by
  cases h with
  | empty => exact utf8_nil
  | _ => exact utf8_literal _

/-- **What a client reads** of all the bytes it was sent, in a run whose packets the handlers read
off some bytes and whose accounts are UTF-8. Framing them gives the packets back exactly when no
snapshot of moves outgrew 16 bits; and what is not raw is parsed as the message it was. -/
theorem client_reads_stream (skip : Skip) (hrun : run (next cfg) .empty steps = some srv)
    (hread : ∀ step ∈ steps, ∀ s packet, step.1 = .packet s packet →
      ∃ received, registered skip received = some packet)
    (hvalid : ∀ step ∈ steps, ∀ i accountId, step.1 = .authCallback i true accountId →
      Utf8 accountId) (s : SessionRef) :
    ∃ packets : List (PacketID × Bytes),
      srv.world.sentTo s = packets.map (fun packet => frame packet.1.toUInt16 packet.2) ∧
      (referenceFraming maxFrameSize (srv.world.sentTo s).flatten =
          packets.map (fun packet => (packet.1.toUInt16, packet.2)) ↔
        ∀ packet ∈ packets, packet.1 = .sMoveBroadcast → packet.2.length < 2 ^ 16) ∧
      ∀ packet ∈ packets, packet.2.length < 2 ^ 16 → packet.1.Raw ∨
        ∃ message : ServerMessage, packet.1 = message.packetId ∧ packet.2 = message.serialize ∧
          ServerMessage.parse skip packet.1 packet.2 = some message := by
  have hbrought : ∀ text, Brought steps text → Utf8 text := by
    rintro text ⟨⟨a, env⟩, hstep, htext⟩
    cases a with
    | packet t packet =>
      obtain ⟨⟨id, payload⟩, hregistered⟩ := hread _ hstep t packet rfl
      exact utf8_of_registered hregistered text (ClientPacket.texts_of_spoken htext)
    | authCallback i valid accountId =>
      cases valid with
      | false => exact absurd htext List.not_mem_nil
      | true =>
        obtain rfl := List.mem_singleton.mp htext
        exact hvalid _ hstep i text rfl
    | _ => exact absurd htext List.not_mem_nil
  have htold := @told_of_run Utf8 (fun _ => True) _ _ _ (fun _ => utf8_of_sourceText) hrun hbrought
    fun _ _ => trivial
  have hsent : ∀ bytes ∈ srv.world.sentTo s, ∃ id payload,
      bytes = frame id.toUInt16 payload ∧ Told Utf8 (fun _ => True) id payload := by
    intro bytes hbytes
    obtain ⟨packet, hpacket, rfl⟩ := List.mem_map.mp hbytes
    exact htold packet (List.mem_of_mem_filter hpacket)
  obtain ⟨packets, hpackets, hall⟩ := packets_of_told hsent
  have hframes : (srv.world.sentTo s).flatten =
      frames (packets.map fun packet => (packet.1.toUInt16, packet.2)) := by
    rw [hpackets, frames, List.map_map]
    rfl
  refine ⟨packets, hpackets, ?_, fun packet hp hshort => (hall packet hp).parse skip hshort⟩
  rw [hframes, referenceFraming_iff, List.forall_mem_map]
  refine ⟨fun h packet hp _ => h packet hp, fun h packet hp => ?_⟩
  by_cases hmove : packet.1 = .sMoveBroadcast
  · exact h packet hp hmove
  · exact (hall packet hp).short hmove

/-- A login, an enter and a chat, as their handlers read them off the bytes. -/
def chatRead : List (Action × Env) :=
  quietly (lobby 1 ++ [.packet 0 (.chat (some [104])), .job 0])

theorem client_reads_stream_chat :
    ∃ (srv : Server) (packets : List (PacketID × Bytes)),
      run (next ⟨16, 30000, 60000⟩) .empty chatRead = some srv ∧ packets.length = 4 ∧
      referenceFraming maxFrameSize (srv.world.sentTo 0).flatten =
        packets.map fun packet => (packet.1.toUInt16, packet.2) := by
  obtain ⟨srv, hrun, hcount, hlength⟩ :
      ∃ srv, run (next ⟨16, 30000, 60000⟩) .empty chatRead = some srv ∧
        (srv.world.sentTo 0).length = 4 ∧ ∀ bytes ∈ srv.world.sentTo 0, bytes.length ≤ 100 := by
    decide +kernel
  have hactions : ∀ step ∈ chatRead, step.1 = .accept true ∨ step.1 = .job 0 ∨
      step.1 = .authCallback 0 true [97] ∨ step.1 = .packet 0 (.login (some [116])) ∨
      step.1 = .packet 0 (.roomEnter (some [65])) ∨ step.1 = .packet 0 (.chat (some [104])) := by
    decide
  have hread : ∀ step ∈ chatRead, ∀ s packet, step.1 = .packet s packet →
      ∃ received, registered .refuse received = some packet := by
    intro step hstep s packet haction
    rcases hactions step hstep with h | h | h | h | h | h <;> rw [haction] at h <;> cases h
    · exact ⟨(1, [18, 1, 116]), by decide⟩
    · exact ⟨(5, [10, 1, 65]), by decide⟩
    · exact ⟨(3, [10, 1, 104]), by decide⟩
  have hvalid : ∀ step ∈ chatRead, ∀ i accountId, step.1 = .authCallback i true accountId →
      Utf8 accountId := by
    intro step hstep i accountId haction
    rcases hactions step hstep with h | h | h | h | h | h <;> rw [haction] at h <;> cases h
    decide
  obtain ⟨packets, hpackets, hframing, -⟩ := client_reads_stream .refuse hrun hread hvalid 0
  refine ⟨srv, packets, hrun, ?_, hframing.mpr fun packet hp _ => ?_⟩
  · rwa [hpackets, List.length_map] at hcount
  · have hshort := hlength _ (hpackets ▸ List.mem_map_of_mem hp)
    rw [length_frame] at hshort
    omega

end

end RealtimeServer
