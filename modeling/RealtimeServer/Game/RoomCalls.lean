import RealtimeServer.Core.Steps
import RealtimeServer.Game.Snapshots
import RealtimeServer.Packet.Protocol

/-!
# What a room calls

`HandlerCalls` reads a packet handler as the calls it makes; here the same is done for the jobs and
the ticks of a room. A job writes at most one room pointer and sends: to its own session, to all
members, or to all members but its own session. All it sends to the members goes to the same
members, those the room has behind the job; and only an enter, a rejoin and a leave on request send
an answer, to their own session (`Job.Sends`).

The texts are followed too: `T` is any property of texts. What a job sends has it when the account
names, the name of the room and what the job captured have it, and the texts written in the source
(`SourceText`).

* **`calls_job`**, **`calls_tickEnd`**: the calls of a job, and of a tick behind its jobs.
-/

namespace RealtimeServer

open Unordered

/-- The packets that have a layout of their own instead of a message. -/
def PacketID.Raw : PacketID → Prop
  | sPong | sRoomList | sRoomState | sGameStart | sGameResult => True
  | _ => False

/-- What a room tells its members. -/
def PacketID.Notice : PacketID → Prop
  | sChat | sRoomUserEntered | sRoomUserLeft | sMoveBroadcast | sRoomState | sGameStart
  | sGameResult => True
  | _ => False

/-- The kinds of packets a job may send. -/
def Job.Sends : Job → PacketID → Prop
  | handleEnter _, id | handleRejoin _, id => id.Notice ∨ id = .sRoomEnter
  | leaveAndAck _, id => id.Notice ∨ id = .sRoomLeave
  | handleLeave _, id | chat .., id | handleMove .., id | handleReady _, id => id.Notice

/-- The texts a handler or a room puts into a message by itself. -/
inductive SourceText : Bytes → Prop
  | empty : SourceText []
  | noToken :
      SourceText (utf8 "session_token이 비어 있습니다. 먼저 session-server에 로그인하세요.")
  | badToken : SourceText (utf8 "유효하지 않은 session_token입니다.")
  | loggedIn : SourceText (utf8 "Login OK.")
  | reconnected : SourceText (utf8 "reconnected")
  | notLoggedIn : SourceText (utf8 "로그인 후 입장해주세요.")
  | playing : SourceText (utf8 "게임이 진행 중입니다.")
  | full (maxPlayers : Int) :
      SourceText (utf8 ("방이 꽉 찼습니다. (" ++ toString maxPlayers ++ "명 제한)"))
  | entered : SourceText (utf8 "입장 성공")

/-- The texts of a message have the property `T`. -/
def ServerMessage.Of (T : Bytes → Prop) (message : ServerMessage) : Prop :=
  ∀ text ∈ message.texts, T text

/-- What a room writes into a packet with a layout of its own, whose texts have the property `T`. -/
inductive RoomTold (T : Bytes → Prop) : PacketID → Bytes → Prop
  | roomState (state : RoomState) (total ready : UInt16) :
      RoomTold T .sRoomState (state.toUInt8 :: (u16Bytes total ++ u16Bytes ready))
  | gameStart : RoomTold T .sGameStart []
  | gameResult {winnerId : Bytes} (winner : T winnerId) :
      RoomTold T .sGameResult (u16Bytes (UInt16.ofNat winnerId.length) ++ winnerId)

theorem RoomTold.raw {T : Bytes → Prop} {id : PacketID} {data : Bytes} (h : RoomTold T id data) :
    id.Raw := by
  cases h <;> trivial

/-- The texts a job captured. -/
def Job.texts : Job → List Bytes
  | chat sender message => [sender, message]
  | handleMove accountId _ _ => [accountId]
  | handleEnter _ | handleLeave _ | leaveAndAck _ | handleRejoin _ | handleReady _ => []

/-- From one world to another a room makes its calls: `own` is the session its job is about,
`members` are those it sends to, `K` are the kinds of packets it sends. -/
inductive RoomCalls (T : Bytes → Prop) (K : PacketID → Prop) (env : Env) (own : Option SessionRef)
    (members : IterSet SessionRef) : World → World → Prop
  | refl (w : World) : RoomCalls T K env own members w w
  | trans {w w' w'' : World} (h : RoomCalls T K env own members w w')
      (h' : RoomCalls T K env own members w' w'') : RoomCalls T K env own members w w''
  | setRoom (w : World) {s : SessionRef} (room : Option RoomRef) (mine : own = some s) :
      RoomCalls T K env own members w (w.setRoom s room)
  | send (w : World) {s : SessionRef} {message : ServerMessage} (mine : own = some s)
      (kind : K message.packetId) (texts : message.Of T) :
      RoomCalls T K env own members w (w.send env s message)
  | broadcast (w : World) {room : GameRoom} {message : ServerMessage}
      (same : room.members = members) (kind : K message.packetId) (texts : message.Of T) :
      RoomCalls T K env own members w (room.broadcast env message w)
  | broadcastExcept (w : World) {room : GameRoom} {message : ServerMessage} {s : SessionRef}
      (same : room.members = members) (mine : own = some s) (kind : K message.packetId)
      (texts : message.Of T) :
      RoomCalls T K env own members w (room.broadcastExcept env message s w)
  | broadcastShared (w : World) {room : GameRoom} {actors : List MovedActor}
      (same : room.members = members) (kind : K .sMoveBroadcast)
      (texts : (ServerMessage.moveBroadcast actors).Of T) :
      RoomCalls T K env own members w (room.broadcastShared env (.moveBroadcast actors) w)
  | sendRawBroadcast (w : World) {room : GameRoom} {id : PacketID} {data : Bytes}
      (same : room.members = members) (kind : K id) (raw : RoomTold T id data) :
      RoomCalls T K env own members w (room.sendRawBroadcast env id data w)

/-- Kinds may be added. -/
theorem RoomCalls.mono {T : Bytes → Prop} {K L : PacketID → Prop} {env : Env}
    {own : Option SessionRef} {members : IterSet SessionRef} {w w' : World}
    (h : RoomCalls T K env own members w w') (hkl : ∀ id, K id → L id) :
    RoomCalls T L env own members w w' := by
  induction h with
  | refl w => exact .refl w
  | trans h h' ih ih' => exact .trans ih ih'
  | setRoom w room mine => exact .setRoom w room mine
  | send w mine kind texts => exact .send w mine (hkl _ kind) texts
  | broadcast w same kind texts => exact .broadcast w same (hkl _ kind) texts
  | broadcastExcept w same mine kind texts => exact .broadcastExcept w same mine (hkl _ kind) texts
  | broadcastShared w same kind texts => exact .broadcastShared w same (hkl _ kind) texts
  | sendRawBroadcast w same kind raw => exact .sendRawBroadcast w same (hkl _ kind) raw

section

variable {T : Bytes → Prop} {K : PacketID → Prop} {env : Env} {own : Option SessionRef}
  {members : IterSet SessionRef} {this : RoomRef} {room : GameRoom} {w : World} {s : SessionRef}

namespace GameRoom

theorem calls_roomState (hK : ∀ id, id.Notice → K id) (same : room.members = members) (w : World) :
    RoomCalls T K env own members w (room.broadcastRoomState env w) := by
  unfold broadcastRoomState
  split
  · exact .refl w
  · exact .sendRawBroadcast w same (hK _ trivial) (.roomState ..)

theorem calls_gameEnd (same : room.members = members) {winnerId : Bytes} (hwinner : T winnerId)
    (w : World) :
    RoomCalls T PacketID.Notice env own members w (room.handleGameEnd env winnerId w).2 := by
  have hkind : PacketID.Notice .sGameResult := trivial
  refine .trans (.sendRawBroadcast w ?_ hkind (.gameResult hwinner))
    (calls_roomState (fun _ => id) ?_ _)
  · exact same
  · exact same

theorem calls_tryStartGame (same : room.members = members) (w : World) :
    RoomCalls T PacketID.Notice env own members w (room.tryStartGame env w).2 := by
  unfold tryStartGame
  split
  · exact .refl w
  · split
    · exact .refl w
    · have hkind : PacketID.Notice .sGameStart := trivial
      refine .trans (.sendRawBroadcast w ?_ hkind .gameStart) (calls_roomState (fun _ => id) ?_ _)
      · exact same
      · exact same

theorem calls_ready (accountId : Bytes) (same : room.members = members) :
    RoomCalls T PacketID.Notice env own members w (room.handleReady env accountId w).2 := by
  unfold handleReady
  split
  · exact .refl w
  · have htoggled : (room.toggleReady accountId).members = members := by
      rw [members_toggleReady, same]
    exact .trans (calls_roomState (fun _ => id) htoggled w) (calls_tryStartGame htoggled _)

/-- The texts written in the source, the accounts and the room's name have the property. -/
structure Worded (T : Bytes → Prop) (room : GameRoom) (w : World) : Prop where
  literal : ∀ text, SourceText text → T text
  account : ∀ s, T (w.session s).accountId
  name : T room.name

/-- Any texts may be said of the room. -/
theorem worded_any (room : GameRoom) (w : World) : Worded (fun _ => True) room w :=
  ⟨fun _ _ => trivial, fun _ => trivial, trivial⟩

/-- What `HandleEnter` and `HandleRejoin` send when they have let the session in. -/
theorem calls_joined (h : Worded T room w) {room' : GameRoom} {text : Bytes}
    (htext : SourceText text)
    (same : room'.members = members) (hname : room'.name = room.name) (mine : own = some s) :
    RoomCalls T (fun id => id.Notice ∨ id = .sRoomEnter) env own members w
      (room'.broadcastRoomState env (room'.broadcastExcept env
        (.roomUserEntered (((w.setRoom s (some this)).send env s
          (.roomEnter true text room'.name)).session s).accountId) s
        ((w.setRoom s (some this)).send env s (.roomEnter true text room'.name)))) := by
  have haccount : (((w.setRoom s (some this)).send env s
      (.roomEnter true text room'.name)).session s).accountId =
        (w.session s).accountId := by
    rw [(Sent.send env s _ _).accountId, World.accountId_setRoom]
  have hack : (ServerMessage.roomEnter true text room'.name).Of T := by
    rw [hname]
    simpa [ServerMessage.Of, ServerMessage.texts] using ⟨h.literal text htext, h.name⟩
  have hnotice : (ServerMessage.roomUserEntered (w.session s).accountId).Of T := by
    simpa [ServerMessage.Of, ServerMessage.texts] using h.account s
  rw [haccount]
  have hkind : (ServerMessage.roomUserEntered (w.session s).accountId).packetId.Notice := trivial
  refine .trans (.setRoom w (some this) mine) (.trans (.send _ mine (Or.inr rfl) hack)
    (.trans (.broadcastExcept _ same mine (Or.inl hkind) hnotice) ?_))
  exact calls_roomState (fun _ => Or.inl) same _

theorem calls_enter (h : Worded T room w) :
    RoomCalls T (fun id => id.Notice ∨ id = .sRoomEnter) env (some s)
      (room.handleEnter env this s w).1.members w
      (room.handleEnter env this s w).2 := by
  have hrefused : ∀ text, SourceText text → (ServerMessage.roomEnter false text []).Of T := by
    intro text htext
    simpa [ServerMessage.Of, ServerMessage.texts] using
      ⟨h.literal text htext, h.literal [] .empty⟩
  unfold handleEnter
  split
  · exact .send w rfl (Or.inr rfl) (hrefused _ .playing)
  · split
    · exact .send w rfl (Or.inr rfl) (hrefused _ (.full _))
    · exact @calls_joined T env _ _ this room w s h (room.entered env s) _ .entered rfl rfl rfl

theorem calls_rejoin (h : Worded T room w) :
    RoomCalls T (fun id => id.Notice ∨ id = .sRoomEnter) env (some s)
      (room.handleRejoin env this s w).1.members w
      (room.handleRejoin env this s w).2 :=
  @calls_joined T env _ _ this room w s h (room.rejoined env s (w.session s).accountId) _
    .reconnected rfl rfl rfl

theorem calls_leave (h : Worded T room w) :
    RoomCalls T PacketID.Notice env (some s) (room.handleLeave env s w).1.members w
      (room.handleLeave env s w).2 := by
  by_cases hmem : s ∈ room.members
  · rw [(handleLeave_member hmem).1]
    unfold handleLeave
    rw [if_neg (not_not.mpr hmem)]
    simp only [World.accountId_setRoom]
    have hnotice : ∀ room' : GameRoom, room'.members = room.members.erase s →
        RoomCalls T PacketID.Notice env (some s) (room.members.erase s) w
          (room'.broadcast env (.roomUserLeft (w.session s).accountId) (w.setRoom s none)) := by
      intro room' same
      refine .trans (.setRoom w none rfl) (.broadcast _ same trivial ?_)
      simpa [ServerMessage.Of, ServerMessage.texts] using h.account s
    by_cases hgame : room.state = .inGame
    · simp only [if_pos hgame]
      cases (room.members.erase s).first with
      | some winner =>
        refine .trans (hnotice _ rfl) (calls_gameEnd rfl ?_ _)
        rw [(Sent.broadcast env _ _ _).accountId, World.accountId_setRoom]
        exact h.account winner
      | none =>
        refine .trans (hnotice _ rfl) (calls_roomState (fun _ => id) ?_ _)
        split <;> rfl
    · simp only [if_neg hgame]
      refine .trans (hnotice _ rfl) (calls_roomState (fun _ => id) ?_ _)
      split <;> rfl
  · rw [handleLeave_stranger hmem]
    exact .refl w

end GameRoom

/-- **What a job calls.** -/
theorem calls_job (h : GameRoom.Worded T room w) {job : Job} (htexts : ∀ text ∈ job.texts, T text) :
    RoomCalls T job.Sends env job.session (job.run env this room w).1.members w
      (job.run env this room w).2 := by
  cases job with
  | handleEnter s => exact GameRoom.calls_enter h
  | handleLeave s => exact GameRoom.calls_leave h
  | leaveAndAck s =>
    have hack : (ServerMessage.roomLeave true).Of T := by
      simp [ServerMessage.Of, ServerMessage.texts]
    exact .trans ((GameRoom.calls_leave h).mono fun _ => Or.inl) (.send _ rfl (Or.inr rfl) hack)
  | handleRejoin s => exact GameRoom.calls_rejoin h
  | chat sender message => exact .broadcast w rfl trivial htexts
  | handleMove accountId x y => exact .refl w
  | handleReady accountId =>
    have hmembers : room.members = ((Job.handleReady accountId).run env this room w).1.members := by
      rw [(Job.run_spec _).1]
      exact (GameRoom.members_readied room accountId).symm
    exact GameRoom.calls_ready accountId hmembers

/-- A job of a room in the map of the server. -/
theorem calls_runJob {srv : Server} {job : Job} {jobs : List Job}
    (queue : (srv.room this).jobQueue = job :: jobs)
    (h : GameRoom.Worded T { srv.room this with jobQueue := jobs } srv.world)
    (htexts : ∀ text ∈ job.texts, T text) :
    RoomCalls T job.Sends env job.session ((srv.runJob env this job jobs).room this).members
      srv.world (srv.runJob env this job jobs).world := by
  have hroom : ((srv.runJob env this job jobs).room this).members =
      (job.run env this { srv.room this with jobQueue := jobs } srv.world).1.members :=
    congrArg GameRoom.members (room_inRoom_self (RoomManager.lt_of_head queue))
  rw [hroom]
  exact calls_job h htexts

/-- **What a tick calls** behind its jobs. -/
theorem calls_tickEnd (hmoves : ∀ accountId ∈ room.pendingMoves, T accountId)
    (reconnectWindowMs : Int) :
    RoomCalls T PacketID.Notice env none room.members w
      (room.tickEnd env reconnectWindowMs w).2 := by
  unfold GameRoom.tickEnd
  simp only
  split
  · split
    · refine GameRoom.calls_roomState (fun _ => id) ?_ w
      rfl
    · exact .refl w
  · unfold GameRoom.broadcastPendingMoves
    split
    · exact .refl w
    · refine .broadcastShared w rfl trivial fun text htext => ?_
      obtain ⟨actor, hactor, rfl⟩ := List.mem_map.mp htext
      have hpending : room.pendingMoves.lookup actor.accountId = _ :=
        GameRoom.mem_actors.mp hactor
      exact hmoves _ (AList.lookup_isSome.mp (by rw [hpending]; rfl))

end

end RealtimeServer
