import RealtimeServer.Game.Jobs

/-!
# What a room announces

Which packets a job or a tick sends, as far as a receiver takes them for facts about the players:
the winner a `S_GAME_RESULT` names, the sender of a `S_CHAT`, and who entered or left.

* `announces_job`: a result names the account of the session that is first among the members when
  it is sent, a chat is the one the job was queued with, and an arrival or a departure names the
  account of the job's session. `announces_run`: the result names a member.
* `announces_tickEnd`: a tick sends none of these behind its jobs.
-/

namespace RealtimeServer

open Unordered

/-- The payload of `S_GAME_RESULT`. -/
def gameResult (winnerId : Bytes) : Bytes :=
  u16Bytes (UInt16.ofNat winnerId.length) ++ winnerId

/-- What a job may send in a room that has these members behind it. -/
structure Announces (members : IterSet SessionRef) (w : World) (job : Option Job) (id : PacketID)
    (payload : Bytes) : Prop where
  result : id = .sGameResult →
    ∃ winner ∈ members, payload = gameResult (w.session winner).accountId
  chat : id = .sChat → ∃ sender message, job = some (.chat sender message) ∧
    payload = (ServerMessage.chat sender message).serialize
  entered : id = .sRoomUserEntered → ∃ s,
    (job = some (.handleEnter s) ∨ job = some (.handleRejoin s)) ∧
      payload = (ServerMessage.roomUserEntered (w.session s).accountId).serialize
  left : id = .sRoomUserLeft → ∃ s, (∃ leave ∈ job, leave.Leaves s) ∧
    payload = (ServerMessage.roomUserLeft (w.session s).accountId).serialize

section

variable {env : Env} {this : RoomRef} {room : GameRoom} {w w' : World} {job : Option Job}
  {members : IterSet SessionRef}

/-- A packet that is none of these. -/
theorem Announces.other {id : PacketID} {payload : Bytes} (hresult : id ≠ .sGameResult)
    (hchat : id ≠ .sChat) (hentered : id ≠ .sRoomUserEntered) (hleft : id ≠ .sRoomUserLeft) :
    Announces members w job id payload :=
  ⟨fun h => absurd h hresult, fun h => absurd h hchat, fun h => absurd h hentered,
    fun h => absurd h hleft⟩

namespace Emits

variable {P : PacketID → Bytes → Prop}

theorem broadcast {message : ServerMessage} (w : World) (h : P message.packetId message.serialize) :
    Emits P w (room.broadcast env message w) :=
  foldl (fun w s => send env s w h) _ w

theorem broadcastExcept {message : ServerMessage} {exclude : SessionRef} (w : World)
    (h : P message.packetId message.serialize) :
    Emits P w (room.broadcastExcept env message exclude w) := by
  refine foldl (fun w s => ?_) _ w
  split
  · exact send env s w h
  · exact refl P w

theorem broadcastShared {message : ServerMessage} (w : World)
    (h : P message.packetId message.serialize) :
    Emits P w (room.broadcastShared env message w) := by
  unfold GameRoom.broadcastShared
  split
  · exact refl P w
  · exact foldl (fun w s => sendShared env s w h) _ w

theorem sendRawBroadcast {id : PacketID} {data : Bytes} (w : World) (h : P id data) :
    Emits P w (room.sendRawBroadcast env id data w) :=
  foldl (fun w s => sendRaw env s w h) _ w

theorem broadcastRoomState (w : World) (h : ∀ data, P .sRoomState data) :
    Emits P w (room.broadcastRoomState env w) := by
  unfold GameRoom.broadcastRoomState
  split
  · exact refl P w
  · exact sendRawBroadcast w (h _)

end Emits

namespace GameRoom

/-- A method ends by announcing the room's state. -/
theorem announces_roomState (w' : World) :
    Emits (Announces members w job) w' (room.broadcastRoomState env w') :=
  Emits.broadcastRoomState w' fun _ => .other nofun nofun nofun nofun

/-- The answer to a `C_ROOM_ENTER`. -/
theorem announces_roomEnter (s : SessionRef) (success : Bool) (text roomName : Bytes)
    (w' : World) :
    Emits (Announces members w job) w' (w'.send env s (.roomEnter success text roomName)) :=
  Emits.send env s w' (.other nofun nofun nofun nofun)

/-- What `HandleEnter` and `HandleRejoin` send when they have let the session in. -/
theorem announces_joined {s : SessionRef} (text : Bytes)
    (hjob : job = some (.handleEnter s) ∨ job = some (.handleRejoin s)) :
    Emits (Announces members w job) w
      (room.broadcastRoomState env (room.broadcastExcept env
        (.roomUserEntered (((w.setRoom s (some this)).send env s
          (.roomEnter true text room.name)).session s).accountId) s
        ((w.setRoom s (some this)).send env s (.roomEnter true text room.name)))) := by
  have hmoved : Emits (Announces members w job) w (w.setRoom s (some this)) :=
    Emits.of_sent_eq rfl
  have haccount : (((w.setRoom s (some this)).send env s
      (.roomEnter true text room.name)).session s).accountId = (w.session s).accountId := by
    rw [(Sent.send env s _ _).accountId, World.accountId_setRoom]
  rw [haccount]
  have hack : Emits (Announces members w job) w
      ((w.setRoom s (some this)).send env s (.roomEnter true text room.name)) :=
    hmoved.trans (announces_roomEnter s true text room.name _)
  refine hack.trans (Emits.trans ?_ (announces_roomState _))
  exact Emits.broadcastExcept _ ⟨nofun, nofun, fun _ => ⟨s, hjob, rfl⟩, nofun⟩

theorem announces_enter (s : SessionRef) :
    Emits (Announces members w (some (.handleEnter s))) w (room.handleEnter env this s w).2 := by
  unfold handleEnter
  split
  · exact announces_roomEnter s _ _ _ w
  · split
    · exact announces_roomEnter s _ _ _ w
    · exact @announces_joined env this (room.entered env s) w _ members s _ (Or.inl rfl)

theorem announces_rejoin (s : SessionRef) :
    Emits (Announces members w (some (.handleRejoin s))) w (room.handleRejoin env this s w).2 :=
  @announces_joined env this (room.rejoined env s (w.session s).accountId) w _ _ s _ (Or.inr rfl)

/-- **The winner** is a member of the room that ends its game. -/
theorem announces_gameEnd {winner : SessionRef} {winnerId : Bytes} (hwinner : winner ∈ members)
    (hid : winnerId = (w.session winner).accountId) :
    Emits (Announces members w job) w' (room.handleGameEnd env winnerId w').2 := by
  subst hid
  have hresult : Announces members w job .sGameResult (gameResult (w.session winner).accountId) :=
    ⟨fun _ => ⟨winner, hwinner, rfl⟩, nofun, nofun, nofun⟩
  exact (Emits.sendRawBroadcast w' hresult).trans (announces_roomState _)

theorem announces_tryStartGame :
    Emits (Announces members w job) w' (room.tryStartGame env w').2 := by
  unfold tryStartGame
  split
  · exact Emits.refl _ w'
  · split
    · exact Emits.refl _ w'
    · have hstart : Emits (Announces members w job) w'
          ({ room with state := .inGame, readyPlayers := ∅ }.sendRawBroadcast env .sGameStart []
            w') := Emits.sendRawBroadcast w' (.other nofun nofun nofun nofun)
      exact hstart.trans (announces_roomState _)

theorem announces_ready (accountId : Bytes) :
    Emits (Announces members w job) w' (room.handleReady env accountId w').2 := by
  unfold handleReady
  split
  · exact Emits.refl _ w'
  · exact Emits.trans (announces_roomState w') announces_tryStartGame

/-- A leave names whoever is first among the members behind it, when it ends a game. -/
theorem announces_leave {s : SessionRef} (hjob : ∃ leave ∈ job, leave.Leaves s)
    (hwinner : ∀ winner, s ∈ room.members → room.state = .inGame →
      (room.members.erase s).first = some winner → winner ∈ members) :
    Emits (Announces members w job) w (room.handleLeave env s w).2 := by
  by_cases hmem : s ∈ room.members
  · unfold handleLeave
    rw [if_neg (not_not.mpr hmem)]
    simp only [World.accountId_setRoom]
    have hnotice : ∀ room' : GameRoom, Emits (Announces members w job) w
        (room'.broadcast env (.roomUserLeft (w.session s).accountId) (w.setRoom s none)) := by
      intro room'
      have hmoved : Emits (Announces members w job) w (w.setRoom s none) :=
        Emits.of_sent_eq rfl
      exact hmoved.trans (Emits.broadcast _ ⟨nofun, nofun, nofun, fun _ => ⟨s, hjob, rfl⟩⟩)
    by_cases hgame : room.state = .inGame
    · simp only [if_pos hgame]
      cases hfirst : (room.members.erase s).first with
      | some winner =>
        -- the notice before it has not changed the winner's account
        refine (hnotice _).trans (announces_gameEnd (hwinner winner hmem hgame hfirst) ?_)
        rw [(Sent.broadcast env _ _ _).accountId, World.accountId_setRoom]
      | none => exact (hnotice _).trans (announces_roomState _)
    · simp only [if_neg hgame]
      exact (hnotice _).trans (announces_roomState _)
  · rw [handleLeave_stranger hmem]
    exact Emits.refl _ w

end GameRoom

/-- **What a job announces**: a result names the first member behind a leave that ends a game, and
the rest is about the job's own session. -/
theorem announces_job (job : Job)
    (hwinner : ∀ s winner, job.Leaves s → s ∈ room.members → room.state = .inGame →
      (room.members.erase s).first = some winner → winner ∈ members) :
    Emits (Announces members w (some job)) w (job.run env this room w).2 := by
  cases job with
  | handleEnter s => exact GameRoom.announces_enter s
  | handleLeave s =>
    exact GameRoom.announces_leave ⟨_, rfl, Or.inl rfl⟩ fun winner => hwinner s winner (Or.inl rfl)
  | leaveAndAck s =>
    have hleave : Emits (Announces members w (some (.leaveAndAck s))) w
        (room.handleLeave env s w).2 :=
      GameRoom.announces_leave ⟨_, rfl, Or.inr rfl⟩ fun winner => hwinner s winner (Or.inr rfl)
    exact hleave.trans (Emits.send env s _ (.other nofun nofun nofun nofun))
  | handleRejoin s => exact GameRoom.announces_rejoin s
  | chat sender message =>
    exact Emits.broadcast w ⟨nofun, fun _ => ⟨sender, message, rfl, rfl⟩, nofun, nofun⟩
  | handleMove accountId x y => exact Emits.refl _ w
  | handleReady accountId => exact GameRoom.announces_ready accountId

/-- A result names a member of the room behind the job. -/
theorem announces_run (job : Job) :
    Emits (Announces (job.run env this room w).1.members w (some job)) w
      (job.run env this room w).2 := by
  refine announces_job job fun s winner hleaves hmem _ hfirst => ?_
  rw [(Job.run_spec job).1, Job.outcome_leave hleaves, if_pos hmem]
  exact IterSet.first_mem hfirst

/-- A tick announces none of them behind its jobs. -/
theorem announces_tickEnd (reconnectWindowMs : Int) :
    Emits (Announces members w none) w' (room.tickEnd env reconnectWindowMs w').2 := by
  unfold GameRoom.tickEnd
  simp only
  split
  · split
    · exact GameRoom.announces_roomState _
    · exact Emits.refl _ _
  · unfold GameRoom.broadcastPendingMoves
    split
    · exact Emits.refl _ _
    · exact Emits.broadcastShared _ (.other nofun nofun nofun nofun)

end

end RealtimeServer
