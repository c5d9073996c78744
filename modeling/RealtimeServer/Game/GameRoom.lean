import Mathlib.Data.Finset.Erase
import RealtimeServer.Core.ServerSession

/-!
# A game room and its jobs

Model of `GameRoom` (`Game/GameRoom.h`) and of the jobs the handlers queue in it
(`Packet/Logic/Logic.cpp`, `ServerCore::HandleDisconnect`). A job is the data its lambda captures.
A room method takes the room, the world and the environment of the step, and gives both back; `this`
is the room's own address, which `HandleEnter` and `HandleRejoin` store in the session.

What a job does is said once: `Job.outcome` is what becomes of the room, `Job.moved` which room
pointer is written. **`Job.run_spec`**: a job's run is its outcome, and its world is `Job.moved`
after sends. **`tickEnd_spec`** says the same of what `Tick` does behind the jobs.
-/

namespace RealtimeServer

open Unordered

/-- `RoomState`. -/
inductive RoomState
  | waiting | inGame | finished
  deriving DecidableEq

/-- `static_cast<uint8_t>(m_state)`. -/
def RoomState.toUInt8 : RoomState → UInt8
  | waiting => 0
  | inGame => 1
  | finished => 2

/-- `ReconnectSlot`. -/
structure ReconnectSlot where
  storedAt : Int
  deriving DecidableEq

/-- A queued lambda: the method it calls and what it captured. -/
inductive Job
  | handleEnter (session : SessionRef)
  /-- Queued by `Handle_C_ROOM_ENTER` for the previous room and by `HandleDisconnect`. -/
  | handleLeave (session : SessionRef)
  /-- Queued by `Handle_C_ROOM_LEAVE`: `HandleLeave`, then the ack. -/
  | leaveAndAck (session : SessionRef)
  | handleRejoin (session : SessionRef)
  | chat (sender message : Bytes)
  | handleMove (accountId : Bytes) (x y : UInt32)
  | handleReady (accountId : Bytes)
  deriving DecidableEq

/-- `GameRoom`. -/
structure GameRoom where
  name : Bytes
  maxPlayers : Int
  jobQueue : List Job
  state : RoomState
  finishedAt : Int
  emptySinceMs : Int
  readyPlayers : Finset Bytes
  members : IterSet SessionRef
  pendingMoves : Map Bytes (UInt32 × UInt32)
  pendingReconnects : Map Bytes ReconnectSlot

namespace GameRoom

/-- The constructor. -/
def new (name : Bytes) (maxPlayers : Int) : GameRoom :=
  { name := name
    maxPlayers := maxPlayers
    jobQueue := []
    state := .waiting
    finishedAt := 0
    emptySinceMs := 0
    readyPlayers := ∅
    members := .empty
    pendingMoves := ∅
    pendingReconnects := ∅ }

/-- `HasPendingReconnect`. -/
def hasPendingReconnect (room : GameRoom) (accountId : Bytes) : Bool :=
  (room.pendingReconnects.lookup accountId).isSome

/-- `PushJob`. -/
def pushJob (room : GameRoom) (job : Job) : GameRoom :=
  { room with jobQueue := room.jobQueue ++ [job] }

section

variable (env : Env)

/-! ## Sending to the members -/

/-- `Broadcast`. -/
def broadcast (message : ServerMessage) (room : GameRoom) (w : World) : World :=
  room.members.elems.foldl (fun w session => w.send env session message) w

/-- `BroadcastExcept`. -/
def broadcastExcept (message : ServerMessage) (exclude : SessionRef) (room : GameRoom)
    (w : World) : World :=
  room.members.elems.foldl
    (fun w session => if session ≠ exclude then w.send env session message else w) w

/-- `BroadcastShared`: one buffer for all; `packetSize` is a `uint16_t`. -/
def broadcastShared (message : ServerMessage) (room : GameRoom) (w : World) : World :=
  if room.members.size = 0 then w
  else
    let buf := frame message.packetId.toUInt16 message.serialize
    room.members.elems.foldl (fun w session => w.sendShared env session buf) w

/-- `SendRawBroadcast`. -/
def sendRawBroadcast (packetId : PacketID) (data : Bytes) (room : GameRoom) (w : World) : World :=
  room.members.elems.foldl (fun w session => w.sendRaw env session packetId data) w

/-- `BroadcastRoomState`. -/
def broadcastRoomState (room : GameRoom) (w : World) : World :=
  if room.members.size = 0 then w
  else
    let total := UInt16.ofNat room.members.size
    let ready := UInt16.ofNat room.readyPlayers.card
    let data := room.state.toUInt8 :: (u16Bytes total ++ u16Bytes ready)
    room.sendRawBroadcast env .sRoomState data w

/-- `BroadcastPendingMoves`. -/
def broadcastPendingMoves (room : GameRoom) (w : World) : GameRoom × World :=
  if room.pendingMoves.keys = [] then (room, w)
  else
    let actors := (env.keyOrder.apply room.pendingMoves.keys).filterMap fun accountId =>
      (room.pendingMoves.lookup accountId).map fun pos => (⟨accountId, pos.1, pos.2⟩ : MovedActor)
    let room := { room with pendingMoves := ∅ }
    (room, room.broadcastShared env (.moveBroadcast actors) w)

/-! ## The methods the jobs call -/

/-- `TryStartGame`. -/
def tryStartGame (room : GameRoom) (w : World) : GameRoom × World :=
  if room.members.size < 2 then (room, w)
  else if room.readyPlayers.card < room.members.size then (room, w)
  else
    let room := { room with state := .inGame, readyPlayers := ∅ }
    let w := room.sendRawBroadcast env .sGameStart [] w
    (room, room.broadcastRoomState env w)

/-- `HandleGameEnd`. -/
def handleGameEnd (winnerId : Bytes) (room : GameRoom) (w : World) : GameRoom × World :=
  let room := { room with state := .finished, finishedAt := env.later }
  let data := u16Bytes (UInt16.ofNat winnerId.length) ++ winnerId
  let w := room.sendRawBroadcast env .sGameResult data w
  (room, room.broadcastRoomState env w)

/-- `HandleEnter`. -/
def handleEnter (this : RoomRef) (session : SessionRef) (room : GameRoom) (w : World) :
    GameRoom × World :=
  if room.state = .inGame then
    (room, w.send env session (.roomEnter false (utf8 "게임이 진행 중입니다.") []))
  else if room.maxPlayers ≤ (room.members.size : Int) then
    (room, w.send env session (.roomEnter false
      (utf8 ("방이 꽉 찼습니다. (" ++ toString room.maxPlayers ++ "명 제한)")) []))
  else
    let room := { room with
      members := room.members.insert env.sessionOrder session, emptySinceMs := 0 }
    let w := w.setRoom session (some this)
    let w := w.send env session (.roomEnter true (utf8 "입장 성공") room.name)
    let w := room.broadcastExcept env (.roomUserEntered (w.session session).accountId) session w
    (room, room.broadcastRoomState env w)

/-- `HandleLeave`. -/
def handleLeave (session : SessionRef) (room : GameRoom) (w : World) : GameRoom × World :=
  if session ∉ room.members then (room, w)
  else
    let w := w.setRoom session none
    let accountId := (w.session session).accountId
    let room := { room with
      members := room.members.erase session
      pendingMoves := room.pendingMoves.erase accountId
      readyPlayers := room.readyPlayers.erase accountId }
    let w := room.broadcast env (.roomUserLeft accountId) w
    -- the last player out of a running game takes the branch of a room that is not playing
    let room := if room.state = .inGame then
        { room with pendingReconnects := room.pendingReconnects.insert accountId ⟨env.now⟩ }
      else room
    match (if room.state = .inGame then room.members.first else none) with
    | some winner => room.handleGameEnd env (w.session winner).accountId w
    | none =>
      let room := if room.members.size = 0 then { room with emptySinceMs := env.later } else room
      (room, room.broadcastRoomState env w)

/-- `HandleMove`. -/
def handleMove (accountId : Bytes) (x y : UInt32) (room : GameRoom) : GameRoom :=
  if room.state ≠ .inGame then room
  else { room with pendingMoves := room.pendingMoves.insert accountId (x, y) }

/-- `HandleRejoin`. -/
def handleRejoin (this : RoomRef) (session : SessionRef) (room : GameRoom) (w : World) :
    GameRoom × World :=
  let room := { room with
    pendingReconnects := room.pendingReconnects.erase (w.session session).accountId
    members := room.members.insert env.sessionOrder session
    emptySinceMs := 0 }
  let w := w.setRoom session (some this)
  let w := w.send env session (.roomEnter true (utf8 "reconnected") room.name)
  let w := room.broadcastExcept env (.roomUserEntered (w.session session).accountId) session w
  (room, room.broadcastRoomState env w)

/-- The mark `HandleReady` toggles. -/
def toggleReady (accountId : Bytes) (room : GameRoom) : GameRoom :=
  if accountId ∈ room.readyPlayers then
    { room with readyPlayers := room.readyPlayers.erase accountId }
  else { room with readyPlayers := insert accountId room.readyPlayers }

/-- `HandleReady`. -/
def handleReady (accountId : Bytes) (room : GameRoom) (w : World) : GameRoom × World :=
  if room.state ≠ .waiting then (room, w)
  else
    let room := room.toggleReady accountId
    room.tryStartGame env (room.broadcastRoomState env w)

end

end GameRoom

/-- What the lambda does when the tick runs it in the room at `this`. -/
def Job.run (env : Env) (this : RoomRef) (room : GameRoom) (w : World) : Job → GameRoom × World
  | .handleEnter session => room.handleEnter env this session w
  | .handleLeave session => room.handleLeave env session w
  | .leaveAndAck session =>
    let (room, w) := room.handleLeave env session w
    (room, w.send env session (.roomLeave true))
  | .handleRejoin session => room.handleRejoin env this session w
  | .chat sender message => (room, room.broadcast env (.chat sender message) w)
  | .handleMove accountId x y => (room.handleMove accountId x y, w)
  | .handleReady accountId => room.handleReady env accountId w

namespace GameRoom

/-- `JobQueue::Flush`: the jobs taken out of the queue, in order, each in its own environment. -/
def flush (this : RoomRef) : List Job → (Nat → Env) → GameRoom → World → GameRoom × World
  | [], _, room, w => (room, w)
  | job :: jobs, envs, room, w =>
    let (room, w) := job.run (envs 0) this room w
    flush this jobs (fun n => envs (n + 1)) room w

/-- `Tick` behind `Flush`. -/
def tickEnd (env : Env) (reconnectWindowMs : Int) (room : GameRoom) (w : World) :
    GameRoom × World :=
  let room := { room with
    pendingReconnects := room.pendingReconnects.keep fun _ slot =>
      !decide (env.now - slot.storedAt > reconnectWindowMs) }
  if room.state = .finished then
    if env.later - room.finishedAt > 5000 then
      let room := { room with state := .waiting }
      (room, room.broadcastRoomState env w)
    else (room, w)
  else room.broadcastPendingMoves env w

/-- `Tick`. -/
def tick (envs : Nat → Env) (env : Env) (reconnectWindowMs : Int) (this : RoomRef)
    (room : GameRoom) (w : World) : GameRoom × World :=
  let (room, w) := flush this room.jobQueue envs { room with jobQueue := [] } w
  room.tickEnd env reconnectWindowMs w

end GameRoom

/-! ## What a job does -/

namespace Sent

variable (env : Env) (room : GameRoom) (w : World)

theorem broadcast (message : ServerMessage) : Sent env w (room.broadcast env message w) :=
  foldl (fun w s => send env s message w) _ w

theorem broadcastExcept (message : ServerMessage) (exclude : SessionRef) :
    Sent env w (room.broadcastExcept env message exclude w) := by
  refine foldl (fun w s => ?_) _ w
  split
  · exact send env s message w
  · exact refl env w

theorem broadcastShared (message : ServerMessage) :
    Sent env w (room.broadcastShared env message w) := by
  unfold GameRoom.broadcastShared
  split
  · exact refl env w
  · exact foldl (fun w s => sendShared env s _ w) _ w

theorem sendRawBroadcast (packetId : PacketID) (data : Bytes) :
    Sent env w (room.sendRawBroadcast env packetId data w) :=
  foldl (fun w s => sendRaw env s packetId data w) _ w

theorem broadcastRoomState : Sent env w (room.broadcastRoomState env w) := by
  unfold GameRoom.broadcastRoomState
  split
  · exact refl env w
  · exact sendRawBroadcast env room w _ _

end Sent

namespace GameRoom

variable {env : Env} {this : RoomRef} {room : GameRoom} {w : World}

/-- `HandleEnter` lets the session in. -/
def Admits (room : GameRoom) : Prop :=
  room.state ≠ .inGame ∧ (room.members.size : Int) < room.maxPlayers

instance (room : GameRoom) : Decidable room.Admits := by
  unfold Admits; infer_instance

/-- The room with a new member in it. -/
def entered (env : Env) (session : SessionRef) (room : GameRoom) : GameRoom :=
  { room with members := room.members.insert env.sessionOrder session, emptySinceMs := 0 }

/-- The room with a returning member in it. -/
def rejoined (env : Env) (session : SessionRef) (accountId : Bytes) (room : GameRoom) : GameRoom :=
  { room.entered env session with
    pendingReconnects := room.pendingReconnects.erase accountId }

/-- The room without a member it had: a running game leaves a slot for the account and ends, a room
that is now empty notes the time. -/
def left (env : Env) (session : SessionRef) (accountId : Bytes) (room : GameRoom) : GameRoom :=
  let others := room.members.erase session
  { room with
    members := others
    pendingMoves := room.pendingMoves.erase accountId
    readyPlayers := room.readyPlayers.erase accountId
    pendingReconnects :=
      if room.state = .inGame then room.pendingReconnects.insert accountId ⟨env.now⟩
      else room.pendingReconnects
    state := if room.state = .inGame ∧ others.size ≠ 0 then .finished else room.state
    finishedAt := if room.state = .inGame ∧ others.size ≠ 0 then env.later else room.finishedAt
    emptySinceMs := if others.size = 0 then env.later else room.emptySinceMs }

/-- The start condition `TryStartGame` tests. -/
def Starts (room : GameRoom) : Prop :=
  2 ≤ room.members.size ∧ room.members.size ≤ room.readyPlayers.card

instance (room : GameRoom) : Decidable room.Starts := by
  unfold Starts; infer_instance

/-- The room after a ready mark has been toggled. -/
def readied (accountId : Bytes) (room : GameRoom) : GameRoom :=
  if room.state ≠ .waiting then room
  else if (room.toggleReady accountId).Starts then
    { room with state := .inGame, readyPlayers := ∅ }
  else room.toggleReady accountId

/-- The room after `Tick` has gone over it. -/
def swept (env : Env) (reconnectWindowMs : Int) (room : GameRoom) : GameRoom :=
  { room with
    pendingReconnects := room.pendingReconnects.keep fun _ slot =>
      !decide (env.now - slot.storedAt > reconnectWindowMs)
    state := if room.state = .finished ∧ env.later - room.finishedAt > 5000 then .waiting
      else room.state
    pendingMoves := if room.state = .finished then room.pendingMoves else ∅ }

theorem handleEnter_admits (h : room.Admits) (session : SessionRef) :
    (room.handleEnter env this session w).1 = room.entered env session ∧
      Sent env (w.setRoom session (some this)) (room.handleEnter env this session w).2 := by
  unfold handleEnter
  rw [if_neg h.1, if_neg (not_le.mpr h.2)]
  exact ⟨rfl, ((Sent.send env session _ _).trans (Sent.broadcastExcept env _ _ _ _)).trans
    (Sent.broadcastRoomState env _ _)⟩

theorem handleEnter_refuses (h : ¬ room.Admits) (session : SessionRef) :
    (room.handleEnter env this session w).1 = room ∧
      Sent env w (room.handleEnter env this session w).2 := by
  unfold handleEnter
  split
  · exact ⟨rfl, Sent.send env session _ _⟩
  · rename_i hstate
    split
    · exact ⟨rfl, Sent.send env session _ _⟩
    · rename_i hfull
      exact absurd ⟨hstate, not_le.mp hfull⟩ h

theorem handleRejoin_spec (session : SessionRef) :
    (room.handleRejoin env this session w).1 =
        room.rejoined env session (w.session session).accountId ∧
      Sent env (w.setRoom session (some this)) (room.handleRejoin env this session w).2 :=
  ⟨rfl, ((Sent.send env session _ _).trans (Sent.broadcastExcept env _ _ _ _)).trans
    (Sent.broadcastRoomState env _ _)⟩

theorem handleGameEnd_spec (winnerId : Bytes) :
    (room.handleGameEnd env winnerId w).1 =
        { room with state := .finished, finishedAt := env.later } ∧
      Sent env w (room.handleGameEnd env winnerId w).2 :=
  ⟨rfl, (Sent.sendRawBroadcast env _ _ _ _).trans (Sent.broadcastRoomState env _ _)⟩

theorem handleLeave_stranger {session : SessionRef} (h : session ∉ room.members) :
    room.handleLeave env session w = (room, w) := by
  unfold handleLeave
  rw [if_pos h]

theorem handleLeave_member {session : SessionRef} (h : session ∈ room.members) :
    (room.handleLeave env session w).1 =
        room.left env session (w.session session).accountId ∧
      Sent env (w.setRoom session none) (room.handleLeave env session w).2 := by
  unfold handleLeave
  rw [if_neg (not_not.mpr h)]
  simp only [World.accountId_setRoom]
  by_cases hgame : room.state = .inGame
  · simp only [if_pos hgame]
    cases hfirst : (room.members.erase session).first with
    | some winner =>
      have hsize : (room.members.erase session).size ≠ 0 := fun hzero => by
        rw [IterSet.first_eq_none.mpr hzero] at hfirst
        exact absurd hfirst (by simp)
      refine ⟨?_, (Sent.broadcast env _ _ _).trans (handleGameEnd_spec _).2⟩
      simp [handleGameEnd, left, hgame, hsize]
    | none =>
      have hsize := IterSet.first_eq_none.mp hfirst
      refine ⟨?_, (Sent.broadcast env _ _ _).trans (Sent.broadcastRoomState env _ _)⟩
      simp [left, hgame, hsize]
  · simp only [if_neg hgame]
    refine ⟨?_, (Sent.broadcast env _ _ _).trans (Sent.broadcastRoomState env _ _)⟩
    by_cases hsize : (room.members.erase session).size = 0
    · simp [left, hgame, hsize]
    · simp [left, hgame, hsize]

theorem tryStartGame_spec :
    (room.tryStartGame env w).1 =
        (if room.Starts then { room with state := .inGame, readyPlayers := ∅ } else room) ∧
      Sent env w (room.tryStartGame env w).2 := by
  unfold tryStartGame
  split
  · rename_i hfew
    rw [if_neg (fun h : room.Starts => absurd h.1 (not_le.mpr hfew))]
    exact ⟨rfl, Sent.refl env w⟩
  · rename_i hfew
    split
    · rename_i hunready
      rw [if_neg (fun h : room.Starts => absurd h.2 (not_le.mpr hunready))]
      exact ⟨rfl, Sent.refl env w⟩
    · rename_i hunready
      rw [if_pos (show room.Starts from ⟨not_lt.mp hfew, not_lt.mp hunready⟩)]
      exact ⟨rfl, (Sent.sendRawBroadcast env _ _ _ _).trans (Sent.broadcastRoomState env _ _)⟩

theorem handleReady_spec (accountId : Bytes) :
    (room.handleReady env accountId w).1 = room.readied accountId ∧
      Sent env w (room.handleReady env accountId w).2 := by
  unfold handleReady readied
  split
  · exact ⟨rfl, Sent.refl env w⟩
  · obtain ⟨hroom, hsent⟩ :=
      @tryStartGame_spec env (room.toggleReady accountId)
        ((room.toggleReady accountId).broadcastRoomState env w)
    refine ⟨?_, (Sent.broadcastRoomState env _ _).trans hsent⟩
    rw [hroom]
    split
    · unfold toggleReady
      split <;> rfl
    · rfl

/-- **Behind the jobs** `Tick` sweeps the room, and sends. -/
theorem tickEnd_spec (reconnectWindowMs : Int) :
    (room.tickEnd env reconnectWindowMs w).1 = room.swept env reconnectWindowMs ∧
      Sent env w (room.tickEnd env reconnectWindowMs w).2 := by
  unfold tickEnd
  by_cases hfin : room.state = .finished
  · simp only [if_pos hfin]
    split
    · rename_i hlong
      refine ⟨?_, Sent.broadcastRoomState env _ _⟩
      simp only [swept, hfin, hlong, and_self, if_true]
    · rename_i hlong
      refine ⟨?_, Sent.refl env w⟩
      simp only [swept, hfin, hlong, and_false, if_true, if_false]
  · simp only [if_neg hfin]
    unfold broadcastPendingMoves
    split
    · rename_i hnone
      refine ⟨?_, Sent.refl env w⟩
      have hempty : room.pendingMoves = ∅ := Map.keys_eq_nil.mp hnone
      simp [swept, hfin, hempty]
    · refine ⟨?_, Sent.broadcastShared env _ _ _⟩
      simp [swept, hfin]

end GameRoom

namespace Job

variable {env : Env} {this : RoomRef} {room : GameRoom} {w : World}

/-- What becomes of the room. -/
def outcome (env : Env) (room : GameRoom) (w : World) : Job → GameRoom
  | handleEnter session => if room.Admits then room.entered env session else room
  | handleLeave session | leaveAndAck session =>
    if session ∈ room.members then room.left env session (w.session session).accountId else room
  | handleRejoin session => room.rejoined env session (w.session session).accountId
  | chat .. => room
  | handleMove accountId x y => room.handleMove accountId x y
  | handleReady accountId => room.readied accountId

/-- The room pointer the job writes. -/
def moved (this : RoomRef) (room : GameRoom) (w : World) : Job → World
  | handleEnter session => if room.Admits then w.setRoom session (some this) else w
  | handleLeave session | leaveAndAck session =>
    if session ∈ room.members then w.setRoom session none else w
  | handleRejoin session => w.setRoom session (some this)
  | chat .. | handleMove .. | handleReady .. => w

theorem handleLeave_spec (session : SessionRef) :
    (room.handleLeave env session w).1 = outcome env room w (.handleLeave session) ∧
      Sent env (moved this room w (.handleLeave session)) (room.handleLeave env session w).2 := by
  unfold outcome moved
  by_cases h : session ∈ room.members
  · simp only [if_pos h]
    exact GameRoom.handleLeave_member h
  · simp only [if_neg h]
    rw [GameRoom.handleLeave_stranger h]
    exact ⟨rfl, Sent.refl env w⟩

/-- **What a job does**: the room becomes its outcome, the pointer it writes is written, and the
rest is sending. -/
theorem run_spec (job : Job) :
    (job.run env this room w).1 = job.outcome env room w ∧
      Sent env (job.moved this room w) (job.run env this room w).2 := by
  cases job with
  | handleEnter session =>
    unfold outcome moved
    by_cases h : room.Admits
    · simp only [if_pos h]
      exact GameRoom.handleEnter_admits h session
    · simp only [if_neg h]
      exact GameRoom.handleEnter_refuses h session
  | handleLeave session => exact handleLeave_spec session
  | leaveAndAck session =>
    obtain ⟨hroom, hsent⟩ := @handleLeave_spec env this room w session
    exact ⟨hroom, hsent.trans (Sent.send env session _ _)⟩
  | handleRejoin session => exact GameRoom.handleRejoin_spec session
  | chat sender message => exact ⟨rfl, Sent.broadcast env room w _⟩
  | handleMove accountId x y => exact ⟨rfl, Sent.refl env w⟩
  | handleReady accountId => exact GameRoom.handleReady_spec accountId

end Job

end RealtimeServer
