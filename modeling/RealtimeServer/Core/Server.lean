import RealtimeServer.Game.RoomManager
import RealtimeServer.Lib.Int32
import RealtimeServer.Lib.Run

/-!
# The server as a transition system

Model of the packet handlers (`Packet/Logic/Logic.cpp`), of `SessionManager`
(`Game/SessionManager.cpp`) and of `ServerCore::HandleAcceptCompletion` and
`ServerCore::HandleDisconnect` (`Core/ServerCore.cpp`), and of how they interleave with the ticks.
One step is one accept, one packet dispatched to its handler, one callback of the auth service, one
`HandleDisconnect` (from a timeout, a failed or an empty receive, a refused packet), one queued room
job, the work of one `Tick` behind its jobs, or one pass of `RemoveIdleRooms`. Any enabled step may
come next, in any environment (`Env`) whose clock has not gone back.

A packet may still reach the handler of a session that is already disconnected: `HandleRecv` does
not look at the flag between two packets. An auth callback with `valid` carries a non-empty account
(`ParseValidateResponse`).
-/

namespace RealtimeServer

open Unordered Guarded

/-- The settings of `server.cfg` the rooms are run with. -/
structure Config where
  maxRoomPlayers : Int
  reconnectWindowMs : Int
  idleRoomTimeoutMs : Int

/-- `SessionManager`. -/
structure SessionManager where
  nextSessionId : Nat
  sessions : Map Nat SessionRef

namespace SessionManager

/-- `Add`; the id it gives is `nextSessionId`. -/
def add (session : SessionRef) (m : SessionManager) : SessionManager :=
  { nextSessionId := m.nextSessionId + 1, sessions := m.sessions.insert m.nextSessionId session }

/-- `Remove`. -/
def remove (sessionId : Nat) (m : SessionManager) : SessionManager :=
  { m with sessions := m.sessions.erase sessionId }

end SessionManager

/-- The whole server. -/
structure Server where
  world : World
  /-- The reference the next accepted session will have. -/
  nextSession : SessionRef
  sessionManager : SessionManager
  /-- Tokens handed to the auth service whose callback has not run, with their sessions. -/
  auth : List (SessionRef × Bytes)
  rooms : RoomManager
  /-- The last reading of the steady clock. -/
  clock : Int

namespace Server

/-- The server as it starts. -/
def empty : Server :=
  { world := ⟨fun _ => .new, ⟨0, 0, 0, 0, 0⟩, []⟩
    nextSession := 0
    sessionManager := ⟨1, ∅⟩
    auth := []
    rooms := .empty
    clock := 0 }

/-- The room at an address. -/
abbrev room (srv : Server) (r : RoomRef) : GameRoom := srv.rooms.room r

/-- `GetAccountId()`. -/
def account (srv : Server) (s : SessionRef) : Bytes := (srv.world.session s).accountId

/-- `GetRoom()`. -/
def roomOf (srv : Server) (s : SessionRef) : Option RoomRef := (srv.world.session s).room

/-- `IsDisconnected()`. -/
def Down (srv : Server) (s : SessionRef) : Prop := (srv.world.session s).disconnected = true

instance (srv : Server) (s : SessionRef) : Decidable (srv.Down s) := by
  unfold Down; infer_instance

/-- A send to one session. -/
def send (env : Env) (s : SessionRef) (message : ServerMessage) (srv : Server) : Server :=
  { srv with world := srv.world.send env s message }

/-- `room->PushJob(..)`. -/
def pushJob (r : RoomRef) (job : Job) (srv : Server) : Server :=
  { srv with rooms := srv.rooms.pushJob r job }

/-! ## Connections -/

/-- `STATS_INC(currentConnections)`, `STATS_INC(totalConnections)`. -/
def countIn (w : World) : World :=
  { w with stats :=
    { w.stats with
      totalConnections := w.stats.totalConnections + 1
      currentConnections := w.stats.currentConnections + 1 } }

/-- `STATS_DEC(currentConnections)`. -/
def countOut (w : World) : World :=
  { w with stats := { w.stats with currentConnections := w.stats.currentConnections - 1 } }

/-- `HandleAcceptCompletion`, from the new session to `PostRecv`; `token` is what
`ConsumeGlobalConnectionToken` answers. A session refused by the policy is dropped again, and its
reference is free. -/
def handleAccept (token : Bool) (srv : Server) : Server :=
  let s := srv.nextSession
  let sessionId := srv.sessionManager.nextSessionId
  let sessionManager := srv.sessionManager.add s
  if token then
    { srv with
      world := countIn
        (srv.world.update s fun _ => { ServerSession.new with sessionId := sessionId })
      nextSession := s + 1
      sessionManager := sessionManager }
  else
    { srv with
      world := { srv.world with stats :=
        { srv.world.stats with totalPolicyConnectionRejections :=
            srv.world.stats.totalPolicyConnectionRejections + 1 } }
      sessionManager := sessionManager.remove sessionId }

/-- `HandleDisconnect`. -/
def handleDisconnect (s : SessionRef) (srv : Server) : Server :=
  if (srv.world.session s).disconnected then srv
  else
    let srv := { srv with
      world := countOut (srv.world.disconnect s)
      sessionManager := srv.sessionManager.remove (srv.world.session s).sessionId }
    match (srv.world.session s).room with
    | none => srv
    | some r => { srv with world := srv.world.setRoom s none }.pushJob r (.handleLeave s)

/-! ## Packet handlers -/

section

variable (env : Env) (s : SessionRef)

/-- `Handle_C_LOGIN`, up to `ValidateAsync`. -/
def handleCLogin (password : Option Bytes) (srv : Server) : Server :=
  match password with
  | none => srv
  | some token =>
    if token = [] then
      srv.send env s
        (.login false (utf8 "session_token이 비어 있습니다. 먼저 session-server에 로그인하세요."))
    else { srv with auth := srv.auth ++ [(s, token)] }

/-- The callback `Handle_C_LOGIN` gives to `ValidateAsync`. -/
def loginCallback (valid : Bool) (accountId : Bytes) (srv : Server) : Server :=
  if valid then
    let srv := { srv with world := srv.world.setAccountId s accountId }
    match srv.rooms.findReconnect env accountId with
    | some r => (srv.pushJob r (.handleRejoin s)).send env s (.login true (utf8 "reconnected"))
    | none => srv.send env s (.login true (utf8 "Login OK."))
  else srv.send env s (.login false (utf8 "유효하지 않은 session_token입니다."))

/-- `Handle_C_CHAT`. -/
def handleCChat (message : Option Bytes) (srv : Server) : Server :=
  match message, (srv.world.session s).room with
  | some message, some r => srv.pushJob r (.chat (srv.world.session s).accountId message)
  | _, _ => srv

/-- `Handle_C_ROOM_ENTER`. -/
def handleCRoomEnter (cfg : Config) (roomName : Option Bytes) (srv : Server) : Server :=
  match roomName with
  | none => srv
  | some roomName =>
    if (srv.world.session s).accountId = [] then
      srv.send env s (.roomEnter false (utf8 "로그인 후 입장해주세요.") [])
    else
      let srv := match (srv.world.session s).room with
        | some prev => srv.pushJob prev (.handleLeave s)
        | none => srv
      let (r, rooms) := srv.rooms.getOrCreate cfg.maxRoomPlayers roomName
      { srv with rooms := rooms }.pushJob r (.handleEnter s)

/-- `Handle_C_ROOM_LEAVE`. -/
def handleCRoomLeave (srv : Server) : Server :=
  match (srv.world.session s).room with
  | none => srv.send env s (.roomLeave false)
  | some r => srv.pushJob r (.leaveAndAck s)

/-- `Handle_C_MOVE`. -/
def handleCMove (position : Option (UInt32 × UInt32)) (srv : Server) : Server :=
  match position, (srv.world.session s).room with
  | some (x, y), some r => srv.pushJob r (.handleMove (srv.world.session s).accountId x y)
  | _, _ => srv

/-- `Handle_C_PING`: the client's timestamp and the server's. -/
def handleCPing (payload : Bytes) (srv : Server) : Server :=
  if payload.length < 8 then srv
  else
    let pong := payload.take 8 ++ leBytes 8 env.systemNow.toNat
    { srv with world := srv.world.sendRaw env s .sPong pong }

/-- `data.data(), static_cast<int>(data.size())`: what of a vector is passed on with its size.
Between 2^31 and 2^32 bytes the size is negative: `SendRaw` then copies none and hands `WSASend` a
length that has wrapped around, where this frame is empty. -/
def passed (data : Bytes) : Bytes := data.take (Signed.int32 data.length).toNat

/-- `Handle_C_ROOM_LIST`. -/
def handleCRoomList (srv : Server) : Server :=
  let rooms := srv.rooms.getRoomInfoList env
  let writeU16 := fun v : Int => u16Bytes (UInt16.ofInt v)
  let data := writeU16 rooms.length ++ (rooms.map fun info =>
    writeU16 info.name.length ++ info.name ++ writeU16 info.playerCount ++
      writeU16 info.maxPlayers ++ [info.state.toUInt8]).flatten
  { srv with world := srv.world.sendRaw env s .sRoomList (passed data) }

/-- `Handle_C_READY`. -/
def handleCReady (srv : Server) : Server :=
  if (srv.world.session s).accountId = [] then srv
  else
    match (srv.world.session s).room with
    | none => srv
    | some r => srv.pushJob r (.handleReady (srv.world.session s).accountId)

/-- The handler `RegisterHandlers` gives the packet to. -/
def handlePacket (cfg : Config) (packet : ClientPacket) (srv : Server) : Server :=
  match packet with
  | .login password => srv.handleCLogin env s password
  | .chat message => srv.handleCChat s message
  | .roomEnter roomName => srv.handleCRoomEnter env s cfg roomName
  | .roomLeave => srv.handleCRoomLeave env s
  | .move position => srv.handleCMove s position
  | .ping payload => srv.handleCPing env s payload
  | .roomList => srv.handleCRoomList env s
  | .ready => srv.handleCReady s

end

/-! ## Ticks -/

/-- Run a room method at `r`. -/
def inRoom (r : RoomRef) (f : GameRoom → World → GameRoom × World) (srv : Server) : Server :=
  let result := f (srv.room r) srv.world
  { srv with rooms := srv.rooms.modify r fun _ => result.1, world := result.2 }

/-- The first job of a room's queue, with the rest left in it. -/
def runJob (env : Env) (r : RoomRef) (job : Job) (jobs : List Job) (srv : Server) : Server :=
  srv.inRoom r fun room w => job.run env r { room with jobQueue := jobs } w

/-- `Tick` behind its jobs. -/
def tickEnd (env : Env) (cfg : Config) (r : RoomRef) (srv : Server) : Server :=
  srv.inRoom r fun room w => room.tickEnd env cfg.reconnectWindowMs w

end Server

/-- What happens next. -/
inductive Action
  | accept (token : Bool)
  | packet (s : SessionRef) (packet : ClientPacket)
  /-- The callback of the `i`-th pending validation. -/
  | authCallback (i : Nat) (valid : Bool) (accountId : Bytes)
  | disconnect (s : SessionRef)
  | job (r : RoomRef)
  | tickEnd (r : RoomRef)
  | removeIdleRooms
  deriving DecidableEq

/-- The effect of an action, where it is enabled. -/
def act (cfg : Config) (env : Env) (srv : Server) : Action → Option Server
  | .accept token => some (srv.handleAccept token)
  | .packet s packet =>
    if s < srv.nextSession then some (srv.handlePacket env s cfg packet) else none
  | .authCallback i valid accountId =>
    match srv.auth[i]? with
    | none => none
    | some (s, _) =>
      if valid ∧ accountId = [] then none
      else some ({ srv with auth := srv.auth.eraseIdx i }.loginCallback env s valid accountId)
  | .disconnect s => if s < srv.nextSession then some (srv.handleDisconnect s) else none
  | .job r =>
    if srv.rooms.Live r then
      match (srv.room r).jobQueue with
      | [] => none
      | job :: jobs => some (srv.runJob env r job jobs)
    else none
  | .tickEnd r => if srv.rooms.Live r then some (srv.tickEnd env cfg r) else none
  | .removeIdleRooms =>
    some { srv with rooms := srv.rooms.removeIdleRooms env cfg.idleRoomTimeoutMs }

/-- One step: an action in its environment. -/
def next (cfg : Config) (srv : Server) (step : Action × Env) : Option Server :=
  if step.2.now < srv.clock then none
  else (act cfg step.2 srv step.1).map fun srv' => { srv' with clock := step.2.later }

end RealtimeServer
