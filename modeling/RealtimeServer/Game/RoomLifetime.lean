import RealtimeServer.Core.Steps

/-!
# The lifetime of a room

A handler reads a room pointer (`GetRoom`, `GetOrCreate`, `FindReconnect`) and pushes a job to that
room some time later; `TickAll` takes a list of rooms and ticks them some time later; a `Tick` takes
the queue of its room and runs the jobs one after the other. Between any two of these
`RemoveIdleRooms` may run, and it goes by `m_emptySinceMs` alone. Here each of them is a step of its
own (`threadNext`), and `Threads` says what every thread is in the middle of. `finishes_packet`,
`finishes_callback`, `finishes_disconnect` and `run_flush` say that the handlers of `Core/Server`
and the `Flush` of `GameRoom` are these steps without a pause.

* **`jobs_kept`**: in every run whose steps meet `Unheld`, the jobs pushed to a room are those it
  has run, then those its tick has taken, then those in its queue, and if there are any of the
  latter two the room is in the map; and every room that `TickAll` ticks is in the map. `Unheld`
  asks that no room is removed while a job is queued in it, a handler is about to push one to it, or
  `TickAll` is to tick it.
* `job_lost`: without it, an enter pushed to a room between `GetOrCreate` and `PushJob` removed is
  never run.
* `threadNext_acts`: the steps by cases. `serves_next`: what those of the handlers have in common.

A pointer kept in a session needs no such condition: it names a room that has the session as a
member (`RoomsSound`), and a room with members is not removed.
-/

namespace RealtimeServer

open Unordered Guarded

/-! ## Handlers midway -/

/-- What a handler has yet to call. -/
inductive Call
  | pushJob (r : RoomRef) (job : Job)
  /-- `GetOrCreate`, and then the push of the enter. -/
  | getOrCreate (s : SessionRef) (roomName : Bytes)
  /-- `FindReconnect`, and then the push of the rejoin and the reply. -/
  | findReconnect (s : SessionRef) (accountId : Bytes)
  /-- `SetRoom(nullptr)`. -/
  | clearRoom (s : SessionRef)
  | send (s : SessionRef) (message : ServerMessage)

namespace Call

/-- The room pointer the call has. -/
def holds : Call → Option RoomRef
  | pushJob r _ => some r
  | _ => none

/-- What the call pushes to `r`. -/
def pushes (r : RoomRef) : Call → List Job
  | pushJob r' job => if r' = r then [job] else []
  | _ => []

/-- The call, and the calls that follow from it. -/
def perform (cfg : Config) (env : Env) (srv : Server) : Call → Server × List Call
  | pushJob r job => (srv.pushJob r job, [])
  | getOrCreate s roomName =>
    let (r, rooms) := srv.rooms.getOrCreate cfg.maxRoomPlayers roomName
    ({ srv with rooms := rooms }, [.pushJob r (.handleEnter s)])
  | findReconnect s accountId =>
    (srv, match srv.rooms.findReconnect env accountId with
      | some r => [.pushJob r (.handleRejoin s), .send s (.login true (utf8 "reconnected"))]
      | none => [.send s (.login true (utf8 "Login OK."))])
  | clearRoom s => ({ srv with world := srv.world.setRoom s none }, [])
  | send s message => (srv.send env s message, [])

end Call

namespace Server

section

variable (env : Env) (s : SessionRef) (srv : Server)

/-- The calls of a packet handler that uses rooms, from its `GetRoom` on. -/
def calls : ClientPacket → List Call
  | .chat (some message) =>
    match (srv.world.session s).room with
    | some r => [.pushJob r (.chat (srv.world.session s).accountId message)]
    | none => []
  | .roomEnter (some roomName) =>
    if (srv.world.session s).accountId = [] then
      [.send s (.roomEnter false (utf8 "로그인 후 입장해주세요.") [])]
    else
      (match (srv.world.session s).room with
        | some prev => [.pushJob prev (.handleLeave s)]
        | none => []) ++ [.getOrCreate s roomName]
  | .roomLeave =>
    match (srv.world.session s).room with
    | none => [.send s (.roomLeave false)]
    | some r => [.pushJob r (.leaveAndAck s)]
  | .move (some (x, y)) =>
    match (srv.world.session s).room with
    | some r => [.pushJob r (.handleMove (srv.world.session s).accountId x y)]
    | none => []
  | .ready =>
    if (srv.world.session s).accountId = [] then []
    else
      match (srv.world.session s).room with
      | none => []
      | some r => [.pushJob r (.handleReady (srv.world.session s).accountId)]
  | .chat none | .roomEnter none | .move none | .login _ | .ping _ | .roomList => []

/-- A packet up to the first call; the handlers that use no room are done. -/
def startPacket (cfg : Config) (packet : ClientPacket) : Server × List Call :=
  match packet with
  | .login _ | .ping _ | .roomList => (srv.handlePacket env s cfg packet, [])
  | _ => (srv, srv.calls s packet)

/-- The callback of a login up to `FindReconnect`. -/
def startCallback (valid : Bool) (accountId : Bytes) : Server × List Call :=
  if valid then
    ({ srv with world := srv.world.setAccountId s accountId }, [.findReconnect s accountId])
  else (srv, [.send s (.login false (utf8 "유효하지 않은 session_token입니다."))])

/-- `HandleDisconnect` up to its `GetRoom`. -/
def startDisconnect : Server × List Call :=
  if (srv.world.session s).disconnected then (srv, [])
  else
    ({ srv with
        world := countOut (srv.world.disconnect s)
        sessionManager := srv.sessionManager.remove (srv.world.session s).sessionId },
      match (srv.world.session s).room with
      | none => []
      | some r => [.clearRoom s, .pushJob r (.handleLeave s)])

end

end Server

/-- The calls are made one after the other, with nothing in between. -/
inductive Finishes (cfg : Config) (env : Env) : Server → List Call → Server → Prop
  | done (srv : Server) : Finishes cfg env srv [] srv
  | call {srv srv' : Server} (c : Call) {rest : List Call}
      (next : Finishes cfg env (c.perform cfg env srv).1 ((c.perform cfg env srv).2 ++ rest) srv') :
      Finishes cfg env srv (c :: rest) srv'

section

variable {cfg : Config} {env : Env} {s : SessionRef} {srv : Server}

theorem finishes_chat (message : Option Bytes) :
    Finishes cfg env srv (srv.calls s (.chat message)) (srv.handleCChat s message) := by
  unfold Server.calls Server.handleCChat
  cases message with
  | none => exact .done _
  | some message =>
    cases (srv.world.session s).room with
    | none => exact .done _
    | some r => exact .call _ (.done _)

theorem finishes_roomEnter (roomName : Option Bytes) :
    Finishes cfg env srv (srv.calls s (.roomEnter roomName))
      (srv.handleCRoomEnter env s cfg roomName) := by
  unfold Server.calls Server.handleCRoomEnter
  cases roomName with
  | none => exact .done _
  | some roomName =>
    by_cases hlogin : (srv.world.session s).accountId = []
    · simp only [if_pos hlogin]
      exact .call _ (.done _)
    · simp only [if_neg hlogin]
      cases (srv.world.session s).room with
      | none => exact .call _ (.call _ (.done _))
      | some prev => exact .call _ (.call _ (.call _ (.done _)))

theorem finishes_roomLeave :
    Finishes cfg env srv (srv.calls s .roomLeave) (srv.handleCRoomLeave env s) := by
  unfold Server.calls Server.handleCRoomLeave
  cases (srv.world.session s).room with
  | none => exact .call _ (.done _)
  | some r => exact .call _ (.done _)

theorem finishes_move (position : Option (UInt32 × UInt32)) :
    Finishes cfg env srv (srv.calls s (.move position)) (srv.handleCMove s position) := by
  unfold Server.calls Server.handleCMove
  cases position with
  | none => exact .done _
  | some position =>
    cases (srv.world.session s).room with
    | none => exact .done _
    | some r => exact .call _ (.done _)

theorem finishes_ready :
    Finishes cfg env srv (srv.calls s .ready) (srv.handleCReady s) := by
  unfold Server.calls Server.handleCReady
  by_cases hlogin : (srv.world.session s).accountId = []
  · simp only [if_pos hlogin]
    exact .done _
  · simp only [if_neg hlogin]
    cases (srv.world.session s).room with
    | none => exact .done _
    | some r => exact .call _ (.done _)

/-- A packet handled without a pause. -/
theorem finishes_packet (packet : ClientPacket) :
    Finishes cfg env (srv.startPacket env s cfg packet).1 (srv.startPacket env s cfg packet).2
      (srv.handlePacket env s cfg packet) := by
  cases packet with
  | login password => exact .done _
  | ping payload => exact .done _
  | roomList => exact .done _
  | chat message => exact finishes_chat message
  | roomEnter roomName => exact finishes_roomEnter roomName
  | roomLeave => exact finishes_roomLeave
  | move position => exact finishes_move position
  | ready => exact finishes_ready

/-- A callback without a pause. -/
theorem finishes_callback (valid : Bool) (accountId : Bytes) :
    Finishes cfg env (srv.startCallback s valid accountId).1
      (srv.startCallback s valid accountId).2 (srv.loginCallback env s valid accountId) := by
  unfold Server.startCallback Server.loginCallback
  cases valid with
  | false => exact .call _ (.done _)
  | true =>
    simp only [if_true]
    refine .call _ ?_
    unfold Call.perform
    cases hfound : srv.rooms.findReconnect env accountId with
    | none =>
      simp only [hfound]
      exact .call _ (.done _)
    | some r =>
      simp only [hfound]
      exact .call _ (.call _ (.done _))

/-- A `HandleDisconnect` without a pause. -/
theorem finishes_disconnect :
    Finishes cfg env (srv.startDisconnect s).1 (srv.startDisconnect s).2
      (srv.handleDisconnect s) := by
  have hroom : ((Server.countOut (srv.world.disconnect s)).session s).room =
      (srv.world.session s).room := by
    show ((srv.world.disconnect s).session s).room = _
    rw [World.session_disconnect_self]
  unfold Server.startDisconnect Server.handleDisconnect
  split
  · exact .done _
  · simp only [hroom]
    cases (srv.world.session s).room with
    | none => exact .done _
    | some r => exact .call _ (.call _ (.done _))

end

/-! ## Threads -/

/-- The server and what its threads are in the middle of. -/
structure Threads where
  srv : Server
  /-- The handlers under way, each with the calls it has yet to make. -/
  midway : List (List Call)
  /-- The rooms `TickAll` has yet to tick. -/
  snapshot : List RoomRef
  /-- The room being ticked, with the jobs its `Flush` has taken and not yet run. -/
  flushing : Option (RoomRef × List Job)
  /-- Every job ever pushed to a room, in order; no thread reads it. -/
  pushed : RoomRef → List Job
  /-- Every job it has run. -/
  executed : RoomRef → List Job

namespace Threads

def empty : Threads :=
  { srv := .empty
    midway := []
    snapshot := []
    flushing := none
    pushed := fun _ => []
    executed := fun _ => [] }

variable (st : Threads)

/-- The jobs of `r` that its tick has taken. -/
def flushed (r : RoomRef) : List Job :=
  match st.flushing with
  | some (r', jobs) => if r' = r then jobs else []
  | none => []

/-- `TickAll` is at the room, or has yet to come to it. -/
def Ticks (r : RoomRef) : Prop := r ∈ st.snapshot ∨ ∃ flush ∈ st.flushing, flush.1 = r

/-- A handler is about to use a pointer to the room. -/
def Holds (r : RoomRef) : Prop := ∃ calls ∈ st.midway, ∃ call ∈ calls, call.holds = some r

instance (r : RoomRef) : Decidable (st.Ticks r) := by
  unfold Ticks; infer_instance

instance (r : RoomRef) : Decidable (st.Holds r) := by
  unfold Holds; infer_instance

/-- A handler starts. -/
def start (started : Server × List Call) : Threads :=
  { st with srv := started.1, midway := st.midway ++ [started.2] }

/-- The `i`-th handler makes its next call. -/
def perform (cfg : Config) (env : Env) (i : Nat) (call : Call) (rest : List Call) : Threads :=
  let (srv, more) := call.perform cfg env st.srv
  { st with
    srv := srv
    midway := st.midway.set i (more ++ rest)
    pushed := fun r => st.pushed r ++ call.pushes r }

/-- The swap of `Flush`. -/
def takeJobs (r : RoomRef) (rest : List RoomRef) : Threads :=
  { st with
    srv := { st.srv with rooms := st.srv.rooms.modify r fun room => { room with jobQueue := [] } }
    snapshot := rest
    flushing := some (r, (st.srv.room r).jobQueue) }

/-- The next job of `Flush`. -/
def runJob (env : Env) (r : RoomRef) (job : Job) (jobs : List Job) : Threads :=
  { st with
    srv := st.srv.inRoom r fun room w => job.run env r room w
    flushing := some (r, jobs)
    executed := Function.update st.executed r (st.executed r ++ [job]) }

/-- `Tick` behind its `Flush`. -/
def endTick (cfg : Config) (env : Env) (r : RoomRef) : Threads :=
  { st with srv := st.srv.tickEnd env cfg r, flushing := none }

end Threads

/-- What happens next. -/
inductive ThreadAction
  | accept (token : Bool)
  | packet (s : SessionRef) (packet : ClientPacket)
  | authCallback (i : Nat) (valid : Bool) (accountId : Bytes)
  | disconnect (s : SessionRef)
  /-- The `i`-th handler goes on. -/
  | call (i : Nat)
  /-- `TickAll` takes its list of rooms. -/
  | tickAll
  /-- It comes to the next room, whose `Flush` takes the queue. -/
  | takeJobs
  | runJob
  | endTick
  | removeIdleRooms

/-- The effect of an action, where it is enabled. -/
def threadAct (cfg : Config) (env : Env) (st : Threads) : ThreadAction → Option Threads
  | .accept token => some { st with srv := st.srv.handleAccept token }
  | .packet s packet =>
    if s < st.srv.nextSession then some (st.start (st.srv.startPacket env s cfg packet)) else none
  | .authCallback i valid accountId =>
    match st.srv.auth[i]? with
    | none => none
    | some (s, _) =>
      if valid ∧ accountId = [] then none
      else some (st.start
        ({ st.srv with auth := st.srv.auth.eraseIdx i }.startCallback s valid accountId))
  | .disconnect s =>
    if s < st.srv.nextSession then some (st.start (st.srv.startDisconnect s)) else none
  | .call i =>
    match st.midway[i]? with
    | some (call :: rest) => some (st.perform cfg env i call rest)
    | _ => none
  | .tickAll =>
    if st.snapshot = [] ∧ st.flushing.isNone then
      some { st with snapshot := (st.srv.rooms.walk env).map Prod.snd }
    else none
  | .takeJobs =>
    match st.flushing, st.snapshot with
    | none, r :: rest => some (st.takeJobs r rest)
    | _, _ => none
  | .runJob =>
    match st.flushing with
    | some (r, job :: jobs) => some (st.runJob env r job jobs)
    | _ => none
  | .endTick =>
    match st.flushing with
    | some (r, []) => some (st.endTick cfg env r)
    | _ => none
  | .removeIdleRooms =>
    some { st with srv :=
      { st.srv with rooms := st.srv.rooms.removeIdleRooms env cfg.idleRoomTimeoutMs } }

/-- One step: an action in its environment. -/
def threadNext (cfg : Config) (st : Threads) (step : ThreadAction × Env) : Option Threads :=
  if step.2.now < st.srv.clock then none
  else (threadAct cfg step.2 st step.1).map fun st' =>
    { st' with srv := { st'.srv with clock := step.2.later } }

section

variable {cfg : Config} {env : Env} {st st' : Threads} {action : ThreadAction}

/-- What an action does, where it is enabled. -/
inductive ThreadActs (cfg : Config) (env : Env) (st : Threads) : ThreadAction → Threads → Prop
  | accept (token : Bool) :
      ThreadActs cfg env st (.accept token) { st with srv := st.srv.handleAccept token }
  | packet {s : SessionRef} (packet : ClientPacket) (accepted : s < st.srv.nextSession) :
      ThreadActs cfg env st (.packet s packet) (st.start (st.srv.startPacket env s cfg packet))
  | authCallback {i : Nat} {s : SessionRef} {token : Bytes} (valid : Bool) (accountId : Bytes)
      (pending : st.srv.auth[i]? = some (s, token)) :
      ThreadActs cfg env st (.authCallback i valid accountId) (st.start
        ({ st.srv with auth := st.srv.auth.eraseIdx i }.startCallback s valid accountId))
  | disconnect {s : SessionRef} (accepted : s < st.srv.nextSession) :
      ThreadActs cfg env st (.disconnect s) (st.start (st.srv.startDisconnect s))
  | call {i : Nat} {call : Call} {rest : List Call} (now : st.midway[i]? = some (call :: rest)) :
      ThreadActs cfg env st (.call i) (st.perform cfg env i call rest)
  | tickAll (done : st.snapshot = []) (idle : st.flushing = none) :
      ThreadActs cfg env st .tickAll { st with snapshot := (st.srv.rooms.walk env).map Prod.snd }
  | takeJobs {r : RoomRef} {rest : List RoomRef} (idle : st.flushing = none)
      (snapshot : st.snapshot = r :: rest) : ThreadActs cfg env st .takeJobs (st.takeJobs r rest)
  | runJob {r : RoomRef} {job : Job} {jobs : List Job}
      (flushing : st.flushing = some (r, job :: jobs)) :
      ThreadActs cfg env st .runJob (st.runJob env r job jobs)
  | endTick {r : RoomRef} (flushing : st.flushing = some (r, [])) :
      ThreadActs cfg env st .endTick (st.endTick cfg env r)
  | removeIdleRooms : ThreadActs cfg env st .removeIdleRooms { st with srv :=
      { st.srv with rooms := st.srv.rooms.removeIdleRooms env cfg.idleRoomTimeoutMs } }

theorem acts_of_threadAct (h : threadAct cfg env st action = some st') :
    ThreadActs cfg env st action st' := by
  cases action with
  | accept token =>
    obtain rfl := Option.some.inj h
    exact .accept token
  | packet s packet =>
    obtain ⟨hs, rfl⟩ := of_guard h
    exact .packet packet hs
  | authCallback i valid accountId =>
    simp only [threadAct] at h
    split at h
    · exact absurd h (by simp)
    · rename_i hpending
      split at h
      · exact absurd h (by simp)
      · obtain rfl := Option.some.inj h
        exact .authCallback valid accountId hpending
  | disconnect s =>
    obtain ⟨hs, rfl⟩ := of_guard h
    exact .disconnect hs
  | call i =>
    simp only [threadAct] at h
    split at h
    · rename_i hnow
      obtain rfl := Option.some.inj h
      exact .call hnow
    · exact absurd h (by simp)
  | tickAll =>
    obtain ⟨⟨hdone, hidle⟩, rfl⟩ := of_guard h
    exact .tickAll hdone (Option.isNone_iff_eq_none.mp hidle)
  | takeJobs =>
    simp only [threadAct] at h
    split at h
    · rename_i hidle hsnapshot
      obtain rfl := Option.some.inj h
      exact .takeJobs hidle hsnapshot
    · exact absurd h (by simp)
  | runJob =>
    simp only [threadAct] at h
    split at h
    · rename_i hflushing
      obtain rfl := Option.some.inj h
      exact .runJob hflushing
    · exact absurd h (by simp)
  | endTick =>
    simp only [threadAct] at h
    split at h
    · rename_i hflushing
      obtain rfl := Option.some.inj h
      exact .endTick hflushing
    · exact absurd h (by simp)
  | removeIdleRooms =>
    obtain rfl := Option.some.inj h
    exact .removeIdleRooms

theorem threadNext_acts (h : threadNext cfg st (action, env) = some st') :
    ∃ st₁, ThreadActs cfg env st action st₁ ∧
      st' = { st₁ with srv := { st₁.srv with clock := env.later } } := by
  unfold threadNext at h
  split at h
  · exact absurd h (by simp)
  · obtain ⟨st₁, hact, rfl⟩ := Option.map_eq_some_iff.mp h
    exact ⟨st₁, acts_of_threadAct hact, rfl⟩

end

/-! ## The invariant -/

/-- Rooms in the map exist, a session's pointer names a room in the map that it is a member of, and
a room with members counts as occupied. -/
structure RoomsSound (srv : Server) : Prop where
  created : ∀ r, srv.rooms.Live r → r < srv.rooms.heap.length
  pointer : ∀ s r, srv.roomOf s = some r → srv.rooms.Live r ∧ s ∈ (srv.room r).members
  occupied : ∀ r, ∀ s ∈ (srv.room r).members, (srv.room r).emptySinceMs = 0

/-- **The invariant**: no job is lost, and every room that a thread is going to use is in the map.
-/
structure Kept (st : Threads) : Prop where
  sound : RoomsSound st.srv
  conserved : ∀ r, st.pushed r = st.executed r ++ (st.flushed r ++ (st.srv.room r).jobQueue)
  queued : ∀ r, (st.srv.room r).jobQueue ≠ [] → st.srv.rooms.Live r
  held : ∀ r, st.Holds r → st.srv.rooms.Live r
  ticked : ∀ r, st.Ticks r → st.srv.rooms.Live r

/-- No room is removed while a job is queued in it, a handler holds it, or `TickAll` is to tick
it. -/
def Unheld (cfg : Config) (st : Threads) (step : ThreadAction × Env) : Prop :=
  match step.1 with
  | .removeIdleRooms => ∀ r ∈ st.srv.rooms.rooms.values,
      RoomManager.IdleExpired step.2.now cfg.idleRoomTimeoutMs (st.srv.room r) →
        (st.srv.room r).jobQueue = [] ∧ ¬ st.Holds r ∧ ¬ st.Ticks r
  | _ => True

instance (cfg : Config) (st : Threads) (step : ThreadAction × Env) :
    Decidable (Unheld cfg st step) := by
  unfold Unheld
  split <;> infer_instance

section

variable {cfg : Config} {env : Env} {srv srv' : Server} {st st' : Threads} {r : RoomRef}
  {s : SessionRef}

/-- From `srv` to `srv'` no room goes or changes its members, and no pointer is set. -/
structure Grows (srv srv' : Server) : Prop where
  live : ∀ r, srv.rooms.Live r → srv'.rooms.Live r
  created : ∀ r, srv'.rooms.Live r → srv.rooms.Live r ∨ r < srv'.rooms.heap.length
  length : srv.rooms.heap.length ≤ srv'.rooms.heap.length
  members : ∀ r, (srv'.room r).members = (srv.room r).members
  emptySinceMs : ∀ r, (srv'.room r).emptySinceMs = (srv.room r).emptySinceMs
  pointer : ∀ s r, srv'.roomOf s = some r → srv.roomOf s = some r

theorem Grows.of_rooms_eq (hrooms : srv'.rooms = srv.rooms)
    (hpointer : ∀ s r, srv'.roomOf s = some r → srv.roomOf s = some r) : Grows srv srv' where
  live r h := by rwa [hrooms]
  created r h := by
    rw [hrooms] at h
    exact Or.inl h
  length := by rw [hrooms]
  members r := by unfold Server.room; rw [hrooms]
  emptySinceMs r := by unfold Server.room; rw [hrooms]
  pointer := hpointer

/-- Sending changes no pointer. -/
theorem Grows.of_sent (hrooms : srv'.rooms = srv.rooms) (hsent : Sent env srv.world srv'.world) :
    Grows srv srv' := by
  refine .of_rooms_eq hrooms fun s r h => ?_
  unfold Server.roomOf at h ⊢
  rwa [← hsent.room s]

theorem RoomsSound.of_grows (h : RoomsSound srv) (hgrows : Grows srv srv') : RoomsSound srv' where
  created r hr := by
    rcases hgrows.created r hr with hr | hlt
    · exact lt_of_lt_of_le (h.created r hr) hgrows.length
    · exact hlt
  pointer s r hr := by
    obtain ⟨hlive, hmem⟩ := h.pointer s r (hgrows.pointer s r hr)
    rw [hgrows.members r]
    exact ⟨hgrows.live r hlive, hmem⟩
  occupied r s hs := by
    rw [hgrows.members r] at hs
    rw [hgrows.emptySinceMs r]
    exact h.occupied r s hs

/-- Every job pushed has run, or its room's tick has taken it, or it is in the queue, in order. -/
def Conserved (st : Threads) : Prop :=
  ∀ r, st.pushed r = st.executed r ++ (st.flushed r ++ (st.srv.room r).jobQueue)

/-- What a step of the handlers does: no room goes, they push jobs to rooms they hold, they come to
hold rooms that are in the map or that a session points to, and the ticks stand still. -/
structure Serves (st st' : Threads) : Prop where
  grows : Grows st.srv st'.srv
  queue : ∀ r, ∃ jobs, st'.pushed r = st.pushed r ++ jobs ∧ (jobs ≠ [] → st.Holds r) ∧
    ((jobs ≠ [] → r < st.srv.rooms.heap.length) →
      (st'.srv.room r).jobQueue = (st.srv.room r).jobQueue ++ jobs)
  held : ∀ r, st'.Holds r →
    st.Holds r ∨ st'.srv.rooms.Live r ∨ ∃ s, st.srv.roomOf s = some r
  executed : st'.executed = st.executed
  flushing : st'.flushing = st.flushing
  snapshot : st'.snapshot = st.snapshot

theorem Serves.flushed (h : Serves st st') (r : RoomRef) : st'.flushed r = st.flushed r := by
  unfold Threads.flushed
  rw [h.flushing]

theorem Serves.ticks (h : Serves st st') : st'.Ticks r ↔ st.Ticks r := by
  unfold Threads.Ticks
  rw [h.snapshot, h.flushing]

theorem Serves.conserved (h : Serves st st') (hall : Conserved st)
    (hheld : ∀ r, st.Holds r → r < st.srv.rooms.heap.length) : Conserved st' := by
  intro r
  obtain ⟨jobs, hpushed, hholds, hqueue⟩ := h.queue r
  rw [hpushed, hall r, hqueue fun hne => hheld r (hholds hne), h.executed, h.flushed r]
  simp only [List.append_assoc]

/-- **The handlers** keep the invariant. -/
theorem Kept.of_serves (h : Kept st) (hserves : Serves st st') : Kept st' where
  sound := h.sound.of_grows hserves.grows
  conserved := hserves.conserved h.conserved fun r hr => h.sound.created r (h.held r hr)
  queued r hr := by
    obtain ⟨jobs, -, hholds, hqueue⟩ := hserves.queue r
    rw [hqueue fun hne => h.sound.created r (h.held r (hholds hne))] at hr
    by_cases hnone : jobs = []
    · rw [hnone, List.append_nil] at hr
      exact hserves.grows.live r (h.queued r hr)
    · exact hserves.grows.live r (h.held r (hholds hnone))
  held r hr := by
    rcases hserves.held r hr with hr | hlive | ⟨s, hs⟩
    · exact hserves.grows.live r (h.held r hr)
    · exact hlive
    · exact hserves.grows.live r (h.sound.pointer s r hs).1
  ticked r hr := hserves.grows.live r (h.ticked r (hserves.ticks.mp hr))

/-! ## Handlers -/

theorem holds_singleton {c call : Call} (hcall : call ∈ [c]) (hholds : call.holds = some r) :
    c.holds = some r :=
  List.mem_singleton.mp hcall ▸ hholds

/-- The only room a packet handler starts out with is the one its session points to. -/
theorem holds_calls {packet : ClientPacket} {call : Call} (hcall : call ∈ srv.calls s packet)
    (hholds : call.holds = some r) : srv.roomOf s = some r := by
  unfold Server.roomOf
  unfold Server.calls at hcall
  split at hcall
  · split at hcall
    · rename_i hroom
      exact hroom.trans (holds_singleton hcall hholds)
    · exact absurd hcall List.not_mem_nil
  · split at hcall
    · exact absurd (holds_singleton hcall hholds) (by simp [Call.holds])
    · rcases List.mem_append.mp hcall with hcall | hcall
      · split at hcall
        · rename_i hroom
          exact hroom.trans (holds_singleton hcall hholds)
        · exact absurd hcall List.not_mem_nil
      · exact absurd (holds_singleton hcall hholds) (by simp [Call.holds])
  · split at hcall
    · exact absurd (holds_singleton hcall hholds) (by simp [Call.holds])
    · rename_i hroom
      exact hroom.trans (holds_singleton hcall hholds)
  · split at hcall
    · rename_i hroom
      exact hroom.trans (holds_singleton hcall hholds)
    · exact absurd hcall List.not_mem_nil
  · split at hcall
    · exact absurd hcall List.not_mem_nil
    · split at hcall
      · exact absurd hcall List.not_mem_nil
      · rename_i hroom
        exact hroom.trans (holds_singleton hcall hholds)
  all_goals exact absurd hcall List.not_mem_nil

/-- A handler has started. -/
theorem serves_start {started : Server × List Call} (hrooms : started.1.rooms = st.srv.rooms)
    (hpointer : ∀ s r, started.1.roomOf s = some r → st.srv.roomOf s = some r)
    (hholds : ∀ call ∈ started.2, ∀ r, call.holds = some r → ∃ s, st.srv.roomOf s = some r) :
    Serves st (st.start started) := by
  refine ⟨.of_rooms_eq hrooms hpointer, fun r => ⟨[], ?_, fun hne => absurd rfl hne, fun _ => ?_⟩,
    ?_, rfl, rfl, rfl⟩
  · exact (List.append_nil _).symm
  · show (started.1.rooms.room r).jobQueue = _
    rw [hrooms, List.append_nil]
  · rintro r ⟨calls, hcalls, call, hcall, hr⟩
    rcases List.mem_append.mp hcalls with hcalls | hcalls
    · exact Or.inl ⟨calls, hcalls, call, hcall, hr⟩
    · rw [List.mem_singleton.mp hcalls] at hcall
      exact Or.inr (Or.inr (hholds call hcall r hr))

theorem serves_startPacket (packet : ClientPacket) :
    Serves st (st.start (st.srv.startPacket env s cfg packet)) := by
  have hcalls : ∀ packet, st.srv.startPacket env s cfg packet = (st.srv, st.srv.calls s packet) →
      Serves st (st.start (st.srv.startPacket env s cfg packet)) := by
    intro packet hstart
    rw [hstart]
    exact serves_start rfl (fun _ _ hr => hr) fun call hcall r hr => ⟨s, holds_calls hcall hr⟩
  have hdone : ∀ packet, (st.srv.handlePacket env s cfg packet).rooms = st.srv.rooms →
      st.srv.startPacket env s cfg packet = (st.srv.handlePacket env s cfg packet, []) →
      Serves st (st.start (st.srv.startPacket env s cfg packet)) := by
    intro packet hrooms hstart
    rw [hstart]
    refine serves_start hrooms ?_ fun call hcall => absurd hcall List.not_mem_nil
    exact (Grows.of_sent hrooms (handled_packet cfg packet st.srv).world).pointer
  cases packet with
  | login password =>
    refine hdone (.login password) ?_ rfl
    show (st.srv.handleCLogin env s password).rooms = st.srv.rooms
    unfold Server.handleCLogin
    split
    · rfl
    · split <;> rfl
  | ping payload =>
    refine hdone (.ping payload) ?_ rfl
    show (st.srv.handleCPing env s payload).rooms = st.srv.rooms
    unfold Server.handleCPing
    split <;> rfl
  | roomList => exact hdone .roomList rfl rfl
  | chat message => exact hcalls (.chat message) rfl
  | roomEnter roomName => exact hcalls (.roomEnter roomName) rfl
  | roomLeave => exact hcalls .roomLeave rfl
  | move position => exact hcalls (.move position) rfl
  | ready => exact hcalls .ready rfl

theorem serves_startCallback (i : Nat) (valid : Bool) (accountId : Bytes) :
    Serves st (st.start
      ({ st.srv with auth := st.srv.auth.eraseIdx i }.startCallback s valid accountId)) := by
  unfold Server.startCallback
  cases valid with
  | false =>
    refine serves_start rfl (fun _ _ hr => hr) fun call hcall r hr => ?_
    exact absurd (holds_singleton hcall hr) (by simp [Call.holds])
  | true =>
    refine serves_start rfl (fun t r hr => ?_) fun call hcall r hr => ?_
    · exact (World.room_setAccountId _ _ _ _).symm.trans hr
    · exact absurd (holds_singleton hcall hr) (by simp [Call.holds])

theorem serves_startDisconnect : Serves st (st.start (st.srv.startDisconnect s)) := by
  unfold Server.startDisconnect
  split
  · exact serves_start rfl (fun _ _ hr => hr) fun call hcall => absurd hcall List.not_mem_nil
  · refine serves_start rfl (fun t r hr => ?_) fun call hcall r hr => ?_
    · exact (World.room_disconnect _ _ _).symm.trans hr
    · refine ⟨s, ?_⟩
      split at hcall
      · exact absurd hcall List.not_mem_nil
      · rename_i hroom
        rcases List.mem_cons.mp hcall with rfl | hcall
        · exact absurd hr (by simp [Call.holds])
        · exact hroom.trans (holds_singleton hcall hr)

theorem grows_pushJob (srv : Server) (r : RoomRef) (job : Job) : Grows srv (srv.pushJob r job) where
  live _ hr := hr
  created _ hr := Or.inl hr
  length := (RoomManager.length_modify _).ge
  members := RoomManager.room_modify_part GameRoom.members (f := fun room => room.pushJob job)
    (fun _ => rfl) r
  emptySinceMs := RoomManager.room_modify_part GameRoom.emptySinceMs
    (f := fun room => room.pushJob job) (fun _ => rfl) r
  pointer _ _ hr := hr

theorem grows_getOrCreate (srv : Server) (maxRoomPlayers : Int) (name : Bytes) :
    Grows srv { srv with rooms := (srv.rooms.getOrCreate maxRoomPlayers name).2 } := by
  have hqueued : Queued maxRoomPlayers srv.rooms (srv.rooms.getOrCreate maxRoomPlayers name).2
      fun _ _ => False :=
    .getOrCreate _ _ _
  exact ⟨fun r hr => RoomManager.live_getOrCreate hr,
    fun r hr => RoomManager.live_of_getOrCreate hr, hqueued.grows, hqueued.members,
    hqueued.emptySinceMs, fun _ _ hr => hr⟩

/-- A call was made that keeps the rooms and leads to rooms in the map. -/
theorem serves_call {i : Nat} {call : Call} {rest : List Call}
    (hi : st.midway[i]? = some (call :: rest))
    (hgrows : Grows st.srv (call.perform cfg env st.srv).1)
    (hqueue : ∀ r, (call.pushes r ≠ [] → r < st.srv.rooms.heap.length) →
      ((call.perform cfg env st.srv).1.room r).jobQueue =
        (st.srv.room r).jobQueue ++ call.pushes r)
    (hmore : ∀ c ∈ (call.perform cfg env st.srv).2, ∀ r, c.holds = some r →
      (call.perform cfg env st.srv).1.rooms.Live r) :
    Serves st (st.perform cfg env i call rest) := by
  have hnow : (call :: rest) ∈ st.midway := List.mem_of_getElem? hi
  refine ⟨hgrows, fun r => ⟨call.pushes r, rfl, fun hpushes => ?_, hqueue r⟩, ?_, rfl, rfl, rfl⟩
  · refine ⟨_, hnow, call, List.mem_cons_self, ?_⟩
    cases call with
    | pushJob r' job =>
      by_contra hne
      exact hpushes (if_neg fun hr => hne (congrArg some hr))
    | _ => exact absurd rfl hpushes
  · rintro r ⟨calls, hcalls, c, hc, hr⟩
    rcases List.mem_or_eq_of_mem_set hcalls with hcalls | rfl
    · exact Or.inl ⟨calls, hcalls, c, hc, hr⟩
    · rcases List.mem_append.mp hc with hc | hc
      · exact Or.inr (Or.inl (hmore c hc r hr))
      · exact Or.inl ⟨_, hnow, c, List.mem_cons_of_mem _ hc, hr⟩

/-- A handler has gone on. -/
theorem serves_perform {i : Nat} {call : Call} {rest : List Call}
    (hi : st.midway[i]? = some (call :: rest)) : Serves st (st.perform cfg env i call rest) := by
  cases call with
  | pushJob r' job =>
    refine serves_call hi (grows_pushJob st.srv r' job) (fun r hlen => ?_)
      fun c hc => absurd hc List.not_mem_nil
    refine RoomManager.jobQueue_pushJob.trans ?_
    show _ = (st.srv.room r).jobQueue ++ (if r' = r then [job] else [])
    by_cases hr : r' = r
    · have hlen' : r' < st.srv.rooms.heap.length := by
        subst hr
        refine hlen ?_
        show (if r' = r' then [job] else []) ≠ []
        rw [if_pos rfl]
        exact List.cons_ne_nil _ _
      rw [if_pos ⟨hr.symm, hlen'⟩, if_pos hr]
    · rw [if_neg (fun h => hr h.1.symm), if_neg hr, List.append_nil]
  | getOrCreate s roomName =>
    refine serves_call hi (grows_getOrCreate st.srv cfg.maxRoomPlayers roomName) (fun r _ => ?_)
      fun c hc r hr => ?_
    · exact RoomManager.jobQueue_getOrCreate.trans (List.append_nil _).symm
    · have hself := holds_singleton hc hr
      obtain rfl := Option.some.inj hself
      exact RoomManager.getOrCreate_live
  | findReconnect s accountId =>
    refine serves_call hi (.of_rooms_eq rfl fun _ _ hr => hr)
      (fun r _ => (List.append_nil _).symm) fun c hc r hr => ?_
    change c ∈ (match st.srv.rooms.findReconnect env accountId with
      | some r => [Call.pushJob r (.handleRejoin s), Call.send s (.login true (utf8 "reconnected"))]
      | none => [Call.send s (.login true (utf8 "Login OK."))]) at hc
    split at hc
    · rename_i hfound
      rcases List.mem_cons.mp hc with rfl | hc
      · obtain rfl := Option.some.inj hr
        exact RoomManager.findReconnect_live hfound
      · exact absurd (holds_singleton hc hr) (by simp [Call.holds])
    · exact absurd (holds_singleton hc hr) (by simp [Call.holds])
  | clearRoom s =>
    refine serves_call hi (.of_rooms_eq rfl fun t r hr => ?_)
      (fun r _ => (List.append_nil _).symm) fun c hc => absurd hc List.not_mem_nil
    change ((st.srv.world.setRoom s none).session t).room = some r at hr
    by_cases hts : t = s
    · rw [hts, World.session_setRoom_self] at hr
      exact absurd hr (by simp)
    · rwa [World.session_setRoom_ne hts] at hr
  | send s message =>
    exact serves_call hi (.of_sent rfl (Sent.send env s message _))
      (fun r _ => (List.append_nil _).symm) fun c hc => absurd hc List.not_mem_nil

theorem serves_accept (token : Bool) :
    Serves st { st with srv := st.srv.handleAccept token } := by
  have hrooms : (st.srv.handleAccept token).rooms = st.srv.rooms := by
    unfold Server.handleAccept
    cases token <;> rfl
  have hgrows : Grows st.srv (st.srv.handleAccept token) := by
    refine .of_rooms_eq hrooms fun s r hr => ?_
    unfold Server.handleAccept at hr
    cases token with
    | false => exact hr
    | true =>
      change (Function.update st.srv.world.session st.srv.nextSession
        { ServerSession.new with sessionId := _ } s).room = some r at hr
      by_cases hs : s = st.srv.nextSession
      · rw [hs, Function.update_self] at hr
        exact absurd hr (by simp [ServerSession.new])
      · rwa [Function.update_of_ne hs] at hr
  refine ⟨hgrows, fun r => ⟨[], (List.append_nil _).symm, fun hne => absurd rfl hne, fun _ => ?_⟩,
    fun r hr => Or.inl hr, rfl, rfl, rfl⟩
  show ((st.srv.handleAccept token).rooms.room r).jobQueue = _
  rw [hrooms, List.append_nil]

/-- Accepts, packets, callbacks, closed connections and calls are the steps of the handlers. -/
def ThreadAction.Handles : ThreadAction → Prop
  | .accept _ | .packet _ _ | .authCallback _ _ _ | .disconnect _ | .call _ => True
  | .tickAll | .takeJobs | .runJob | .endTick | .removeIdleRooms => False

theorem serves_next {action : ThreadAction} (hacts : ThreadActs cfg env st action st')
    (haction : action.Handles) : Serves st st' := by
  cases hacts with
  | accept token => exact serves_accept token
  | packet packet accepted => exact serves_startPacket packet
  | @authCallback i s token valid accountId pending => exact serves_startCallback i valid accountId
  | disconnect accepted => exact serves_startDisconnect
  | call now => exact serves_perform now
  | tickAll done idle => exact absurd haction id
  | takeJobs idle snapshot => exact absurd haction id
  | runJob flushing => exact absurd haction id
  | endTick flushing => exact absurd haction id
  | removeIdleRooms => exact absurd haction id

/-! ## Ticks -/

theorem queue_takeJobs {rest : List RoomRef} (hlen : r < st.srv.rooms.heap.length)
    (r' : RoomRef) : ((st.takeJobs r rest).srv.room r').jobQueue =
      if r' = r then [] else (st.srv.room r').jobQueue := by
  by_cases hr : r' = r
  · rw [if_pos hr, hr]
    exact congrArg GameRoom.jobQueue (RoomManager.room_modify_self hlen _)
  · rw [if_neg hr]
    exact congrArg GameRoom.jobQueue (RoomManager.room_modify_ne hr _)

theorem conserved_takeJobs {rest : List RoomRef} (h : Conserved st)
    (hlen : r < st.srv.rooms.heap.length) (hidle : st.flushing = none) :
    Conserved (st.takeJobs r rest) := by
  intro r'
  have hnone : st.flushed r' = [] := by
    unfold Threads.flushed
    rw [hidle]
  have hconserved := h r'
  rw [hnone, List.nil_append] at hconserved
  rw [queue_takeJobs hlen]
  show st.pushed r' = st.executed r' ++ ((if r = r' then (st.srv.room r).jobQueue else []) ++ _)
  by_cases hr : r' = r
  · rw [if_pos hr, if_pos hr.symm, List.append_nil, hconserved, hr]
  · rw [if_neg hr, if_neg (Ne.symm hr), List.nil_append, hconserved]

/-- The list of `TickAll` is a list of rooms in the map. -/
theorem ticks_tickAll {r : RoomRef} (hidle : st.flushing = none)
    (hr : { st with snapshot := (st.srv.rooms.walk env).map Prod.snd }.Ticks r) :
    st.srv.rooms.Live r := by
  rcases hr with hr | ⟨flush, hflush, -⟩
  · obtain ⟨e, he, rfl⟩ := List.mem_map.mp hr
    exact RoomManager.live_of_walk he
  · exact absurd (hidle.symm.trans hflush) (by simp)

/-- `TickAll` comes to no room but those on its list. -/
theorem ticks_takeJobs {rest : List RoomRef} {r' : RoomRef} (hsnapshot : st.snapshot = r :: rest)
    (hr : (st.takeJobs r rest).Ticks r') : st.Ticks r' := by
  left
  rw [hsnapshot]
  rcases hr with hr | ⟨flush, hflush, rfl⟩
  · exact List.mem_cons_of_mem _ hr
  · obtain rfl := Option.some.inj hflush
    exact List.mem_cons_self

theorem ticks_runJob {job : Job} {jobs : List Job} {r' : RoomRef}
    (hflushing : st.flushing = some (r, job :: jobs)) (hr : (st.runJob env r job jobs).Ticks r') :
    st.Ticks r' := by
  rcases hr with hr | ⟨flush, hflush, rfl⟩
  · exact Or.inl hr
  · obtain rfl := Option.some.inj hflush
    exact Or.inr ⟨_, hflushing, rfl⟩

theorem ticks_endTick {r' : RoomRef} (hr : (st.endTick cfg env r).Ticks r') : st.Ticks r' := by
  rcases hr with hr | ⟨flush, hflush, -⟩
  · exact Or.inl hr
  · exact absurd hflush (by simp [Threads.endTick])

theorem grows_takeJobs {rest : List RoomRef} : Grows st.srv (st.takeJobs r rest).srv where
  live _ hr := hr
  created _ hr := Or.inl hr
  length := (RoomManager.length_modify _).ge
  members := RoomManager.room_modify_part GameRoom.members
    (f := fun room => { room with jobQueue := [] }) (fun _ => rfl) r
  emptySinceMs := RoomManager.room_modify_part GameRoom.emptySinceMs
    (f := fun room => { room with jobQueue := [] }) (fun _ => rfl) r
  pointer _ _ hr := hr

/-- A tick has taken the queue of its room. -/
theorem kept_takeJobs {rest : List RoomRef} (h : Kept st) (hidle : st.flushing = none)
    (hsnapshot : st.snapshot = r :: rest) : Kept (st.takeJobs r rest) := by
  have hlive : st.srv.rooms.Live r := by
    refine h.ticked r (Or.inl ?_)
    rw [hsnapshot]
    exact List.mem_cons_self
  have hlen := h.sound.created r hlive
  refine ⟨h.sound.of_grows grows_takeJobs, conserved_takeJobs h.conserved hlen hidle,
    fun r' hr' => ?_, h.held, fun r' hr' => h.ticked r' (ticks_takeJobs hsnapshot hr')⟩
  rw [queue_takeJobs hlen] at hr'
  split at hr'
  · exact absurd rfl hr'
  · exact h.queued r' hr'

theorem queue_runJob {job : Job} {jobs : List Job} (r' : RoomRef) :
    ((st.runJob env r job jobs).srv.room r').jobQueue = (st.srv.room r').jobQueue := by
  by_cases hlen : r < st.srv.rooms.heap.length
  · by_cases hr : r' = r
    · subst hr
      exact (congrArg GameRoom.jobQueue (RoomManager.room_modify_self hlen _)).trans
        Job.jobQueue_run
    · exact congrArg GameRoom.jobQueue (RoomManager.room_modify_ne hr _)
  · -- no such room
    have hsame : (st.runJob env r job jobs).srv.rooms.heap = st.srv.rooms.heap :=
      List.modify_eq_self (not_lt.mp hlen)
    unfold Server.room RoomManager.room
    rw [hsame]

theorem conserved_runJob {job : Job} {jobs : List Job} (h : Conserved st)
    (hflushing : st.flushing = some (r, job :: jobs)) : Conserved (st.runJob env r job jobs) := by
  intro r'
  rw [queue_runJob]
  have hconserved := h r'
  unfold Threads.flushed at hconserved ⊢
  simp only [hflushing] at hconserved
  show st.pushed r' = Function.update st.executed r (st.executed r ++ [job]) r' ++
    ((if r = r' then jobs else []) ++ _)
  by_cases hr : r' = r
  · subst hr
    rw [if_pos rfl] at hconserved
    rw [if_pos rfl, Function.update_self, hconserved]
    simp
  · rw [if_neg (Ne.symm hr)] at hconserved
    rw [if_neg (Ne.symm hr), Function.update_of_ne hr, hconserved]

/-- A job has run. -/
theorem kept_runJob {job : Job} {jobs : List Job} (h : Kept st)
    (hflushing : st.flushing = some (r, job :: jobs)) : Kept (st.runJob env r job jobs) := by
  have hlive : st.srv.rooms.Live r := h.ticked r (Or.inr ⟨_, hflushing, rfl⟩)
  have hlen := h.sound.created r hlive
  have hself : (st.runJob env r job jobs).srv.room r =
      (job.run env r (st.srv.room r) st.srv.world).1 := RoomManager.room_modify_self hlen _
  have hother : ∀ {r'}, r' ≠ r → (st.runJob env r job jobs).srv.room r' = st.srv.room r' :=
    fun hr => RoomManager.room_modify_ne hr _
  have hlength : (st.runJob env r job jobs).srv.rooms.heap.length = st.srv.rooms.heap.length :=
    RoomManager.length_modify _
  refine ⟨⟨fun r' hr' => ?_, fun s r' hr' => ?_, fun r' s hs => ?_⟩,
    conserved_runJob h.conserved hflushing, fun r' hr' => ?_, h.held,
    fun r' hr' => h.ticked r' (ticks_runJob hflushing hr')⟩
  · rw [hlength]
    exact h.sound.created r' hr'
  · -- the job has written the pointer to this room, or left it as it was
    have hroom : (if job.TakesIn (st.srv.room r) s then some r
        else if job.Leaves s ∧ s ∈ (st.srv.room r).members then none
        else (st.srv.world.session s).room) = some r' := Job.room_run.symm.trans hr'
    by_cases htakes : job.TakesIn (st.srv.room r) s
    · rw [if_pos htakes] at hroom
      obtain rfl := Option.some.inj hroom
      refine ⟨hlive, ?_⟩
      rw [hself]
      exact Job.mem_run.mpr (Or.inl htakes)
    · rw [if_neg htakes] at hroom
      by_cases hleaves : job.Leaves s ∧ s ∈ (st.srv.room r).members
      · rw [if_pos hleaves] at hroom
        exact absurd hroom (by simp)
      · rw [if_neg hleaves] at hroom
        obtain ⟨hlive', hmem⟩ := h.sound.pointer s r' hroom
        refine ⟨hlive', ?_⟩
        by_cases hr : r' = r
        · subst hr
          rw [hself]
          exact Job.mem_run.mpr (Or.inr ⟨hmem, fun hleave => hleaves ⟨hleave, hmem⟩⟩)
        · rw [hother hr]
          exact hmem
  · by_cases hr : r' = r
    · subst hr
      rw [hself] at hs ⊢
      exact Job.emptySinceMs_run (h.sound.occupied r') hs
    · rw [hother hr] at hs ⊢
      exact h.sound.occupied r' s hs
  · rw [queue_runJob] at hr'
    exact h.queued r' hr'

/-- The end of a tick changes what `swept` does, in its own room. -/
theorem part_endTick {γ : Type} (part : GameRoom → γ)
    (hsame : part ((st.srv.room r).swept env cfg.reconnectWindowMs) = part (st.srv.room r))
    (hlen : r < st.srv.rooms.heap.length) (r' : RoomRef) :
    part ((st.endTick cfg env r).srv.room r') = part (st.srv.room r') := by
  have hself : (st.endTick cfg env r).srv.room r =
      (st.srv.room r).swept env cfg.reconnectWindowMs :=
    (RoomManager.room_modify_self hlen _).trans (GameRoom.tickEnd_spec cfg.reconnectWindowMs).1
  by_cases hr : r' = r
  · rw [hr, hself, hsame]
  · exact congrArg part (RoomManager.room_modify_ne hr _)

theorem conserved_endTick (h : Conserved st) (hlen : r < st.srv.rooms.heap.length)
    (hflushing : st.flushing = some (r, [])) : Conserved (st.endTick cfg env r) := by
  intro r'
  rw [part_endTick GameRoom.jobQueue rfl hlen]
  have hconserved := h r'
  unfold Threads.flushed at hconserved
  simp only [hflushing, ite_self] at hconserved
  exact hconserved

theorem grows_endTick (hlen : r < st.srv.rooms.heap.length) :
    Grows st.srv (st.endTick cfg env r).srv where
  live _ hr := hr
  created _ hr := Or.inl hr
  length := (RoomManager.length_modify _).ge
  members := part_endTick GameRoom.members rfl hlen
  emptySinceMs := part_endTick GameRoom.emptySinceMs rfl hlen
  pointer s _ hr := ((GameRoom.tickEnd_spec cfg.reconnectWindowMs).2.room s).symm.trans hr

/-- A tick is over. -/
theorem kept_endTick (h : Kept st) (hflushing : st.flushing = some (r, [])) :
    Kept (st.endTick cfg env r) := by
  have hlen := h.sound.created r (h.ticked r (Or.inr ⟨_, hflushing, rfl⟩))
  refine ⟨h.sound.of_grows (grows_endTick hlen), conserved_endTick h.conserved hlen hflushing,
    fun r' hr' => ?_, h.held, fun r' hr' => h.ticked r' (ticks_endTick hr')⟩
  rw [part_endTick GameRoom.jobQueue rfl hlen] at hr'
  exact h.queued r' hr'

/-- A pass of `RemoveIdleRooms` keeps the invariant if no room it removes is still to be used. -/
theorem kept_removeIdleRooms (h : Kept st) (hc : Unheld cfg st (.removeIdleRooms, env)) :
    Kept { st with srv :=
      { st.srv with rooms := st.srv.rooms.removeIdleRooms env cfg.idleRoomTimeoutMs } } := by
  have hkept : ∀ {r}, st.srv.rooms.Live r → (RoomManager.IdleExpired env.now cfg.idleRoomTimeoutMs
      (st.srv.room r) → (st.srv.room r).jobQueue ≠ [] ∨ st.Holds r ∨ st.Ticks r) →
      (st.srv.rooms.removeIdleRooms env cfg.idleRoomTimeoutMs).Live r := by
    intro r hlive hused
    refine RoomManager.live_removeIdleRooms.mpr ⟨hlive, fun hexpired => ?_⟩
    obtain ⟨hqueue, hheld, hticked⟩ := hc r hlive hexpired
    rcases hused hexpired with hne | hholds | hticks
    · exact hne hqueue
    · exact hheld hholds
    · exact hticked hticks
  refine ⟨⟨fun r hr => ?_, fun s r hr => ?_, h.sound.occupied⟩, h.conserved, fun r hr => ?_,
    fun r hr => ?_, fun r hr => ?_⟩
  · exact h.sound.created r (RoomManager.live_removeIdleRooms.mp hr).1
  · obtain ⟨hlive, hmem⟩ := h.sound.pointer s r hr
    refine ⟨RoomManager.live_removeIdleRooms.mpr ⟨hlive, fun hexpired => ?_⟩, hmem⟩
    -- a room with members does not pass the test
    exact absurd hexpired.1 (by rw [h.sound.occupied r s hmem]; exact lt_irrefl 0)
  · exact hkept (h.queued r hr) fun _ => Or.inl hr
  · exact hkept (h.held r hr) fun _ => Or.inr (Or.inl hr)
  · exact hkept (h.ticked r hr) fun _ => Or.inr (Or.inr hr)

/-! ## Runs -/

theorem roomsSound_empty : RoomsSound .empty := by
  refine ⟨fun r hr => absurd hr List.not_mem_nil, fun s r hr => ?_, fun r s hs => ?_⟩
  · exact absurd hr (by simp [Server.roomOf, Server.empty, ServerSession.new])
  · rw [room_empty] at hs
    exact absurd hs (IterSet.not_mem_empty s)

theorem kept_empty : Kept .empty where
  sound := roomsSound_empty
  conserved r := by
    show [] = [] ++ ([] ++ (Server.empty.room r).jobQueue)
    rw [room_empty]
    rfl
  queued r hr := by
    change (Server.empty.room r).jobQueue ≠ [] at hr
    rw [room_empty] at hr
    exact absurd rfl hr
  held r hr := by
    obtain ⟨calls, hcalls, -⟩ := hr
    exact absurd hcalls List.not_mem_nil
  ticked r hr := by
    rcases hr with hr | ⟨flush, hflush, -⟩
    · exact absurd hr List.not_mem_nil
    · exact absurd hflush (by simp [Threads.empty])

/-- Nothing that the invariant speaks of changes. -/
theorem Kept.of_clock (h : Kept st) (clock : Int) :
    Kept { st with srv := { st.srv with clock := clock } } :=
  ⟨⟨h.sound.created, h.sound.pointer, h.sound.occupied⟩, h.conserved, h.queued, h.held, h.ticked⟩

/-- **One step** keeps every job, and every room that is still to be used. -/
theorem kept_next {step : ThreadAction × Env} (h : Kept st) (hc : Unheld cfg st step)
    (hnext : threadNext cfg st step = some st') : Kept st' := by
  obtain ⟨action, env⟩ := step
  obtain ⟨st₁, hacts, rfl⟩ := threadNext_acts hnext
  refine Kept.of_clock ?_ env.later
  by_cases hhandles : action.Handles
  · exact h.of_serves (serves_next hacts hhandles)
  cases hacts with
  | accept token => exact absurd trivial hhandles
  | packet packet accepted => exact absurd trivial hhandles
  | authCallback valid accountId pending => exact absurd trivial hhandles
  | disconnect accepted => exact absurd trivial hhandles
  | call now => exact absurd trivial hhandles
  | tickAll done idle =>
    exact ⟨h.sound, h.conserved, h.queued, h.held, fun r hr => ticks_tickAll idle hr⟩
  | takeJobs idle snapshot => exact kept_takeJobs h idle snapshot
  | runJob flushing => exact kept_runJob h flushing
  | endTick flushing => exact kept_endTick h flushing
  | removeIdleRooms => exact kept_removeIdleRooms h hc

/-- **No job is lost**: in every run whose steps meet `Unheld`, the jobs pushed to a room are those
it has run, then those its tick has taken and has yet to run, then those in its queue; if there are
any of the latter, the room is in the map; and `TickAll` only comes to rooms in the map. -/
theorem jobs_kept (cfg : Config) {steps : List (ThreadAction × Env)}
    (hrun : run (threadNext cfg) .empty steps = some st)
    (hc : Along (threadNext cfg) (Unheld cfg) .empty steps) :
    (∀ r, st.pushed r = st.executed r ++ (st.flushed r ++ (st.srv.room r).jobQueue) ∧
      (st.flushed r ++ (st.srv.room r).jobQueue ≠ [] → st.srv.rooms.Live r)) ∧
    ∀ r, st.Ticks r → st.srv.rooms.Live r := by
  have h : Kept st :=
    run_invariant (I := Kept) (fun st step st' hi hc h => kept_next hi hc h) kept_empty hc hrun
  refine ⟨fun r => ⟨h.conserved r, fun hne => ?_⟩, h.ticked⟩
  by_cases hqueue : (st.srv.room r).jobQueue = []
  · rw [hqueue, List.append_nil] at hne
    refine h.ticked r (Or.inr ?_)
    unfold Threads.flushed at hne
    cases hflushing : st.flushing with
    | none =>
      rw [hflushing] at hne
      exact absurd rfl hne
    | some flush =>
      refine ⟨flush, rfl, ?_⟩
      by_contra hr
      rw [hflushing] at hne
      exact hne (if_neg hr)
  · exact h.queued r hqueue

/-! ## A tick without a pause -/

/-- The jobs of a `Flush`, one after the other. -/
def flushSteps : List Job → (Nat → Env) → List (ThreadAction × Env)
  | [], _ => []
  | _ :: jobs, envs => (.runJob, envs 0) :: flushSteps jobs fun n => envs (n + 1)

/-- The clock does not go back. -/
def Forward (clock : Int) (envs : Nat → Env) : Prop :=
  clock ≤ (envs 0).now ∧ ∀ n, (envs n).later ≤ (envs (n + 1)).now

theorem run_flush {jobs : List Job} {envs : Nat → Env} (hflushing : st.flushing = some (r, jobs))
    (hlen : r < st.srv.rooms.heap.length) (hclock : Forward st.srv.clock envs) :
    ∃ st', run (threadNext cfg) st (flushSteps jobs envs) = some st' ∧
      st'.flushing = some (r, []) ∧ st'.srv.rooms.heap.length = st.srv.rooms.heap.length ∧
      (st'.srv.room r, st'.srv.world) = GameRoom.flush r jobs envs (st.srv.room r) st.srv.world ∧
      st'.srv.clock ≤ (envs jobs.length).now := by
  induction jobs generalizing st envs with
  | nil => exact ⟨st, rfl, hflushing, rfl, rfl, hclock.1⟩
  | cons job jobs ih =>
    let st₁ : Threads := { st.runJob (envs 0) r job jobs with
      srv := { (st.runJob (envs 0) r job jobs).srv with clock := (envs 0).later } }
    have hstep : threadNext cfg st (.runJob, envs 0) = some st₁ := by
      unfold threadNext threadAct
      rw [if_neg (not_lt.mpr hclock.1), hflushing]
      rfl
    have hroom : st₁.srv.room r = (job.run (envs 0) r (st.srv.room r) st.srv.world).1 :=
      RoomManager.room_modify_self hlen _
    have hlength : st₁.srv.rooms.heap.length = st.srv.rooms.heap.length :=
      RoomManager.length_modify _
    obtain ⟨st', hrun, hdone, hlength', hflush, hlast⟩ :=
      @ih st₁ (fun n => envs (n + 1)) rfl (by rw [hlength]; exact hlen)
        ⟨hclock.2 0, fun n => hclock.2 (n + 1)⟩
    refine ⟨st', ?_, hdone, hlength'.trans hlength, ?_, hlast⟩
    · rw [flushSteps, run, hstep]
      exact hrun
    · rw [hflush, hroom]
      rfl

/-- A `Tick` without a pause: the swap, each job, and the rest in the last environment. -/
theorem run_tick {rest : List RoomRef} {first : Env} {envs : Nat → Env}
    (hidle : st.flushing = none) (hsnapshot : st.snapshot = r :: rest)
    (hlen : r < st.srv.rooms.heap.length) (hfirst : st.srv.clock ≤ first.now)
    (hclock : Forward first.later envs) :
    ∃ st', run (threadNext cfg) st
        ((.takeJobs, first) :: flushSteps (st.srv.room r).jobQueue envs ++
        [(.endTick, envs (st.srv.room r).jobQueue.length)]) = some st' ∧ st'.flushing = none ∧
      (st'.srv.room r, st'.srv.world) =
        GameRoom.tick envs (envs (st.srv.room r).jobQueue.length) cfg.reconnectWindowMs r
          (st.srv.room r) st.srv.world := by
  let st₁ : Threads := { st.takeJobs r rest with
    srv := { (st.takeJobs r rest).srv with clock := first.later } }
  have hstep : threadNext cfg st (.takeJobs, first) = some st₁ := by
    unfold threadNext threadAct
    rw [if_neg (not_lt.mpr hfirst), hidle, hsnapshot]
    rfl
  have hroom : st₁.srv.room r = { st.srv.room r with jobQueue := [] } :=
    RoomManager.room_modify_self hlen _
  have hlength : st₁.srv.rooms.heap.length = st.srv.rooms.heap.length := RoomManager.length_modify _
  obtain ⟨st₂, hrun, hdone, hlength₂, hflush, hlast⟩ :=
    @run_flush cfg st₁ r _ envs rfl (by rw [hlength]; exact hlen) hclock
  have hlen₂ : r < st₂.srv.rooms.heap.length := by
    rw [hlength₂, hlength]
    exact hlen
  let last := envs (st.srv.room r).jobQueue.length
  let st₃ : Threads := { st₂.endTick cfg last r with
    srv := { (st₂.endTick cfg last r).srv with clock := last.later } }
  have hend : threadNext cfg st₂ (.endTick, last) = some st₃ := by
    unfold threadNext threadAct
    rw [if_neg (not_lt.mpr hlast), hdone]
    rfl
  have hswept : st₃.srv.room r =
      ((st₂.srv.room r).tickEnd last cfg.reconnectWindowMs st₂.srv.world).1 :=
    RoomManager.room_modify_self hlen₂ _
  refine ⟨st₃, ?_, rfl, ?_⟩
  · rw [List.cons_append, run, hstep, Option.bind_some]
    exact run_snoc hrun hend
  · rw [hroom] at hflush
    rw [hswept]
    show _ = GameRoom.tickEnd _ _ (GameRoom.flush _ _ _ _ _).1 (GameRoom.flush _ _ _ _ _).2
    rw [show (GameRoom.flush r (st.srv.room r).jobQueue envs { st.srv.room r with jobQueue := [] }
      st.srv.world) = (st₂.srv.room r, st₂.srv.world) from hflush.symm]
    rfl

/-- At time `1000` a session enters room `A` and leaves it again, and `A` is idle from then on. The
rest is at time `100000`. -/
def leftIdle (rest : List ThreadAction) : List (ThreadAction × Env) :=
  [ThreadAction.accept true, .packet 0 (.login (some [116])), .authCallback 0 true [97], .call 1,
    .call 1, .packet 0 (.roomEnter (some [65])), .call 2, .call 2, .tickAll, .takeJobs, .runJob,
    .endTick, .packet 0 .roomLeave, .call 3, .tickAll, .takeJobs, .runJob, .endTick].map
      (fun action => (action, .quiet 1000)) ++
    rest.map fun action => (action, .quiet 100000)

/-- The session enters room `B` while `A` is removed. -/
theorem jobs_kept_otherRoom :
    ∃ st, run (threadNext ⟨16, 30000, 60000⟩) .empty (leftIdle
        [.packet 0 (.roomEnter (some [66])), .call 4, .removeIdleRooms, .call 4]) = some st ∧
      ¬ st.srv.rooms.Live 0 ∧
      (∀ r, st.pushed r = st.executed r ++ (st.flushed r ++ (st.srv.room r).jobQueue) ∧
        (st.flushed r ++ (st.srv.room r).jobQueue ≠ [] → st.srv.rooms.Live r)) ∧
      ∀ r, st.Ticks r → st.srv.rooms.Live r := by
  obtain ⟨st, hrun, hgone⟩ :
      ∃ st, run (threadNext ⟨16, 30000, 60000⟩) .empty (leftIdle
          [.packet 0 (.roomEnter (some [66])), .call 4, .removeIdleRooms, .call 4]) = some st ∧
        ¬ st.srv.rooms.Live 0 := by decide
  exact ⟨st, hrun, hgone, jobs_kept _ hrun (by decide)⟩

/-- It enters `A` again, and `A` is removed between `GetOrCreate` and `PushJob`: the enter is never
run. Or `A` is removed behind the snapshot of `TickAll`: `TickAll` comes to it none the less. -/
theorem job_lost :
    (∃ st, run (threadNext ⟨16, 30000, 60000⟩) .empty (leftIdle
        [.packet 0 (.roomEnter (some [65])), .call 4, .removeIdleRooms, .call 4]) = some st ∧
      st.pushed 0 = [.handleEnter 0, .leaveAndAck 0, .handleEnter 0] ∧
      st.executed 0 = [.handleEnter 0, .leaveAndAck 0] ∧ ¬ st.srv.rooms.Live 0 ∧
      ¬ st.Holds 0 ∧ ¬ st.Ticks 0) ∧
    (∃ st, run (threadNext ⟨16, 30000, 60000⟩) .empty (leftIdle
        [.tickAll, .removeIdleRooms]) = some st ∧ st.Ticks 0 ∧ ¬ st.srv.rooms.Live 0) := by
  decide

end

end RealtimeServer
