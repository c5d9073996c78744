import RealtimeServer.Game.Announcements
import RealtimeServer.Game.RoomRuns

/-!
# The phases of a room

`m_state` goes round: `WAITING`, `IN_GAME`, `FINISHED`. What each phase promises is one invariant
(`Phased`), since the promises need one another: a game ends with the first leave because it has two
members, and no mark is left over from before a game because nothing is marked in one.

* `phase_next`: which entries of a room's history change the phase, and from which to which.
* **`phases_of_run`**: in every history a game has two members or more, marks are set in `WAITING`
  only, and a result names a member.
* `phased_of_server`: the rooms of the server are such rooms.
-/

namespace RealtimeServer

open Unordered Guarded

variable {this : RoomRef} {reconnectWindowMs : Int} {room room' : GameRoom} {step : RoomStep}

/-- What an entry of the history does to `m_state`. -/
inductive PhaseStep (room : GameRoom) (step : RoomStep) (room' : GameRoom) : Prop
  | stays (state : room'.state = room.state)
  /-- A `HandleReady` starts the game. -/
  | starts (accountId : Bytes) (op : step.op = .job (.handleReady accountId))
      (before : room.state = .waiting) (after : room'.state = .inGame)
  /-- A `HandleLeave` of a member ends it. -/
  | ends (job : Job) (s : SessionRef) (op : step.op = .job job) (leaves : job.Leaves s)
      (member : s ∈ room.members) (before : room.state = .inGame) (after : room'.state = .finished)
  /-- A `Tick` finds it over for long enough. -/
  | resets (op : step.op = .tickEnd) (late : step.env.later - room.finishedAt > 5000)
      (before : room.state = .finished) (after : room'.state = .waiting)

theorem phase_readied {accountId : Bytes} (hop : step.op = .job (.handleReady accountId)) :
    PhaseStep room step (room.readied accountId) := by
  by_cases hwaiting : room.state = .waiting
  · by_cases hstarts : (room.toggleReady accountId).Starts
    · refine .starts accountId hop hwaiting ?_
      simp [GameRoom.readied, hwaiting, hstarts]
    · refine .stays ?_
      simp [GameRoom.readied, hwaiting, hstarts]
  · refine .stays ?_
    simp [GameRoom.readied, hwaiting]

/-- **One entry and the phase.** -/
theorem phase_next (hnext : roomNext this reconnectWindowMs room step = some room') :
    PhaseStep room step room' := by
  cases hop : step.op with
  | tickEnd =>
    rw [roomNext_tickEnd hop hnext]
    by_cases hreset : room.state = .finished ∧ step.env.later - room.finishedAt > 5000
    · exact .resets hop hreset.2 hreset.1 (if_pos hreset)
    · exact .stays (if_neg hreset)
  | job job =>
    rw [roomNext_job hop hnext]
    cases @Job.does_run step.env this room step.world job with
    | enters s hjob hadmits hroom =>
      rw [hroom]
      exact .stays rfl
    | leaves s hjob hmem hroom =>
      rw [hroom]
      by_cases hends : room.state = .inGame ∧ (room.members.erase s).size ≠ 0
      · exact .ends job s hop hjob hmem hends.1 (if_pos hends)
      · exact .stays (if_neg hends)
    | rejoins s hjob hroom =>
      rw [hroom]
      exact .stays rfl
    | readies accountId hjob hroom =>
      rw [hroom]
      exact phase_readied (hjob ▸ hop)
    | stays moves htakes hleaves hroom =>
      rw [hroom]
      exact .stays rfl

/-! ## What the phases promise -/

/-- **The invariant**: a game has two members or more, and only a waiting room has marks. -/
structure GameRoom.Phased (room : GameRoom) : Prop where
  paired : room.Paired
  unmarked : room.state ≠ .waiting → room.readyPlayers = ∅

theorem phased_new {name : Bytes} {maxPlayers : Int} : (GameRoom.new name maxPlayers).Phased :=
  ⟨paired_new, fun _ => rfl⟩

theorem unmarked_left {env : Env} {s : SessionRef} {accountId : Bytes} (h : room.Phased)
    (hplaying : (room.left env s accountId).state ≠ .waiting) :
    (room.left env s accountId).readyPlayers = ∅ := by
  have hwas : room.state ≠ .waiting := by
    intro hwaiting
    refine hplaying ?_
    simp [GameRoom.left, hwaiting]
  show room.readyPlayers.erase accountId = ∅
  rw [h.unmarked hwas, Finset.erase_empty]

theorem unmarked_readied {accountId : Bytes} (h : room.Phased)
    (hplaying : (room.readied accountId).state ≠ .waiting) :
    (room.readied accountId).readyPlayers = ∅ := by
  by_cases hwaiting : room.state = .waiting
  · by_cases hstarts : (room.toggleReady accountId).Starts
    · simp [GameRoom.readied, hwaiting, hstarts]
    · simp [GameRoom.readied, hwaiting, hstarts] at hplaying
  · have hsame : room.readied accountId = room := if_pos hwaiting
    rw [hsame]
    exact h.unmarked hwaiting

theorem phased_next (h : room.Phased)
    (hnext : roomNext this reconnectWindowMs room step = some room') : room'.Phased := by
  refine ⟨paired_next h.paired hnext, ?_⟩
  cases hop : step.op with
  | tickEnd =>
    rw [roomNext_tickEnd hop hnext]
    intro hplaying
    refine h.unmarked fun hwaiting => hplaying ?_
    simp [GameRoom.swept, hwaiting]
  | job job =>
    rw [roomNext_job hop hnext]
    cases @Job.does_run step.env this room step.world job with
    | enters s hjob hadmits hroom =>
      rw [hroom]
      exact h.unmarked
    | leaves s hjob hmem hroom =>
      rw [hroom]
      exact unmarked_left h
    | rejoins s hjob hroom =>
      rw [hroom]
      exact h.unmarked
    | readies accountId hjob hroom =>
      rw [hroom]
      exact unmarked_readied h
    | stays moves htakes hleaves hroom =>
      rw [hroom]
      exact h.unmarked

theorem phased_of_run {name : Bytes} {maxPlayers : Int} {steps : List RoomStep}
    (hrun : run (roomNext this reconnectWindowMs) (.new name maxPlayers) steps = some room) :
    room.Phased :=
  run_preserves (fun _ _ _ h hnext => phased_next h hnext) phased_new hrun

/-- The world behind one entry. -/
def worldNext (this : RoomRef) (reconnectWindowMs : Int) (room : GameRoom) (step : RoomStep) :
    World :=
  match step.op with
  | .job job => (job.run step.env this room step.world).2
  | .tickEnd => (room.tickEnd step.env reconnectWindowMs step.world).2

/-- The winner of a result that an entry sends is a member behind it. -/
theorem winner_next {s : SessionRef} {payload : Bytes}
    (hnext : roomNext this reconnectWindowMs room step = some room')
    (hsent : (s, frame PacketID.sGameResult.toUInt16 payload) ∈
      (worldNext this reconnectWindowMs room step).sent.drop step.world.sent.length) :
    ∃ winner ∈ room'.members, payload = gameResult (step.world.session winner).accountId := by
  unfold worldNext at hsent
  cases hop : step.op with
  | tickEnd =>
    rw [hop] at hsent
    have htick := @announces_tickEnd step.env room step.world step.world room'.members
      reconnectWindowMs
    exact (htick.allowed hsent).result rfl
  | job job =>
    rw [hop] at hsent
    rw [roomNext_job hop hnext]
    exact ((announces_run job).allowed hsent).result rfl

/-- **The phases of a room**: in every state of a room's history and for every entry that may come
next, the phase only changes as `PhaseStep` says; a game has two members or more, and a leave from
it does not leave the room empty; only a waiting room has ready marks; and the winner a
`S_GAME_RESULT` declares is a member. -/
theorem phases_of_run (this : RoomRef) (reconnectWindowMs : Int) (name : Bytes) (maxPlayers : Int)
    {steps : List RoomStep}
    (hrun : run (roomNext this reconnectWindowMs) (.new name maxPlayers) steps = some room)
    (hnext : roomNext this reconnectWindowMs room step = some room') :
    PhaseStep room step room' ∧
      (room.state = .inGame → 2 ≤ room.members.size ∧
        ∀ job s, step.op = .job job → job.Leaves s → s ∈ room.members →
          room'.members.size ≠ 0) ∧
      (room.state ≠ .waiting → room.readyPlayers = ∅) ∧
      ∀ s payload, (s, frame PacketID.sGameResult.toUInt16 payload) ∈
          (worldNext this reconnectWindowMs room step).sent.drop step.world.sent.length →
        ∃ winner ∈ room'.members,
          payload = gameResult (step.world.session winner).accountId := by
  have hphased := phased_of_run hrun
  refine ⟨phase_next hnext, fun hgame => ⟨hphased.paired hgame, ?_⟩, hphased.unmarked,
    fun s payload => winner_next hnext⟩
  intro job s hop hleaves hmem
  rw [roomNext_job hop hnext, (Job.run_spec job).1, Job.outcome_leave hleaves, if_pos hmem]
  show (room.members.erase s).size ≠ 0
  have htwo := hphased.paired hgame
  have hsize := IterSet.size_erase_of_mem hmem
  omega

/-- The first player of a game drops out of it: the other one is declared the winner. -/
theorem phases_droppedOut :
    ∃ room room', run (roomNext 0 30000) (.new [65] 2) (droppedOut.take 4) = some room ∧
      roomNext 0 30000 room (quietStep 1000 (.job (.handleLeave 0))) = some room' ∧
      PhaseStep room (quietStep 1000 (.job (.handleLeave 0))) room' ∧
      2 ≤ room.members.size ∧ room'.members.size ≠ 0 ∧ room.readyPlayers = ∅ ∧
      ∃ winner ∈ room'.members, gameResult [98] = gameResult (fourSessions.session winner).accountId
    := by
  obtain ⟨room, hrun, hgame, hmem, hsent⟩ :
      ∃ room, run (roomNext 0 30000) (.new [65] 2) (droppedOut.take 4) = some room ∧
        room.state = .inGame ∧ 0 ∈ room.members ∧
        (1, frame PacketID.sGameResult.toUInt16 (gameResult [98])) ∈
          (worldNext 0 30000 room (quietStep 1000 (.job (.handleLeave 0)))).sent.drop 0 := by
    decide
  obtain ⟨hphase, hpaired, hunmarked, hwinner⟩ := phases_of_run 0 30000 [65] 2 hrun
    (show roomNext 0 30000 room (quietStep 1000 (.job (.handleLeave 0))) = some _ from rfl)
  exact ⟨room, _, hrun, rfl, hphase, (hpaired hgame).1, (hpaired hgame).2 _ 0 rfl (Or.inl rfl) hmem,
    hunmarked (by rw [hgame]; decide), hwinner 1 _ hsent⟩

/-- The rooms of the server are rooms of such a history. -/
theorem phased_of_server {cfg : Config} {srv : Server} {steps : List (Action × Env)}
    (hrun : run (next cfg) .empty steps = some srv) (r : RoomRef) : (srv.room r).Phased := by
  by_cases hr : r < srv.rooms.heap.length
  · obtain ⟨name, history, hhistory⟩ := history_of_run hrun hr
    have h := phased_of_run hhistory
    exact ⟨h.paired, h.unmarked⟩
  · rw [show srv.room r = .new [] 0 from RoomManager.room_of_le (not_lt.mp hr)]
    exact phased_new

end RealtimeServer
