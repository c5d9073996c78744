import RealtimeServer.Game.Delivery
import RealtimeServer.Game.ReadyStart

/-!
# What a member knows of its room

A client knows of its room what the last `S_ROOM_STATE` said: the state, how many members there are
and how many of them are ready. Every method that changes one of the three ends with
`BroadcastRoomState`, of the room as it is then.

* `shows_job`, `shows_tickEnd`: a job, or the end of a tick, sends every member the room as it is
  behind it, or sends nothing of the kind and leaves the three as they were.
* **`members_know`**: the last `S_ROOM_STATE` that a connected member has got from its room is the
  room's.
-/

namespace RealtimeServer

open Unordered Guarded

variable {cfg : Config} {env : Env} {r : RoomRef} {s : SessionRef} {room room' : GameRoom}
  {w w' w'' : World}

/-! ## What a method shows -/

/-- From `w` to `w'` the last `S_ROOM_STATE` that `s` was sent, if it is a member, is the room's. -/
def Shows (s : SessionRef) (room : GameRoom) (w w' : World) : Prop :=
  ∃ views, Gets s .sRoomState views w w' ∧
    (s ∈ room.members → views.getLast? = some room.stateData)

/-- Nothing of the kind is sent, and nothing changes that it would tell. -/
def Silent (s : SessionRef) (room room' : GameRoom) (w w' : World) : Prop :=
  Gets s .sRoomState [] w w' ∧ room'.members = room.members ∧ room'.stateData = room.stateData

/-- A method that ends with `BroadcastRoomState`. -/
theorem shows_roomState {views : List Bytes} (h : Gets s .sRoomState views w w') (env : Env)
    (room : GameRoom) : Shows s room w (room.broadcastRoomState env w') := by
  refine ⟨_, h.trans (.broadcastRoomState env room w'), fun hmember => ?_⟩
  rw [if_pos hmember, List.getLast?_concat]

theorem Shows.then_none (h : Shows s room w w') (h' : Gets s .sRoomState [] w' w'') :
    Shows s room w w'' := by
  obtain ⟨views, hgets, hlast⟩ := h
  exact ⟨views, hgets.then_none h', hlast⟩

theorem gets_setRoom (w : World) (t : SessionRef) (pointer : Option RoomRef) :
    Gets s .sRoomState [] w (w.setRoom t pointer) :=
  .of_same rfl (World.disconnected_setRoom w t s pointer)

/-- What a session is told when it is let in, and the others of it. -/
theorem gets_joined (text accountId : Bytes) (t : SessionRef) (room : GameRoom) (w : World) :
    Gets s .sRoomState [] w (room.broadcastExcept env (.roomUserEntered accountId) t
      (w.send env t (.roomEnter true text room.name))) := by
  have hanswer : (ServerMessage.roomEnter true text room.name).packetId ≠ .sRoomState := by
    simp [ServerMessage.packetId]
  have hnotice : (ServerMessage.roomUserEntered accountId).packetId ≠ .sRoomState := by
    simp [ServerMessage.packetId]
  exact (Gets.send_other hanswer env t w).none_then (.broadcastExcept_other hnotice env t room _)

theorem shows_handleEnter (h : room.Admits) (t : SessionRef) :
    Shows s (room.handleEnter env r t w).1 w (room.handleEnter env r t w).2 := by
  unfold GameRoom.handleEnter
  rw [if_neg h.1, if_neg (not_le.mpr h.2)]
  exact shows_roomState ((gets_setRoom w t _).none_then (gets_joined _ _ t _ _)) env _

theorem silent_handleEnter (h : ¬ room.Admits) (t : SessionRef) :
    Gets s .sRoomState [] w (room.handleEnter env r t w).2 := by
  have hrefused : ∀ text, Gets s .sRoomState [] w (w.send env t (.roomEnter false text [])) := by
    intro text
    exact Gets.send_other (by simp [ServerMessage.packetId]) env t w
  unfold GameRoom.handleEnter
  by_cases hgame : room.state = .inGame
  · rw [if_pos hgame]
    exact hrefused _
  · rw [if_neg hgame, if_pos (not_lt.mp fun hroom => h ⟨hgame, hroom⟩)]
    exact hrefused _

theorem shows_handleRejoin (t : SessionRef) :
    Shows s (room.handleRejoin env r t w).1 w (room.handleRejoin env r t w).2 :=
  shows_roomState ((gets_setRoom w t _).none_then (gets_joined _ _ t _ _)) env _

theorem shows_handleGameEnd {views : List Bytes} (h : Gets s .sRoomState views w w')
    (winnerId : Bytes) :
    Shows s (room.handleGameEnd env winnerId w').1 w (room.handleGameEnd env winnerId w').2 :=
  shows_roomState (h.then_none (.sendRawBroadcast_other (by decide) env _ _ w')) env _

/-- A leave shows the room to the others, whichever way it ends. -/
theorem shows_handleLeave {t : SessionRef} (h : t ∈ room.members) :
    Shows s (room.handleLeave env t w).1 w (room.handleLeave env t w).2 := by
  have hleft : ∀ (room : GameRoom) accountId, Gets s .sRoomState [] w
      (room.broadcast env (.roomUserLeft accountId) (w.setRoom t none)) := by
    intro room accountId
    have hnotice : (ServerMessage.roomUserLeft accountId).packetId ≠ .sRoomState := by
      simp [ServerMessage.packetId]
    exact (gets_setRoom w t none).none_then (.broadcast_other hnotice env room _)
  unfold GameRoom.handleLeave
  rw [if_neg (not_not.mpr h)]
  by_cases hgame : room.state = .inGame
  · simp only [if_pos hgame]
    cases (room.members.erase t).first with
    | some winner => exact shows_handleGameEnd (hleft _ _) _
    | none => exact shows_roomState (hleft _ _) env _
  · simp only [if_neg hgame]
    exact shows_roomState (hleft _ _) env _

/-- `BroadcastRoomState`, and then `TryStartGame`. -/
theorem shows_tryStartGame (h : Shows s room w w') :
    Shows s (room.tryStartGame env w').1 w (room.tryStartGame env w').2 := by
  unfold GameRoom.tryStartGame
  split
  · exact h
  · split
    · exact h
    · obtain ⟨views, hgets, -⟩ := h
      have hstart : Gets s .sRoomState [] w' (GameRoom.sendRawBroadcast env .sGameStart []
          { room with state := .inGame, readyPlayers := ∅ } w') :=
        .sendRawBroadcast_other (by decide) env [] _ w'
      exact shows_roomState (hgets.then_none hstart) env _

/-- **A job** shows its room to every member, or has nothing to show. -/
theorem shows_job (job : Job) : Shows s (job.run env r room w).1 w (job.run env r room w).2 ∨
    Silent s room (job.run env r room w).1 w (job.run env r room w).2 := by
  cases job with
  | handleEnter t =>
    by_cases h : room.Admits
    · exact Or.inl (shows_handleEnter h t)
    · have hroom : (room.handleEnter env r t w).1 = room := (GameRoom.handleEnter_refuses h t).1
      exact Or.inr ⟨silent_handleEnter h t, congrArg GameRoom.members hroom,
        congrArg GameRoom.stateData hroom⟩
  | handleLeave t =>
    by_cases h : t ∈ room.members
    · exact Or.inl (shows_handleLeave h)
    · have hsame : room.handleLeave env t w = (room, w) := GameRoom.handleLeave_stranger h
      refine Or.inr ?_
      show Silent s room (room.handleLeave env t w).1 w (room.handleLeave env t w).2
      rw [hsame]
      exact ⟨.refl s _ w, rfl, rfl⟩
  | leaveAndAck t =>
    have hack : ∀ w, Gets s .sRoomState [] w (w.send env t (.roomLeave true)) :=
      fun w => .send_other (by decide) env t w
    by_cases h : t ∈ room.members
    · exact Or.inl ((shows_handleLeave h).then_none (hack _))
    · have hsame : room.handleLeave env t w = (room, w) := GameRoom.handleLeave_stranger h
      refine Or.inr ?_
      show Silent s room (room.handleLeave env t w).1 w
        ((room.handleLeave env t w).2.send env t (.roomLeave true))
      rw [hsame]
      exact ⟨hack w, rfl, rfl⟩
  | handleRejoin t => exact Or.inl (shows_handleRejoin t)
  | chat sender message =>
    exact Or.inr ⟨.broadcast_other (by simp [ServerMessage.packetId]) env room w, rfl, rfl⟩
  | handleMove accountId x y =>
    refine Or.inr ⟨.refl s _ w, ?_, ?_⟩
    · show (room.handleMove accountId x y).members = room.members
      unfold GameRoom.handleMove
      split <;> rfl
    · show (room.handleMove accountId x y).stateData = room.stateData
      unfold GameRoom.handleMove
      split <;> rfl
  | handleReady accountId =>
    show Shows s (room.handleReady env accountId w).1 w (room.handleReady env accountId w).2 ∨
      Silent s room (room.handleReady env accountId w).1 w (room.handleReady env accountId w).2
    unfold GameRoom.handleReady
    by_cases hwaiting : room.state ≠ .waiting
    · rw [if_pos hwaiting]
      exact Or.inr ⟨.refl s _ w, rfl, rfl⟩
    · rw [if_neg hwaiting]
      exact Or.inl (shows_tryStartGame (shows_roomState (.refl s _ w) env _))

/-- **The end of a tick** does the same. -/
theorem shows_tickEnd (reconnectWindowMs : Int) :
    Shows s (room.tickEnd env reconnectWindowMs w).1 w (room.tickEnd env reconnectWindowMs w).2 ∨
      Silent s room (room.tickEnd env reconnectWindowMs w).1 w
        (room.tickEnd env reconnectWindowMs w).2 := by
  unfold GameRoom.tickEnd
  by_cases hfinished : room.state = .finished
  · simp only [if_pos hfinished]
    split
    · exact Or.inl (shows_roomState (.refl s _ w) env _)
    · exact Or.inr ⟨.refl s _ w, rfl, rfl⟩
  · simp only [if_neg hfinished]
    unfold GameRoom.broadcastPendingMoves
    split
    · exact Or.inr ⟨.refl s _ w, rfl, rfl⟩
    · have hmoves : ∀ actors, (ServerMessage.moveBroadcast actors).packetId ≠ .sRoomState := by
        simp [ServerMessage.packetId]
      exact Or.inr ⟨.broadcastShared_other (hmoves _) env _ w, rfl, rfl⟩

/-! ## Runs -/

/-- For each room and session, the last `S_ROOM_STATE` the session has got from the room. -/
abbrev Views := RoomRef → SessionRef → Option Bytes

/-- Nobody has got one yet. -/
def noViews : Views := fun _ _ => none

/-- What a step adds to the views. -/
def lastRoomState (srv : Server) (step : Action × Env) (srv' : Server) (view : Views) : Views :=
  fun r s =>
    if step.1.ofRoom = some r then
      (srv.world.received srv'.world s .sRoomState).getLast?.or (view r s)
    else view r s

/-- **The invariant.** -/
def MembersKnow (srv : Server) (view : Views) : Prop :=
  ∀ r s, s ∈ (srv.room r).members → ¬ srv.Down s → view r s = some (srv.room r).stateData

section

variable {srv srv' : Server} {a : Action}

theorem stateData_of_inside (h : room'.inside = room.inside) :
    room'.members = room.members ∧ room'.stateData = room.stateData :=
  ⟨(congrArg GameRoom.members h :), (congrArg GameRoom.stateData h :)⟩

/-- A step of another room, or of none. -/
theorem room_elsewhere (h : next cfg srv (a, env) = some srv') (hroom : a.ofRoom ≠ some r) :
    (srv'.room r).members = (srv.room r).members ∧
      (srv'.room r).stateData = (srv.room r).stateData := by
  cases rooms_next h r with
  | queued inside kept queue idle waiting => exact stateData_of_inside inside
  | ran job jobs action queue room => exact absurd (action ▸ rfl) hroom
  | swept action room => exact absurd (action ▸ rfl) hroom

/-- A step of a room shows it to every member, or is silent. -/
theorem shows_next (h : next cfg srv (a, env) = some srv') (hroom : a.ofRoom = some r)
    (hlen : r < srv.rooms.heap.length) (s : SessionRef) :
    Shows s (srv'.room r) srv.world srv'.world ∨
      Silent s (srv.room r) (srv'.room r) srv.world srv'.world := by
  obtain ⟨srv₁, hacts, rfl⟩ := next_acts h
  show Shows s (srv₁.room r) srv.world srv₁.world ∨
    Silent s (srv.room r) (srv₁.room r) srv.world srv₁.world
  cases hacts with
  | @job _ job jobs queue =>
    obtain rfl := Option.some.inj hroom
    rw [Server.runJob, room_inRoom_self hlen]
    exact shows_job job
  | tickEnd =>
    obtain rfl := Option.some.inj hroom
    rw [Server.tickEnd, room_inRoom_self hlen]
    exact shows_tickEnd cfg.reconnectWindowMs
  | accept token => exact absurd hroom (by simp [Action.ofRoom])
  | packet packet accepted => exact absurd hroom (by simp [Action.ofRoom])
  | authCallback valid accountId pending => exact absurd hroom (by simp [Action.ofRoom])
  | disconnect accepted => exact absurd hroom (by simp [Action.ofRoom])
  | removeIdleRooms => exact absurd hroom (by simp [Action.ofRoom])

theorem membersKnow_next {view : Views} (hb : Born srv) (hi : MembersKnow srv view)
    (hnext : next cfg srv (a, env) = some srv') :
    MembersKnow srv' (lastRoomState srv (a, env) srv' view) := by
  intro r s hmember hup
  show lastRoomState srv (a, env) srv' view r s = some (srv'.room r).stateData
  unfold lastRoomState
  by_cases hroom : a.ofRoom = some r
  · rw [if_pos hroom]
    have hlen : r < srv.rooms.heap.length := (lt_of_holds hb ((members_next hnext).mp hmember)).2
    have hconnected : (srv'.world.session s).disconnected = false := Bool.eq_false_iff.mpr hup
    rcases shows_next hnext hroom hlen s with
      ⟨views, hgets, hlast⟩ | ⟨hgets, hmembers, hsame⟩
    · rw [hgets.received hconnected, hlast hmember]
      rfl
    · rw [hgets.received hconnected, hsame]
      exact hi r s (hmembers ▸ hmember) fun hdown => hup (hgets.down hdown)
  · rw [if_neg hroom]
    obtain ⟨hmembers, hsame⟩ := room_elsewhere hnext hroom
    have hbefore : s ∈ (srv.room r).members := hmembers ▸ hmember
    have heffect := sessions_next hnext (hb.members r s hbefore)
    rw [hsame]
    exact hi r s hbefore fun hdown => hup (heffect.down hdown)

/-- **No member has a stale view**: in every run of the server, in every state, the last
`S_ROOM_STATE` that a connected member of a room has got from it says what state the room is in, how
many members it has and how many of them are ready. -/
theorem members_know {steps : List (Action × Env)} {view : Views}
    (hrun : run (watched (next cfg) lastRoomState) (.empty, noViews) steps = some (srv, view))
    (hmember : s ∈ (srv.room r).members) (hup : ¬ srv.Down s) :
    view r s = some ((srv.room r).state.toUInt8 ::
      (u16Bytes (UInt16.ofNat (srv.room r).members.size) ++
        u16Bytes (UInt16.ofNat (srv.room r).readyPlayers.card))) := by
  have hend : Born srv ∧ MembersKnow srv view := by
    refine watched_preserves (I := fun srv view => Born srv ∧ MembersKnow srv view) ?_
      ⟨born_empty, ?_⟩ hrun
    · rintro srv ⟨a, env⟩ srv' view ⟨hb, hi⟩ hnext
      exact ⟨born_next hb hnext, membersKnow_next hb hi hnext⟩
    · intro r s hmember
      exact absurd hmember not_mem_members_empty
  exact hend.2 r s hmember hup

/-- Two players start a game, and one drops out of it. -/
def playedOn : List (Action × Env) :=
  quietly (lobby 2 ++
    [.packet 0 .ready, .packet 1 .ready, .job 0, .job 0, .disconnect 1, .job 0, .tickEnd 0])

/-- The other one knows that the game is over, and that it is alone. -/
theorem members_know_playedOn :
    ∃ srv view, run (watched (next ⟨16, 30000, 60000⟩) lastRoomState) (.empty, noViews)
      playedOn = some (srv, view) ∧ view 0 0 = some [2, 1, 0, 0, 0] := by
  obtain ⟨srv, hrun, hmember, hup, hdata⟩ :
      ∃ srv, run (next ⟨16, 30000, 60000⟩) .empty playedOn = some srv ∧
        0 ∈ (srv.room 0).members ∧ ¬ srv.Down 0 ∧
        (srv.room 0).stateData = [2, 1, 0, 0, 0] := by decide +kernel
  obtain ⟨view, hwatched⟩ := watched_of_run noViews hrun
  exact ⟨srv, view, hwatched, (members_know hwatched hmember hup).trans (congrArg some hdata)⟩

end

end RealtimeServer
