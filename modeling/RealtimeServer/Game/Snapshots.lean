import RealtimeServer.Game.Phases
import RealtimeServer.Game.ReadyStart

/-!
# What a snapshot of moves tells

`HandleMove` notes a position while a game runs, and a tick broadcasts what has been noted and
forgets it. `HandleGameEnd` does not forget it, `HandleMove` does not ask whose account it is, and
`Tick` does not ask for the state but to skip `FINISHED`.

* `noteMoves`: the moves of the present game since the last snapshot, as an observer keeps them.
* `movesNoted_next`: in the steps that meet `MovesKept` the pending moves of a running game are the
  ones noted, every one of a member's account, and there are none outside a game.
* **`snapshots_of_game`**: so in the runs of such steps every `S_MOVE_BROADCAST` is sent in a game
  and has one entry for each member's account that has moved. Without it, the positions of a game
  that is over are sent to a waiting room (`snapshot_leftover`), and the ones of a player who has
  left are sent in the next game (`snapshot_departed`).
-/

namespace RealtimeServer

open Unordered Guarded

/-- The account a job moves, and where to. -/
def Job.move : Job → Option (Bytes × UInt32 × UInt32)
  | handleMove accountId x y => some (accountId, x, y)
  | _ => none

namespace GameRoom

/-- The actors of the next snapshot. -/
def actors (env : Env) (room : GameRoom) : List MovedActor :=
  (env.keyOrder.apply room.pendingMoves.keys).filterMap fun accountId =>
    (room.pendingMoves.lookup accountId).map fun pos => ⟨accountId, pos.1, pos.2⟩

variable {env : Env} {room : GameRoom}

theorem mem_actors {actor : MovedActor} :
    actor ∈ room.actors env ↔
      room.pendingMoves.lookup actor.accountId = some (actor.x, actor.y) := by
  unfold actors
  rw [List.mem_filterMap]
  constructor
  · rintro ⟨accountId, -, hactor⟩
    obtain ⟨pos, hpos, rfl⟩ := Option.map_eq_some_iff.mp hactor
    exact hpos
  · intro hpos
    refine ⟨actor.accountId, (Reorder.mem_apply _).mpr ?_, ?_⟩
    · rw [← AList.mem_keys, ← AList.lookup_isSome, hpos]
      rfl
    · rw [hpos]
      rfl

/-- One entry an account. -/
theorem nodup_actors : ((room.actors env).map MovedActor.accountId).Nodup := by
  have hkeys : (env.keyOrder.apply room.pendingMoves.keys).Nodup :=
    (env.keyOrder.perm _).nodup_iff.mpr room.pendingMoves.keys_nodup
  unfold actors List.Nodup
  rw [List.pairwise_map, List.pairwise_filterMap]
  refine hkeys.imp fun {k l} hne actor hactor actor' hactor' => ?_
  obtain ⟨pos, -, rfl⟩ := Option.map_eq_some_iff.mp hactor
  obtain ⟨pos', -, rfl⟩ := Option.map_eq_some_iff.mp hactor'
  exact hne

end GameRoom

/-! ## What is sent -/

section

variable {P : PacketID → Bytes → Prop} {env : Env} {this : RoomRef} {room : GameRoom} {w w' : World}

/-- The packets that are no `S_MOVE_BROADCAST`. -/
abbrev Motionless (P : PacketID → Bytes → Prop) : Prop :=
  ∀ id payload, id ≠ .sMoveBroadcast → P id payload

namespace Motionless

theorem roomState (hP : Motionless P) (w : World) : Emits P w (room.broadcastRoomState env w) :=
  Emits.broadcastRoomState w fun _ => hP _ _ (by decide)

theorem joined (hP : Motionless P) (s : SessionRef) (text accountId : Bytes) (w : World) :
    Emits P w (room.broadcastRoomState env (room.broadcastExcept env (.roomUserEntered accountId) s
      ((w.setRoom s (some this)).send env s (.roomEnter true text room.name)))) := by
  have hmoved : Emits P w (w.setRoom s (some this)) := .of_sent_eq rfl
  refine ((hmoved.trans (.send env s _ (hP _ _ ?_))).trans
    (.broadcastExcept _ (hP _ _ ?_))).trans (hP.roomState _)
  · simp [ServerMessage.packetId]
  · simp [ServerMessage.packetId]

theorem handleEnter (hP : Motionless P) (s : SessionRef) :
    Emits P w (room.handleEnter env this s w).2 := by
  have hrefused : ∀ text, Emits P w (w.send env s (.roomEnter false text [])) := by
    intro text
    exact .send env s w (hP _ _ (by simp [ServerMessage.packetId]))
  unfold GameRoom.handleEnter
  split
  · exact hrefused _
  · split
    · exact hrefused _
    · exact hP.joined s _ _ w

theorem handleGameEnd (hP : Motionless P) (winnerId : Bytes) :
    Emits P w' (room.handleGameEnd env winnerId w').2 :=
  (Emits.sendRawBroadcast w' (hP _ _ (by decide))).trans (hP.roomState _)

theorem handleLeave (hP : Motionless P) (s : SessionRef) :
    Emits P w (room.handleLeave env s w).2 := by
  have hleft : ∀ (room : GameRoom) accountId,
      Emits P w (room.broadcast env (.roomUserLeft accountId) (w.setRoom s none)) := by
    intro room accountId
    have hmoved : Emits P w (w.setRoom s none) := .of_sent_eq rfl
    exact hmoved.trans (.broadcast _ (hP _ _ (by simp [ServerMessage.packetId])))
  unfold GameRoom.handleLeave
  split
  · exact .refl P w
  · by_cases hgame : room.state = .inGame
    · simp only [if_pos hgame]
      cases (room.members.erase s).first with
      | some winner => exact (hleft _ _).trans (hP.handleGameEnd _)
      | none => exact (hleft _ _).trans (hP.roomState _)
    · simp only [if_neg hgame]
      exact (hleft _ _).trans (hP.roomState _)

theorem handleReady (hP : Motionless P) (accountId : Bytes) :
    Emits P w (room.handleReady env accountId w).2 := by
  have hstart : ∀ (room : GameRoom) w', Emits P w' (room.tryStartGame env w').2 := by
    intro room w'
    unfold GameRoom.tryStartGame
    split
    · exact .refl P w'
    · split
      · exact .refl P w'
      · exact (Emits.sendRawBroadcast w' (hP _ _ (by decide))).trans (hP.roomState _)
  unfold GameRoom.handleReady
  split
  · exact .refl P w
  · exact (hP.roomState w).trans (hstart _ _)

/-- No answer to a packet is a snapshot. -/
theorem answers (hP : Motionless P) (id : PacketID) (payload : Bytes) (h : id.Answers) :
    P id payload := by
  refine hP id payload ?_
  rintro rfl
  exact h

/-- **No job** sends a snapshot. -/
theorem run (hP : Motionless P) (job : Job) : Emits P w (job.run env this room w).2 := by
  cases job with
  | handleEnter s => exact hP.handleEnter s
  | handleLeave s => exact hP.handleLeave s
  | leaveAndAck s =>
    exact (hP.handleLeave s).trans (.send env s _ (hP _ _ (by simp [ServerMessage.packetId])))
  | handleRejoin s => exact hP.joined s _ _ w
  | chat sender message => exact .broadcast w (hP _ _ (by simp [ServerMessage.packetId]))
  | handleMove accountId x y => exact .refl P w
  | handleReady accountId => exact hP.handleReady accountId

end Motionless

/-- **The end of a tick** sends the pending moves, if the room is not `FINISHED`. -/
theorem snapshot_tickEnd (reconnectWindowMs : Int) :
    Emits (fun id payload => id = .sMoveBroadcast → room.state ≠ .finished ∧
        room.pendingMoves.keys ≠ [] ∧
        payload = (ServerMessage.moveBroadcast (room.actors env)).serialize)
      w (room.tickEnd env reconnectWindowMs w).2 := by
  unfold GameRoom.tickEnd
  by_cases hfinished : room.state = .finished
  · simp only [if_pos hfinished]
    split
    · exact .broadcastRoomState w fun _ hid => absurd hid (by decide)
    · exact .refl _ w
  · simp only [if_neg hfinished]
    unfold GameRoom.broadcastPendingMoves
    by_cases hnone : room.pendingMoves.keys = []
    · rw [if_pos hnone]
      exact .refl _ w
    · rw [if_neg hnone]
      exact .broadcastShared w fun _ => ⟨hfinished, hnone, rfl⟩

end

/-! ## The pending moves of a room -/

/-- What a job does to the pending moves. -/
inductive MoveEffect (env : Env) (room : GameRoom) (w : World) (job : Job) (room' : GameRoom) : Prop
  | notes (accountId : Bytes) (x y : UInt32) (job : job = .handleMove accountId x y)
      (game : room.state = .inGame)
      (room : room' = { room with pendingMoves := room.pendingMoves.insert accountId (x, y) })
  | leaves (s : SessionRef) (job : job.Leaves s) (member : s ∈ room.members)
      (room : room' = room.left env s (w.session s).accountId)
  | keeps (moves : room'.pendingMoves = room.pendingMoves)
      (state : room'.state = room.state ∨ (room.state = .waiting ∧ room'.state = .inGame))
      (idle : room.state = .inGame → job.move = none)
      (stay : ∀ s ∈ room.members, s ∈ room'.members)

theorem moveEffect_leave {env : Env} {room : GameRoom} {w : World} {job : Job} {s : SessionRef}
    (h : job.Leaves s) : MoveEffect env room w job (job.outcome env room w) := by
  rw [Job.outcome_leave h]
  by_cases hmem : s ∈ room.members
  · rw [if_pos hmem]
    exact .leaves s h hmem rfl
  · rw [if_neg hmem]
    refine .keeps rfl (Or.inl rfl) (fun _ => ?_) fun _ ht => ht
    rcases h with rfl | rfl <;> rfl

theorem state_readied {room : GameRoom} {accountId : Bytes} :
    (room.readied accountId).state = room.state ∨
      (room.state = .waiting ∧ (room.readied accountId).state = .inGame) := by
  unfold GameRoom.readied
  by_cases hwaiting : room.state = .waiting
  · rw [if_neg (not_not.mpr hwaiting)]
    split
    · exact Or.inr ⟨hwaiting, rfl⟩
    · exact Or.inl (GameRoom.state_toggleReady room accountId)
  · rw [if_pos hwaiting]
    exact Or.inl rfl

/-- **One job and the pending moves.** -/
theorem moveEffect_run {env : Env} {this : RoomRef} {room : GameRoom} {w : World} (job : Job) :
    MoveEffect env room w job (job.run env this room w).1 := by
  rw [(Job.run_spec job).1]
  cases job with
  | handleEnter s =>
    show MoveEffect env room w _ (if room.Admits then room.entered env s else room)
    split
    · exact .keeps rfl (Or.inl rfl) (fun _ => rfl) fun t ht => IterSet.mem_insert.mpr (Or.inr ht)
    · exact .keeps rfl (Or.inl rfl) (fun _ => rfl) fun _ ht => ht
  | handleLeave s => exact moveEffect_leave (Or.inl rfl)
  | leaveAndAck s => exact moveEffect_leave (Or.inr rfl)
  | handleRejoin s =>
    exact .keeps rfl (Or.inl rfl) (fun _ => rfl) fun t ht => IterSet.mem_insert.mpr (Or.inr ht)
  | chat sender message => exact .keeps rfl (Or.inl rfl) (fun _ => rfl) fun _ ht => ht
  | handleMove accountId x y =>
    show MoveEffect env room w _ (room.handleMove accountId x y)
    unfold GameRoom.handleMove
    by_cases hgame : room.state = .inGame
    · rw [if_neg (not_not.mpr hgame)]
      exact .notes accountId x y rfl hgame rfl
    · rw [if_pos hgame]
      exact .keeps rfl (Or.inl rfl) (fun h => absurd h hgame) fun _ ht => ht
  | handleReady accountId =>
    refine .keeps (GameRoom.pendingMoves_readied _ _) ?_ (fun _ => rfl) fun s hs => ?_
    · exact state_readied
    · show s ∈ (room.readied accountId).members
      rwa [GameRoom.members_readied]

/-! ## The moves of the present game -/

/-- For each room, where the accounts have moved to in the present game since the last snapshot. -/
abbrev Moves := RoomRef → Bytes → Option (UInt32 × UInt32)

/-- Nobody has moved yet. -/
def noMoves : Moves := fun _ _ => none

/-- The step is the end of a tick of `r` that sends a snapshot. -/
def SendsSnapshot (srv : Server) (a : Action) (r : RoomRef) : Prop :=
  a = .tickEnd r ∧ (srv.room r).state ≠ .finished ∧ (srv.room r).pendingMoves.keys ≠ []

instance (srv : Server) (a : Action) (r : RoomRef) : Decidable (SendsSnapshot srv a r) := by
  unfold SendsSnapshot; infer_instance

/-- What a step adds to the moves, and what it ends. -/
def noteMoves (srv : Server) (step : Action × Env) (srv' : Server) (moves : Moves) : Moves :=
  fun r =>
    if (srv.room r).state ≠ .inGame ∧ (srv'.room r).state = .inGame then fun _ => none
    else if SendsSnapshot srv step.1 r then fun _ => none
    else
      match (srv.running step.1 r).bind Job.move with
      | some (accountId, pos) =>
        if (srv.room r).state = .inGame then Function.update (moves r) accountId (some pos)
        else moves r
      | none => moves r

/-- A member leaves a running game only where no move of another account is pending. -/
def LeavesNoMoves (srv : Server) (a : Action) : Prop :=
  ∀ r < srv.rooms.heap.length, ∀ s ∈ (srv.room r).members.elems, srv.Leaving a r s →
    (srv.room r).state = .inGame →
    ∀ accountId ∈ (srv.room r).pendingMoves.keys, accountId = srv.account s

instance (srv : Server) (a : Action) : Decidable (LeavesNoMoves srv a) := by
  unfold LeavesNoMoves; infer_instance

/-- A move that is made in a running game is made for an account a member bears. -/
def MovesMember (srv : Server) (a : Action) : Prop :=
  ∀ r < srv.rooms.heap.length, ∀ move ∈ (srv.running a r).bind Job.move,
    (srv.room r).state = .inGame → Borne srv r move.1

instance (srv : Server) (a : Action) : Decidable (MovesMember srv a) := by
  unfold MovesMember; infer_instance

/-- A login that gives a member with a pending move another account leaves another member with the
one that moved. -/
def LoginKeepsMoves (srv : Server) (a : Action) : Prop :=
  ∀ login ∈ srv.loggingIn a, login.2 ≠ srv.account login.1 → ∀ r < srv.rooms.heap.length,
    login.1 ∈ (srv.room r).members → srv.account login.1 ∈ (srv.room r).pendingMoves →
    ∃ s ∈ (srv.room r).members.elems, s ≠ login.1 ∧ srv.account s = srv.account login.1

instance (srv : Server) (a : Action) : Decidable (LoginKeepsMoves srv a) := by
  unfold LoginKeepsMoves; infer_instance

/-- The step leaves no pending move without its game and its member. -/
def MovesKept (srv : Server) (step : Action × Env) : Prop :=
  LeavesNoMoves srv step.1 ∧ MovesMember srv step.1 ∧ LoginKeepsMoves srv step.1

instance (srv : Server) (step : Action × Env) : Decidable (MovesKept srv step) := by
  unfold MovesKept; infer_instance

/-- **The invariant** of a room: its pending moves are those of the present game since the last
snapshot. -/
structure MovesNoted (srv : Server) (r : RoomRef) (noted : Bytes → Option (UInt32 × UInt32)) :
    Prop where
  game : (srv.room r).state = .inGame →
    ∀ accountId, (srv.room r).pendingMoves.lookup accountId = noted accountId
  outside : (srv.room r).state ≠ .inGame → (srv.room r).pendingMoves = ∅
  borne : ∀ accountId ∈ (srv.room r).pendingMoves, Borne srv r accountId

section

variable {cfg : Config} {srv srv' : Server} {a : Action} {env : Env} {r : RoomRef} {moves : Moves}

/-- Outside a game nothing is noted, and nothing pending. -/
theorem MovesNoted.of_outside {noted : Bytes → Option (UInt32 × UInt32)}
    (hstate : (srv.room r).state ≠ .inGame) (hmoves : (srv.room r).pendingMoves = ∅) :
    MovesNoted srv r noted := by
  refine ⟨fun hgame => absurd hgame hstate, fun _ => hmoves, fun accountId hmove => ?_⟩
  rw [hmoves] at hmove
  exact absurd hmove (AList.notMem_empty accountId)

/-- Nobody has moved. -/
theorem MovesNoted.of_none (hmoves : (srv.room r).pendingMoves = ∅) :
    MovesNoted srv r fun _ => none := by
  refine ⟨fun _ accountId => ?_, fun _ => hmoves, fun accountId hmove => ?_⟩
  · rw [hmoves]
    rfl
  · rw [hmoves] at hmove
    exact absurd hmove (AList.notMem_empty accountId)

theorem movesNoted_empty : MovesNoted .empty r (noMoves r) := by
  refine .of_none ?_
  rw [room_empty]
  rfl

/-- The room goes on, and nobody moves in it. -/
theorem noteMoves_still (hstate : (srv'.room r).state = .inGame → (srv.room r).state = .inGame)
    (hsnapshot : ¬ SendsSnapshot srv a r)
    (hidle : (srv.running a r).bind Job.move = none) :
    noteMoves srv (a, env) srv' moves r = moves r := by
  unfold noteMoves
  rw [if_neg fun h => h.1 (hstate h.2), if_neg hsnapshot, hidle]

/-- A login takes no bearer of a pending move away, and no other step does where all stay. -/
theorem borne_move (hb : Born srv) (hi : MovesNoted srv r (moves r)) (hc : LoginKeepsMoves srv a)
    (h : next cfg srv (a, env) = some srv')
    (hstay : ∀ s ∈ (srv.room r).members, s ∈ (srv'.room r).members) {accountId : Bytes}
    (hmove : accountId ∈ (srv.room r).pendingMoves) : Borne srv' r accountId := by
  refine borne_next hb h hstay (fun login hlogs hchange hmem haccount => ?_)
    (hi.borne accountId hmove)
  rw [← haccount] at hmove ⊢
  exact hc login hlogs hchange r (RoomManager.lt_of_member hmem) hmem hmove

/-- Where nothing happens to the room, and where jobs are queued in it. -/
theorem movesNoted_queued (hb : Born srv) (hi : MovesNoted srv r (moves r))
    (hc : LoginKeepsMoves srv a) (h : next cfg srv (a, env) = some srv')
    (hinside : (srv'.room r).inside = (srv.room r).inside) (hidle : srv.running a r = none) :
    MovesNoted srv' r (noteMoves srv (a, env) srv' moves r) := by
  have hstate : (srv'.room r).state = (srv.room r).state := (congrArg GameRoom.state hinside :)
  have hmoves : (srv'.room r).pendingMoves = (srv.room r).pendingMoves :=
    (congrArg GameRoom.pendingMoves hinside :)
  have hmembers : (srv'.room r).members = (srv.room r).members :=
    (congrArg GameRoom.members hinside :)
  have hsnapshot : ¬ SendsSnapshot srv a r := by
    rintro ⟨rfl, hfinished, hpending⟩
    refine hpending (Map.keys_eq_nil.mpr ?_)
    by_cases hlen : r < srv.rooms.heap.length
    · rw [← hmoves, room_tickEnd h hlen]
      exact if_neg hfinished
    · rw [show srv.room r = .new [] 0 from RoomManager.room_of_le (not_lt.mp hlen)]
      rfl
  rw [noteMoves_still (fun hgame => hstate ▸ hgame) hsnapshot (by rw [hidle]; rfl)]
  constructor
  · intro hgame accountId
    rw [hmoves]
    exact hi.game (hstate ▸ hgame) accountId
  · intro houtside
    rw [hmoves]
    exact hi.outside (hstate ▸ houtside)
  · intro accountId hmove
    rw [hmoves] at hmove
    exact borne_move hb hi hc h (fun s hs => hmembers ▸ hs) hmove

/-- Behind its jobs a tick forgets the moves it has sent. -/
theorem movesNoted_swept (hi : MovesNoted srv r (moves r))
    (hroom : srv'.room r = (srv.room r).swept env cfg.reconnectWindowMs) :
    MovesNoted srv' r (noteMoves srv (.tickEnd r, env) srv' moves r) := by
  by_cases hgame : (srv.room r).state = .inGame
  · have hstate : (srv'.room r).state = .inGame := by
      rw [hroom]
      simp [GameRoom.swept, hgame]
    have hmoves : (srv'.room r).pendingMoves = ∅ := by
      rw [hroom]
      simp [GameRoom.swept, hgame]
    have hnoted : noteMoves srv (.tickEnd r, env) srv' moves r = fun _ => none := by
      by_cases hsnapshot : SendsSnapshot srv (.tickEnd r) r
      · unfold noteMoves
        rw [if_neg fun h => h.1 hgame, if_pos hsnapshot]
      · have hpending : (srv.room r).pendingMoves = ∅ := by
          refine Map.keys_eq_nil.mp (by_contra fun hpending => hsnapshot ⟨rfl, ?_, hpending⟩)
          rw [hgame]
          decide
        rw [noteMoves_still (fun _ => hgame) hsnapshot rfl]
        funext accountId
        rw [← hi.game hgame, hpending]
        rfl
    rw [hnoted]
    exact .of_none hmoves
  · refine .of_outside ?_ ?_
    · rw [hroom]
      unfold GameRoom.swept
      simp only
      split
      · decide
      · exact hgame
    · rw [hroom]
      unfold GameRoom.swept
      simp only [hi.outside hgame, ite_self]

/-- A `HandleMove` in a game notes the move, of a member. -/
theorem movesNoted_notes (hb : Born srv) (hi : MovesNoted srv r (moves r))
    (hc : MovesMember srv (.job r)) (h : next cfg srv (.job r, env) = some srv') {accountId : Bytes}
    {x y : UInt32} (hrunning : srv.running (.job r) r = some (.handleMove accountId x y))
    (hgame : (srv.room r).state = .inGame) (hstate : (srv'.room r).state = .inGame)
    (hmembers : (srv'.room r).members = (srv.room r).members)
    (hpending : (srv'.room r).pendingMoves = (srv.room r).pendingMoves.insert accountId (x, y)) :
    MovesNoted srv' r (noteMoves srv (.job r, env) srv' moves r) := by
  have hsnapshot : ¬ SendsSnapshot srv (.job r) r := fun hsends => absurd hsends.1 (by simp)
  have hnoted : noteMoves srv (.job r, env) srv' moves r =
      Function.update (moves r) accountId (some (x, y)) := by
    unfold noteMoves
    rw [if_neg fun h => h.1 hgame, if_neg hsnapshot, hrunning]
    exact if_pos hgame
  rw [hnoted]
  constructor
  · intro _ account
    rw [hpending]
    by_cases hsame : account = accountId
    · rw [hsame, AList.lookup_insert, Function.update_self]
    · rw [AList.lookup_insert_ne hsame, Function.update_of_ne hsame]
      exact hi.game hgame account
  · intro houtside
    exact absurd hstate houtside
  · intro account hmove
    have hborne : Borne srv r account := by
      rw [hpending] at hmove
      rcases (AList.mem_insert _).mp hmove with rfl | hmove
      · have hlen := RoomManager.lt_of_queued (mem_of_running hrunning)
        exact hc r hlen (account, x, y) (by rw [hrunning]; rfl) hgame
      · exact hi.borne account hmove
    exact borne_next hb h (fun s hs => hmembers ▸ hs) (by simp [Server.loggingIn]) hborne

/-- A member who leaves is the last one who has moved, and in a game ends it. -/
theorem movesNoted_leaves (hpaired : (srv.room r).Paired) (hi : MovesNoted srv r (moves r))
    (hc : LeavesNoMoves srv (.job r)) {s : SessionRef} (hleaves : srv.Leaving (.job r) r s)
    (hmem : s ∈ (srv.room r).members)
    (hleft : (srv'.room r).withoutQueue =
      ((srv.room r).left env s (srv.account s)).withoutQueue) :
    MovesNoted srv' r (noteMoves srv (.job r, env) srv' moves r) := by
  -- in a game the others have not moved, and outside nobody has
  have hlast : ∀ accountId ∈ (srv.room r).pendingMoves, accountId = srv.account s := by
    intro accountId hmove
    by_cases hgame : (srv.room r).state = .inGame
    · exact hc r (RoomManager.lt_of_member hmem) s hmem hleaves hgame accountId
        (AList.mem_keys.mp hmove)
    · rw [hi.outside hgame] at hmove
      exact absurd hmove (AList.notMem_empty accountId)
  refine .of_outside ?_ ?_
  · rw [show (srv'.room r).state = _ from (congrArg GameRoom.state hleft :)]
    show ((srv.room r).left env s (srv.account s)).state ≠ .inGame
    by_cases hgame : (srv.room r).state = .inGame
    · rw [state_left hpaired hgame hmem]
      decide
    · simp [GameRoom.left, hgame]
  · rw [show (srv'.room r).pendingMoves = _ from (congrArg GameRoom.pendingMoves hleft :)]
    exact Map.erase_eq_empty hlast

/-- A job that leaves the pending moves alone may start a game. -/
theorem movesNoted_keeps (hb : Born srv) (hi : MovesNoted srv r (moves r))
    (hc : LoginKeepsMoves srv (.job r)) (h : next cfg srv (.job r, env) = some srv')
    (hpending : (srv'.room r).pendingMoves = (srv.room r).pendingMoves)
    (hstate : (srv'.room r).state = (srv.room r).state ∨
      ((srv.room r).state = .waiting ∧ (srv'.room r).state = .inGame))
    (hidle : (srv.room r).state = .inGame → (srv.running (.job r) r).bind Job.move = none)
    (hstay : ∀ s ∈ (srv.room r).members, s ∈ (srv'.room r).members) :
    MovesNoted srv' r (noteMoves srv (.job r, env) srv' moves r) := by
  have hsnapshot : ¬ SendsSnapshot srv (.job r) r := fun hsends => absurd hsends.1 (by simp)
  rcases hstate with hstate | ⟨hwaiting, hstarted⟩
  · by_cases hgame : (srv.room r).state = .inGame
    · rw [noteMoves_still (fun _ => hgame) hsnapshot (hidle hgame)]
      constructor
      · intro _ accountId
        rw [hpending]
        exact hi.game hgame accountId
      · intro houtside
        exact absurd (hstate.trans hgame) houtside
      · intro accountId hmove
        rw [hpending] at hmove
        exact borne_move hb hi hc h hstay hmove
    · exact .of_outside (fun hgame' => hgame (hstate.symm.trans hgame'))
        (hpending.trans (hi.outside hgame))
  · have hbefore : (srv.room r).state ≠ .inGame := by
      intro hgame
      exact absurd (hgame.symm.trans hwaiting) (by decide)
    have hnoted : noteMoves srv (.job r, env) srv' moves r = fun _ => none :=
      if_pos ⟨hbefore, hstarted⟩
    rw [hnoted]
    exact .of_none (hpending.trans (hi.outside hbefore))

theorem movesNoted_ran (hb : Born srv) (hpaired : (srv.room r).Paired)
    (hi : MovesNoted srv r (moves r)) (hc : MovesKept srv (.job r, env))
    (h : next cfg srv (.job r, env) = some srv') {job : Job} {jobs : List Job}
    (hqueue : (srv.room r).jobQueue = job :: jobs)
    (hroom : srv'.room r = (job.run env r { srv.room r with jobQueue := jobs } srv.world).1) :
    MovesNoted srv' r (noteMoves srv (.job r, env) srv' moves r) := by
  have hrunning := running_job hqueue
  cases @moveEffect_run env r { srv.room r with jobQueue := jobs } srv.world job with
  | notes accountId x y hjob hgame hnoted =>
    rw [← hroom] at hnoted
    refine movesNoted_notes hb hi hc.2.1 h (hjob ▸ hrunning) hgame (hnoted ▸ hgame) ?_ ?_
    · rw [hnoted]
    · rw [hnoted]
  | leaves s hleaves hmem hleft =>
    rw [← hroom] at hleft
    refine movesNoted_leaves hpaired hi hc.1 ⟨job, hrunning, hleaves⟩ hmem ?_
    rw [hleft]
    rfl
  | keeps hpending hstate hidle hstay =>
    rw [← hroom] at hpending hstate hstay
    refine movesNoted_keeps hb hi hc.2.2 h hpending hstate (fun hgame => ?_) hstay
    rw [hrunning]
    exact hidle hgame

/-- **One step** keeps the notes, where it meets `MovesKept`. -/
theorem movesNoted_next (hb : Born srv) (hpaired : ∀ r, (srv.room r).Paired)
    (hi : ∀ r, MovesNoted srv r (moves r)) (hc : MovesKept srv (a, env))
    (h : next cfg srv (a, env) = some srv') (r : RoomRef) :
    MovesNoted srv' r (noteMoves srv (a, env) srv' moves r) := by
  cases rooms_next h r with
  | queued inside kept queue idle => exact movesNoted_queued hb (hi r) hc.2.2 h inside idle
  | swept action room =>
    subst action
    exact movesNoted_swept (hi r) room
  | ran job jobs action queue room =>
    subst action
    exact movesNoted_ran hb (hpaired r) (hi r) hc h queue room

theorem movesNoted_of_run {steps : List (Action × Env)}
    (hrun : run (watched (next cfg) noteMoves) (.empty, noMoves) steps = some (srv, moves))
    (hc : Along (next cfg) MovesKept .empty steps) (r : RoomRef) :
    MovesNoted srv r (moves r) := by
  have hend : (∃ before, run (next cfg) .empty before = some srv) ∧
      ∀ r, MovesNoted srv r (moves r) := by
    refine watched_invariant (I := fun srv moves =>
      (∃ before, run (next cfg) .empty before = some srv) ∧ ∀ r, MovesNoted srv r (moves r)) ?_
      ⟨⟨[], rfl⟩, fun r => movesNoted_empty⟩ hc hrun
    rintro srv ⟨a, env⟩ srv' moves ⟨⟨before, hbefore⟩, hi⟩ hkept hnext
    exact ⟨⟨before ++ [(a, env)], run_snoc hbefore hnext⟩,
      movesNoted_next (born_of_run hbefore) (fun r => (phased_of_server hbefore r).paired) hi
        hkept hnext⟩
  exact hend.2 r

/-- What a snapshot is to be: sent in a game, with one entry for each account of a member that has
moved, at the position it moved to last, and nothing else. -/
def FromGame (srv : Server) (moves : Moves) (a : Action) (id : PacketID) (payload : Bytes) : Prop :=
  id = .sMoveBroadcast → ∃ r actors, a = .tickEnd r ∧ (srv.room r).state = .inGame ∧
    payload = (ServerMessage.moveBroadcast actors).serialize ∧
    (actors.map MovedActor.accountId).Nodup ∧
    ∀ actor, actor ∈ actors ↔
      (∃ s ∈ (srv.room r).members.elems, (srv.world.session s).accountId = actor.accountId) ∧
        moves r actor.accountId = some (actor.x, actor.y)

/-- **Snapshots are of the present game**: in every run whose steps meet `MovesKept`, every
`S_MOVE_BROADCAST` that a step sends is the end of a tick of a room `IN_GAME`, and has one entry
for each member's account that has moved in the present game since the last one, with the position
it moved to last, and nothing else. -/
theorem snapshots_of_game (cfg : Config) {steps : List (Action × Env)}
    (hrun : run (watched (next cfg) noteMoves) (.empty, noMoves) steps = some (srv, moves))
    (hc : Along (next cfg) MovesKept .empty steps) (h : next cfg srv (a, env) = some srv') :
    Emits (FromGame srv moves a) srv.world srv'.world := by
  have hmotionless : Motionless (FromGame srv moves a) := fun id _ hother hid => absurd hid hother
  refine emits_of_next hmotionless.answers (fun _ job jobs _ _ => hmotionless.run job) ?_ h
  rintro r rfl
  have hsent := @snapshot_tickEnd env (srv.room r) srv.world cfg.reconnectWindowMs
  refine hsent.mono fun id payload hsends hid => ?_
  obtain ⟨hfinished, hpending, hpayload⟩ := hsends hid
  have hi := movesNoted_of_run hrun hc r
  have hgame : (srv.room r).state = .inGame := by
    by_contra houtside
    exact hpending (Map.keys_eq_nil.mpr (hi.outside houtside))
  refine ⟨r, (srv.room r).actors env, rfl, hgame, hpayload, GameRoom.nodup_actors, ?_⟩
  intro actor
  rw [GameRoom.mem_actors, hi.game hgame]
  constructor
  · intro hmoved
    refine ⟨hi.borne actor.accountId ?_, hmoved⟩
    rw [← AList.lookup_isSome, hi.game hgame, hmoved]
    rfl
  · intro hmoved
    exact hmoved.2

/-- Two players in room `A` start a game. -/
def twoPlay : List Action := lobby 2 ++ [.packet 0 .ready, .packet 1 .ready, .job 0, .job 0]

/-- One of them moves twice. -/
def movedTwice : List (Action × Env) :=
  quietly (twoPlay ++
    [.packet 0 (.move (some (1, 2))), .packet 0 (.move (some (3, 4))), .job 0, .job 0])

theorem snapshots_movedTwice :
    ∃ srv moves srv',
      run (watched (next ⟨16, 30000, 60000⟩) noteMoves) (.empty, noMoves) movedTwice =
        some (srv, moves) ∧
      next ⟨16, 30000, 60000⟩ srv (.tickEnd 0, .quiet 1000) = some srv' ∧
      Emits (FromGame srv moves (.tickEnd 0)) srv.world srv'.world := by
  obtain ⟨srv, hrun, srv', hnext, -⟩ :
      ∃ srv, run (next ⟨16, 30000, 60000⟩) .empty movedTwice = some srv ∧
        ∃ srv', next ⟨16, 30000, 60000⟩ srv (.tickEnd 0, .quiet 1000) = some srv' ∧ True := by
    decide +kernel
  obtain ⟨moves, hwatched⟩ := watched_of_run noMoves hrun
  exact ⟨srv, moves, srv', hwatched, hnext,
    snapshots_of_game _ hwatched (by decide +kernel) hnext⟩

/-- One of them moves, and the other one leaves before the tick. -/
def leftover : List (Action × Env) :=
  quietly (twoPlay ++ [.packet 0 (.move (some (1, 2))), .packet 1 .roomLeave, .job 0, .job 0]) ++
    [(.tickEnd 0, .quiet 7000)]

/-- The room is waiting again when the position is sent. -/
theorem snapshot_leftover :
    ∃ srv, run (next ⟨16, 30000, 60000⟩) .empty leftover = some srv ∧
      (srv.room 0).state = .waiting ∧
      ∃ srv', next ⟨16, 30000, 60000⟩ srv (.tickEnd 0, .quiet 7000) = some srv' ∧
        (0, frame PacketID.sMoveBroadcast.toUInt16
            (ServerMessage.moveBroadcast [⟨[97], 1, 2⟩]).serialize) ∈
          srv'.world.sent.drop srv.world.sent.length := by
  decide +kernel

/-- The third player of room `A` sends `C_ROOM_LEAVE`, and `C_MOVE` before the tick; the others get
ready in between. -/
def movesBehindLeave : List (Action × Env) :=
  quietly (lobby 3 ++ [.packet 2 .roomLeave, .packet 0 .ready, .packet 1 .ready,
    .packet 2 (.move (some (1, 2))), .job 0, .job 0, .job 0, .job 0])

/-- The others play, and are sent the position of the one who has left. -/
theorem snapshot_departed :
    ∃ srv, run (next ⟨16, 30000, 60000⟩) .empty movesBehindLeave = some srv ∧
      (srv.room 0).state = .inGame ∧ 2 ∉ (srv.room 0).members ∧
      ∃ srv', next ⟨16, 30000, 60000⟩ srv (.tickEnd 0, .quiet 1000) = some srv' ∧
        (0, frame PacketID.sMoveBroadcast.toUInt16
            (ServerMessage.moveBroadcast [⟨[99], 1, 2⟩]).serialize) ∈
          srv'.world.sent.drop srv.world.sent.length := by
  decide +kernel

end

end RealtimeServer
