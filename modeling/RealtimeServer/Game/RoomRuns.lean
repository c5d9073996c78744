import RealtimeServer.Core.Steps
import RealtimeServer.Lib.Run

/-!
# Runs of one room

A room by itself, from its construction: any jobs in any order, and the work `Tick` does behind
them. The rest of the server is left open. Every step is given the world it finds, so between two
steps any session may have logged in, disconnected or been moved by another room, and any
environment.

* `size_le_iff`: the rooms that never exceed `maxPlayers`. `HandleEnter` tests the limit and
  `HandleRejoin` does not, so these are the runs whose rejoins find a free place.
* `rejoin_after_game_end`: where a reconnect slot comes from. The `HandleLeave` that stores it ends
  the game, so a rejoin finds that game over.
* `history_of_run`: the rooms of the server have such a history, in every run; with it, what holds
  of one room by itself holds of the server's rooms (`slotHistory_of_server`).
-/

namespace RealtimeServer

open Unordered Guarded

/-- One entry of a room's history. -/
inductive RoomOp
  | job (job : Job)
  /-- `Tick`, behind its jobs. -/
  | tickEnd

/-- An entry with the surroundings it finds. -/
structure RoomStep where
  op : RoomOp
  env : Env
  world : World

/-- The room after one entry. -/
def roomNext (this : RoomRef) (reconnectWindowMs : Int) (room : GameRoom) (step : RoomStep) :
    Option GameRoom :=
  match step.op with
  | .job job => some (job.run step.env this room step.world).1
  | .tickEnd => some (room.tickEnd step.env reconnectWindowMs step.world).1

variable {this : RoomRef} {reconnectWindowMs : Int} {room room' : GameRoom} {step : RoomStep}

theorem roomNext_job {job : Job} (hop : step.op = .job job)
    (h : roomNext this reconnectWindowMs room step = some room') :
    room' = (job.run step.env this room step.world).1 := by
  unfold roomNext at h
  rw [hop] at h
  exact (Option.some.inj h).symm

theorem roomNext_tickEnd (hop : step.op = .tickEnd)
    (h : roomNext this reconnectWindowMs room step = some room') :
    room' = room.swept step.env reconnectWindowMs := by
  unfold roomNext at h
  rw [hop] at h
  rw [← Option.some.inj h, (GameRoom.tickEnd_spec reconnectWindowMs).1]

/-! ## The number of members -/

/-- A `HandleRejoin` finds its session still in the room, or a free place. -/
def RejoinFits (room : GameRoom) (step : RoomStep) : Prop :=
  ∀ s, step.op = .job (.handleRejoin s) →
    s ∈ room.members ∨ (room.members.size : Int) < room.maxPlayers

/-- The session of the rejoin, if the step is one. -/
def RoomStep.rejoins (step : RoomStep) : Option SessionRef :=
  match step.op with
  | .job job => job.rejoins
  | .tickEnd => none

theorem RoomStep.rejoins_iff {s : SessionRef} :
    step.rejoins = some s ↔ step.op = .job (.handleRejoin s) := by
  unfold rejoins
  cases step.op with
  | job job => exact Job.rejoins_iff.trans ⟨congrArg RoomOp.job, RoomOp.job.inj⟩
  | tickEnd => simp

instance (room : GameRoom) (step : RoomStep) : Decidable (RejoinFits room step) :=
  decidable_of_iff
    (∀ s ∈ step.rejoins, s ∈ room.members ∨ (room.members.size : Int) < room.maxPlayers)
    (forall_congr' fun _ => imp_congr_left RoomStep.rejoins_iff)

namespace GameRoom

/-- The room is within its limit. -/
def WithinLimit (maxPlayers : Int) (room : GameRoom) : Prop :=
  room.maxPlayers = maxPlayers ∧ (room.members.size : Int) ≤ maxPlayers

theorem size_left_le {env : Env} {s : SessionRef} {accountId : Bytes} :
    (room.left env s accountId).members.size ≤ room.members.size := by
  show (room.members.erase s).size ≤ _
  by_cases h : s ∈ room.members
  · have := IterSet.size_erase_of_mem h
    omega
  · rw [IterSet.erase_of_not_mem h]

end GameRoom

theorem maxPlayers_run {job : Job} {env : Env} {w : World} :
    (job.run env this room w).1.maxPlayers = room.maxPlayers := by
  cases @Job.does_run env this room w job with
  | enters s hjob hadmits hroom => rw [hroom]; rfl
  | leaves s hjob hmem hroom => rw [hroom]; rfl
  | rejoins s hjob hroom => rw [hroom]; rfl
  | readies accountId hjob hroom => rw [hroom, GameRoom.maxPlayers_readied]
  | stays moves htakes hleaves hroom => rw [hroom]

/-- Every job but a rejoin keeps a room within its limit. -/
theorem size_run {job : Job} {env : Env} {w : World}
    (hjob : ∀ s, job ≠ .handleRejoin s) (h : (room.members.size : Int) ≤ room.maxPlayers) :
    ((job.run env this room w).1.members.size : Int) ≤ room.maxPlayers := by
  cases @Job.does_run env this room w job with
  | enters s _ hadmits hroom =>
    rw [hroom, GameRoom.entered]
    have hfree := hadmits.2
    by_cases hmem : s ∈ room.members
    · rw [IterSet.size_insert_of_mem hmem]
      exact h
    · rw [IterSet.size_insert_of_not_mem hmem]
      omega
  | leaves s _ hmem hroom =>
    rw [hroom]
    have hsize := @GameRoom.size_left_le room env s (w.session s).accountId
    omega
  | rejoins s hrejoin hroom => exact absurd hrejoin (hjob s)
  | readies accountId _ hroom =>
    rw [hroom, GameRoom.members_readied]
    exact h
  | stays moves htakes hleaves hroom =>
    rw [hroom]
    exact h

/-- A step keeps the limit exactly when its rejoin, if it is one, fits. -/
theorem withinLimit_next {maxPlayers : Int} (h : room.WithinLimit maxPlayers)
    (hnext : roomNext this reconnectWindowMs room step = some room') :
    room'.WithinLimit maxPlayers ↔ RejoinFits room step := by
  obtain ⟨hmax, hsize⟩ := h
  rw [← hmax] at hsize ⊢
  cases hop : step.op with
  | tickEnd =>
    rw [roomNext_tickEnd hop hnext]
    refine iff_of_true ⟨rfl, hsize⟩ fun s hs => ?_
    rw [hop] at hs
    exact absurd hs (by simp)
  | job job =>
    rw [roomNext_job hop hnext]
    by_cases hjob : ∃ s, job = .handleRejoin s
    · obtain ⟨s, rfl⟩ := hjob
      unfold GameRoom.WithinLimit RejoinFits
      rw [hop, (Job.run_spec _).1]
      simp only [Job.outcome, GameRoom.rejoined, GameRoom.entered, true_and]
      by_cases hmem : s ∈ room.members
      · rw [IterSet.size_insert_of_mem hmem]
        refine iff_of_true hsize fun t ht => ?_
        cases ht
        exact Or.inl hmem
      · rw [IterSet.size_insert_of_not_mem hmem]
        constructor
        · intro h t ht
          cases ht
          exact Or.inr (by omega)
        · intro h
          rcases h s rfl with h | h
          · exact absurd h hmem
          · omega
    · refine iff_of_true ⟨maxPlayers_run, size_run (fun s hs => hjob ⟨s, hs⟩) hsize⟩ ?_
      intro s hs
      rw [hop] at hs
      exact absurd ⟨s, RoomOp.job.inj hs⟩ hjob

/-- **The limit holds** in every state of a room's history exactly when every `HandleRejoin` of the
history finds its session in the room already, or a free place. -/
theorem size_le_iff (this : RoomRef) (reconnectWindowMs : Int) (name : Bytes) {maxPlayers : Int}
    (hmax : 1 ≤ maxPlayers) (steps : List RoomStep) :
    (∀ before room, before <+: steps →
      run (roomNext this reconnectWindowMs) (.new name maxPlayers) before = some room →
      (room.members.size : Int) ≤ maxPlayers) ↔
    Along (roomNext this reconnectWindowMs) RejoinFits (.new name maxPlayers) steps := by
  have hnew : (GameRoom.new name maxPlayers).WithinLimit maxPlayers :=
    ⟨rfl, by show ((0 : Nat) : Int) ≤ maxPlayers; omega⟩
  constructor
  · intro h
    have hkeeps : ∀ before room, before <+: steps →
        run (roomNext this reconnectWindowMs) (.new name maxPlayers) before = some room →
        room.WithinLimit maxPlayers := by
      intro before room hpre hrun
      refine ⟨?_, h before room hpre hrun⟩
      refine run_preserves (I := fun room => room.maxPlayers = maxPlayers) ?_ rfl hrun
      intro s a t hs hnext
      cases hop : a.op with
      | tickEnd => rw [roomNext_tickEnd hop hnext]; exact hs
      | job job => rw [roomNext_job hop hnext, maxPlayers_run]; exact hs
    refine along_of_reached (I := GameRoom.WithinLimit maxPlayers) ?_ hkeeps
    intro room step hroom hafter
    cases hnext : roomNext this reconnectWindowMs room step with
    | none => unfold roomNext at hnext; split at hnext <;> exact absurd hnext (by simp)
    | some room' => exact (withinLimit_next hroom hnext).mp (hafter room' hnext)
  · intro h before room hpre hrun
    refine (run_invariant (I := GameRoom.WithinLimit maxPlayers) ?_ hnew
      (along_initial hpre h) hrun).2
    intro room step room' hroom hfits hnext
    exact (withinLimit_next hroom hnext).mpr hfits

/-- Four sessions, the last one a second connection of the first one's player. -/
def fourSessions : World :=
  { session := fun s => { ServerSession.new with accountId := [[97], [98], [99], [97]].getD s [] }
    stats := ⟨0, 0, 0, 0, 0⟩
    sent := [] }

/-- A step at time `now` in which nothing else happens. -/
def quietStep (now : Int) (op : RoomOp) : RoomStep := ⟨op, .quiet now, fourSessions⟩

/-- Two players start a game and the first drops out of it. -/
def droppedOut : List RoomStep :=
  [.job (.handleEnter 0), .job (.handleEnter 1), .job (.handleReady [97]),
    .job (.handleReady [98]), .job (.handleLeave 0)].map (quietStep 1000)

/-- The room waits again, a newcomer takes the free place, and the first player rejoins. -/
def overfull : List RoomStep :=
  droppedOut ++ [.tickEnd, .job (.handleEnter 2), .job (.handleRejoin 3)].map (quietStep 7000)

/-- Until the rejoin, a room for two stays within its limit. -/
theorem size_le_newcomer :
    Along (roomNext 0 30000) RejoinFits (.new [65] 2) (overfull.take 7) ∧
      ∀ before room, before <+: overfull.take 7 →
        run (roomNext 0 30000) (.new [65] 2) before = some room →
        (room.members.size : Int) ≤ 2 := by
  have hfits : Along (roomNext 0 30000) RejoinFits (.new [65] 2) (overfull.take 7) := by decide
  exact ⟨hfits, (size_le_iff 0 30000 [65] (by decide) (overfull.take 7)).mpr hfits⟩

/-- The rejoin makes three of two. -/
theorem size_overfull :
    ∃ room, run (roomNext 0 30000) (.new [65] 2) overfull = some room ∧ room.maxPlayers = 2 ∧
      room.members.size = 3 := by
  decide

/-! ## Where a reconnect slot comes from -/

/-- A game has at least two players. -/
def GameRoom.Paired (room : GameRoom) : Prop := room.state = .inGame → 2 ≤ room.members.size

theorem paired_new {name : Bytes} {maxPlayers : Int} : (GameRoom.new name maxPlayers).Paired :=
  fun h => absurd (show RoomState.waiting = .inGame from h) (by decide)

/-- Leaving a running game of two or more ends it. -/
theorem state_left {env : Env} {s : SessionRef} {accountId : Bytes} (h : room.Paired)
    (hgame : room.state = .inGame) (hmem : s ∈ room.members) :
    (room.left env s accountId).state = .finished := by
  have hsize := IterSet.size_erase_of_mem hmem
  have htwo := h hgame
  unfold GameRoom.left
  simp only [hgame, true_and]
  rw [if_pos (by omega)]

theorem paired_left {env : Env} {s : SessionRef} {accountId : Bytes} (h : room.Paired)
    (hmem : s ∈ room.members) : (room.left env s accountId).Paired := by
  intro hgame
  by_cases hwas : room.state = .inGame
  · rw [state_left h hwas hmem] at hgame
    exact absurd hgame (by decide)
  · unfold GameRoom.left at hgame
    simp only [hwas, false_and, if_false] at hgame

theorem paired_run {job : Job} {env : Env} {w : World} (h : room.Paired) :
    (job.run env this room w).1.Paired := by
  cases @Job.does_run env this room w job with
  | enters s hjob hadmits hroom =>
    rw [hroom]
    exact fun hgame => absurd hgame hadmits.1
  | leaves s hjob hmem hroom =>
    rw [hroom]
    exact paired_left h hmem
  | rejoins s hjob hroom =>
    rw [hroom, GameRoom.rejoined, GameRoom.entered]
    intro hgame
    have htwo := h hgame
    by_cases hmem : s ∈ room.members
    · rwa [IterSet.size_insert_of_mem hmem]
    · rw [IterSet.size_insert_of_not_mem hmem]
      omega
  | readies accountId hjob hroom =>
    rw [hroom]
    intro hgame
    rw [GameRoom.members_readied]
    unfold GameRoom.readied at hgame
    split at hgame
    · exact h hgame
    · split at hgame
      · rename_i hstarts
        simpa using hstarts.1
      · rw [GameRoom.state_toggleReady] at hgame
        exact h hgame
  | stays moves htakes hleaves hroom =>
    rw [hroom]
    exact h

theorem paired_next (h : room.Paired)
    (hnext : roomNext this reconnectWindowMs room step = some room') : room'.Paired := by
  cases hop : step.op with
  | job job =>
    rw [roomNext_job hop hnext]
    exact paired_run h
  | tickEnd =>
    rw [roomNext_tickEnd hop hnext]
    intro hgame
    unfold GameRoom.swept at hgame
    by_cases hreset : room.state = .finished ∧ step.env.later - room.finishedAt > 5000
    · simp only [if_pos hreset] at hgame
      exact absurd hgame (by decide)
    · simp only [if_neg hreset] at hgame
      exact h hgame

/-- The step is a `HandleLeave` that takes a member with this account out of a running game. -/
def DropsOut (accountId : Bytes) (room : GameRoom) (step : RoomStep) : Prop :=
  room.state = .inGame ∧ ∃ s ∈ room.members, (step.world.session s).accountId = accountId ∧
    ∃ job, step.op = .job job ∧ job.Leaves s

/-- A slot after a step was there before, or the step is where its player dropped out. -/
theorem slot_next {accountId : Bytes} {slot : ReconnectSlot}
    (hnext : roomNext this reconnectWindowMs room step = some room')
    (hslot : room'.pendingReconnects.lookup accountId = some slot) :
    room.pendingReconnects.lookup accountId = some slot ∨
      (DropsOut accountId room step ∧ slot = ⟨step.env.now⟩) := by
  cases hop : step.op with
  | job job =>
    rw [roomNext_job hop hnext] at hslot
    rcases Job.slot_of_run hslot with h | ⟨hgame, hnow, s, hmem, hleaves, haccount⟩
    · exact Or.inl h
    · exact Or.inr ⟨⟨hgame, s, hmem, haccount, job, hop, hleaves⟩, hnow⟩
  | tickEnd =>
    rw [roomNext_tickEnd hop hnext] at hslot
    exact Or.inl ((Map.lookup_keep _ _ _ _).mp hslot).1

/-- Dropping out ends the game. -/
theorem state_dropsOut {accountId : Bytes} (h : room.Paired) (hdrops : DropsOut accountId room step)
    (hnext : roomNext this reconnectWindowMs room step = some room') : room'.state = .finished := by
  obtain ⟨hgame, s, hmem, -, job, hop, hleaves⟩ := hdrops
  rw [roomNext_job hop hnext, (Job.run_spec job).1, Job.outcome_leave hleaves, if_pos hmem]
  exact state_left h hgame hmem

/-- The history of a slot: the step its player dropped out in, which stored it and ended the game;
since then it has been there. -/
structure SlotHistory (this : RoomRef) (reconnectWindowMs : Int) (start : GameRoom)
    (steps : List RoomStep) (accountId : Bytes) (slot : ReconnectSlot) : Prop where
  stored : ∃ before leave after playing ended, steps = before ++ leave :: after ∧
    run (roomNext this reconnectWindowMs) start before = some playing ∧
    DropsOut accountId playing leave ∧ slot = ⟨leave.env.now⟩ ∧
    roomNext this reconnectWindowMs playing leave = some ended ∧ ended.state = .finished ∧
    ∀ since room, since <+: after →
      run (roomNext this reconnectWindowMs) ended since = some room →
      room.pendingReconnects.lookup accountId = some slot

/-- Every slot has such a history. The induction is on the run, from its end. -/
theorem slotHistory_of_run {start : GameRoom} (hpaired : start.Paired)
    (hnone : start.pendingReconnects = ∅) {steps : List RoomStep} {accountId : Bytes}
    {slot : ReconnectSlot} (hrun : run (roomNext this reconnectWindowMs) start steps = some room)
    (hslot : room.pendingReconnects.lookup accountId = some slot) :
    SlotHistory this reconnectWindowMs start steps accountId slot := by
  induction steps using List.reverseRecOn generalizing room with
  | nil =>
    obtain rfl := Option.some.inj hrun
    rw [hnone, AList.lookup_empty] at hslot
    exact absurd hslot (by simp)
  | append_singleton steps step ih =>
    obtain ⟨room₀, hrun₀, hnext⟩ := run_snoc_inv hrun
    rcases slot_next hnext hslot with hold | ⟨hdrops, hnow⟩
    · obtain ⟨before, leave, after, playing, ended, rfl, hbefore, hdrops, hnow, hleave, hstate,
        hsince⟩ := (ih hrun₀ hold).stored
      refine ⟨before, leave, after ++ [step], playing, ended, by simp, hbefore, hdrops, hnow,
        hleave, hstate, fun since room₁ hpre hsincerun => ?_⟩
      rcases List.prefix_concat_iff.mp hpre with rfl | hpre
      · -- the whole run: its last state is the one at hand
        have hwhole : run (roomNext this reconnectWindowMs) start
            ((before ++ [leave]) ++ (after ++ [step])) = some room₁ := by
          rw [run_append, run_snoc hbefore hleave]
          exact hsincerun
        rw [show before ++ [leave] ++ (after ++ [step]) = before ++ leave :: after ++ [step] by
          simp, hrun] at hwhole
        exact Option.some.inj hwhole ▸ hslot
      · exact hsince since room₁ hpre hsincerun
    · have hpaired₀ : room₀.Paired :=
        run_preserves (fun _ _ _ h hnext => paired_next h hnext) hpaired hrun₀
      refine ⟨steps, step, [], room₀, room, by simp, hrun₀, hdrops, hnow, hnext,
        state_dropsOut hpaired₀ hdrops hnext, fun since room₁ hpre hsincerun => ?_⟩
      obtain rfl := List.prefix_nil.mp hpre
      exact Option.some.inj hsincerun ▸ hslot

/-- **A rejoin finds its game over**: when a `HandleRejoin` consumes a slot, the player had dropped
out of a running game, and that same `HandleLeave` both stored the slot and ended the game. The
player is a member again, of the room in whatever state it is in. -/
theorem rejoin_after_game_end (this : RoomRef) (reconnectWindowMs : Int) (name : Bytes)
    (maxPlayers : Int) {steps : List RoomStep} {s : SessionRef} {slot : ReconnectSlot}
    (hrun : run (roomNext this reconnectWindowMs) (.new name maxPlayers) steps = some room)
    (hop : step.op = .job (.handleRejoin s))
    (hslot : room.pendingReconnects.lookup (step.world.session s).accountId = some slot)
    (hnext : roomNext this reconnectWindowMs room step = some room') :
    SlotHistory this reconnectWindowMs (.new name maxPlayers) steps
        (step.world.session s).accountId slot ∧
      s ∈ room'.members ∧ room'.state = room.state ∧
      (step.world.session s).accountId ∉ room'.pendingReconnects := by
  refine ⟨slotHistory_of_run paired_new rfl hrun hslot, ?_⟩
  rw [roomNext_job hop hnext, (Job.run_spec _).1]
  simp [Job.outcome, GameRoom.rejoined, GameRoom.entered]

/-- The rejoin of the player who dropped out. -/
def rejoinStep : RoomStep := quietStep 2000 (.job (.handleRejoin 3))

theorem rejoin_droppedOut :
    ∃ room, run (roomNext 0 30000) (.new [65] 2) droppedOut = some room ∧
      ∃ room', roomNext 0 30000 room rejoinStep = some room' ∧
        SlotHistory 0 30000 (.new [65] 2) droppedOut [97] ⟨1000⟩ ∧ 3 ∈ room'.members := by
  obtain ⟨room, hrun, hslot⟩ :
      ∃ room, run (roomNext 0 30000) (.new [65] 2) droppedOut = some room ∧
        room.pendingReconnects.lookup [97] = some ⟨1000⟩ := by decide
  obtain ⟨hhistory, hmem, -⟩ := rejoin_after_game_end 0 30000 [65] 2 hrun
    (show rejoinStep.op = .job (.handleRejoin 3) from rfl) hslot rfl
  exact ⟨room, hrun, _, rfl, hhistory, hmem⟩

/-- The player who dropped out comes back to a game that is over. -/
theorem rejoin_finished :
    ∃ room, run (roomNext 0 30000) (.new [65] 2) droppedOut = some room ∧
      room.pendingReconnects.lookup [97] = some ⟨1000⟩ ∧ 3 ∉ room.members ∧
      ∃ room', roomNext 0 30000 room rejoinStep = some room' ∧ 3 ∈ room'.members ∧
        room'.pendingReconnects.lookup [97] = none ∧ room'.state = .finished := by
  decide

/-! ## The rooms of the server -/

section

variable {cfg : Config} {srv srv' : Server} {a : Action} {env : Env} {r : RoomRef}

theorem outcome_leave_withoutQueue {job : Job} {s : SessionRef} (hjob : job.Leaves s) (env : Env)
    (room : GameRoom) (w : World) :
    job.outcome env room.withoutQueue w = (job.outcome env room w).withoutQueue := by
  have hmembers : room.withoutQueue.members = room.members := rfl
  rw [Job.outcome_leave hjob, Job.outcome_leave hjob, hmembers]
  split <;> rfl

theorem GameRoom.handleMove_withoutQueue (accountId : Bytes) (x y : UInt32) (room : GameRoom) :
    room.withoutQueue.handleMove accountId x y =
      (room.handleMove accountId x y).withoutQueue := by
  have hstate : room.withoutQueue.state = room.state := rfl
  unfold GameRoom.handleMove
  rw [hstate]
  split <;> rfl

theorem GameRoom.toggleReady_withoutQueue (accountId : Bytes) (room : GameRoom) :
    room.withoutQueue.toggleReady accountId = (room.toggleReady accountId).withoutQueue := by
  have hready : room.withoutQueue.readyPlayers = room.readyPlayers := rfl
  unfold GameRoom.toggleReady
  rw [hready]
  split <;> rfl

theorem GameRoom.readied_withoutQueue (accountId : Bytes) (room : GameRoom) :
    room.withoutQueue.readied accountId = (room.readied accountId).withoutQueue := by
  have hstate : room.withoutQueue.state = room.state := rfl
  have hstarts : (room.toggleReady accountId).withoutQueue.Starts ↔
      (room.toggleReady accountId).Starts := Iff.rfl
  unfold GameRoom.readied
  rw [hstate, GameRoom.toggleReady_withoutQueue]
  by_cases hwaiting : room.state ≠ .waiting
  · rw [if_pos hwaiting, if_pos hwaiting]
  · rw [if_neg hwaiting, if_neg hwaiting]
    by_cases h : (room.toggleReady accountId).Starts
    · rw [if_pos h, if_pos (hstarts.mpr h)]
      rfl
    · rw [if_neg h, if_neg (mt hstarts.mp h)]

/-- A job does not look at what is queued behind it. -/
theorem Job.outcome_withoutQueue (job : Job) (env : Env) (room : GameRoom) (w : World) :
    job.outcome env room.withoutQueue w = (job.outcome env room w).withoutQueue := by
  cases job with
  | handleEnter s =>
    by_cases hadmits : room.Admits
    · have hadmits' : room.withoutQueue.Admits := hadmits
      simp only [Job.outcome, if_pos hadmits, if_pos hadmits']
      rfl
    · have hadmits' : ¬ room.withoutQueue.Admits := hadmits
      simp only [Job.outcome, if_neg hadmits, if_neg hadmits']
  | handleLeave s => exact outcome_leave_withoutQueue (Or.inl rfl) env room w
  | leaveAndAck s => exact outcome_leave_withoutQueue (Or.inr rfl) env room w
  | handleRejoin s => rfl
  | chat sender message => rfl
  | handleMove accountId x y => exact GameRoom.handleMove_withoutQueue accountId x y room
  | handleReady accountId => exact GameRoom.readied_withoutQueue accountId room

/-- **A step of the server** is a step in the history of each room, or leaves the room alone but for
its queue. -/
theorem history_next (h : next cfg srv (a, env) = some srv') (hr : r < srv.rooms.heap.length) :
    (srv'.room r).withoutQueue = (srv.room r).withoutQueue ∨
      ∃ op, roomNext r cfg.reconnectWindowMs (srv.room r).withoutQueue ⟨op, env, srv.world⟩ =
        some (srv'.room r).withoutQueue := by
  cases rooms_next h r with
  | queued inside kept => exact Or.inl (kept hr)
  | ran job jobs action queue room =>
    have hbehind : ({ srv.room r with jobQueue := jobs } : GameRoom).withoutQueue =
        (srv.room r).withoutQueue := rfl
    have hroom : (srv'.room r).withoutQueue =
        job.outcome env (srv.room r).withoutQueue srv.world := by
      rw [room, (Job.run_spec job).1, ← Job.outcome_withoutQueue, hbehind]
    exact Or.inr ⟨.job job, congrArg some ((Job.run_spec job).1.trans hroom.symm)⟩
  | swept action room =>
    have hroom : (srv'.room r).withoutQueue =
        (srv.room r).withoutQueue.swept env cfg.reconnectWindowMs := by
      rw [room]
      rfl
    exact Or.inr ⟨.tickEnd, congrArg some ((GameRoom.tickEnd_spec _).1.trans hroom.symm)⟩

/-- **Every room of the server has a history**: in every run, a room that was created is where a
history from the new room leads, apart from its queue. -/
theorem history_of_run {steps : List (Action × Env)}
    (hrun : run (next cfg) .empty steps = some srv) (hr : r < srv.rooms.heap.length) :
    ∃ name history, run (roomNext r cfg.reconnectWindowMs) (.new name cfg.maxRoomPlayers) history =
      some (srv.room r).withoutQueue := by
  revert r
  refine run_preserves (I := fun srv => ∀ {r}, r < srv.rooms.heap.length → ∃ name history,
    run (roomNext r cfg.reconnectWindowMs) (.new name cfg.maxRoomPlayers) history =
      some (srv.room r).withoutQueue) ?_ (fun hr => absurd hr (Nat.not_lt_zero _)) hrun
  rintro srv ⟨a, env⟩ srv' hi h r hr
  by_cases hold : r < srv.rooms.heap.length
  · obtain ⟨name, history, hhistory⟩ := hi hold
    rcases history_next h hold with hsame | ⟨op, hop⟩
    · exact ⟨name, history, hsame ▸ hhistory⟩
    · exact ⟨name, history ++ [⟨op, env, srv.world⟩], run_snoc hhistory hop⟩
  · obtain ⟨name, hname⟩ := created_next h hr (not_lt.mp hold)
    exact ⟨name, [], congrArg some hname.symm⟩

/-- A slot in a room of the server was stored by the `HandleLeave` that ended the game. -/
theorem slotHistory_of_server {steps : List (Action × Env)} {accountId : Bytes}
    {slot : ReconnectSlot} (hrun : run (next cfg) .empty steps = some srv)
    (hslot : (srv.room r).pendingReconnects.lookup accountId = some slot) :
    ∃ name history, SlotHistory r cfg.reconnectWindowMs (.new name cfg.maxRoomPlayers) history
      accountId slot := by
  have hmem : accountId ∈ (srv.room r).pendingReconnects :=
    AList.lookup_isSome.mp (Option.isSome_iff_exists.mpr ⟨slot, hslot⟩)
  obtain ⟨name, history, hhistory⟩ := history_of_run hrun (RoomManager.lt_of_slot hmem)
  exact ⟨name, history, slotHistory_of_run paired_new rfl hhistory hslot⟩

end

end RealtimeServer
