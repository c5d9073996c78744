import RealtimeServer.Game.IdleRooms
import RealtimeServer.Game.ReadyStart

/-!
# Reconnect slots and idle rooms

`RemoveIdleRooms` does not look at `m_pendingReconnects`. That it takes no open slot away with a
room rests on when slots are stored: in a leave, by a room that has a member, before the room can
note that it is empty (`SlotsBefore`).

* `slotsBefore_run`: a job keeps this. `slotsBefore_of_run`: every run does.
* **`open_slot_kept`**: with an idle timeout that is not shorter than the reconnect window,
  `RemoveIdleRooms` leaves every room with an open slot in the map.
-/

namespace RealtimeServer

open Unordered Guarded

/-- The slots of the room were stored by `time`, and by the time it was left empty. -/
structure GameRoom.SlotsBefore (time : Int) (room : GameRoom) : Prop where
  stored : ∀ accountId slot, room.pendingReconnects.lookup accountId = some slot →
    slot.storedAt ≤ time
  empty : 0 < room.emptySinceMs → ∀ accountId slot,
    room.pendingReconnects.lookup accountId = some slot → slot.storedAt ≤ room.emptySinceMs

section

variable {cfg : Config} {srv srv' : Server} {a : Action} {env : Env} {r : RoomRef}
  {room room' : GameRoom} {w : World} {job : Job} {time : Int}

/-- Time passes, and slots may be dropped. -/
theorem GameRoom.SlotsBefore.mono {later : Int} (hi : room.SlotsBefore time) (htime : time ≤ later)
    (hempty : room'.emptySinceMs = room.emptySinceMs)
    (hslots : ∀ accountId slot, room'.pendingReconnects.lookup accountId = some slot →
      room.pendingReconnects.lookup accountId = some slot) : room'.SlotsBefore later where
  stored accountId slot hslot := (hi.stored accountId slot (hslots _ _ hslot)).trans htime
  empty hstamp accountId slot hslot := by
    rw [hempty] at hstamp ⊢
    exact hi.empty hstamp accountId slot (hslots _ _ hslot)

/-- A room that is not empty. -/
theorem GameRoom.SlotsBefore.of_occupied {later : Int} (hi : room.SlotsBefore time)
    (htime : time ≤ later) (hempty : room'.emptySinceMs = 0)
    (hslots : ∀ accountId slot, room'.pendingReconnects.lookup accountId = some slot →
      room.pendingReconnects.lookup accountId = some slot) : room'.SlotsBefore later where
  stored accountId slot hslot := (hi.stored accountId slot (hslots _ _ hslot)).trans htime
  empty hstamp := absurd hstamp (hempty ▸ lt_irrefl _)

/-- A leave may store a slot and note that the room is empty, the slot first. -/
theorem slotsBefore_left {s : SessionRef} {accountId : Bytes} (hi : room.SlotsBefore time)
    (htime : time ≤ env.now) (hoccupied : room.emptySinceMs = 0) :
    (room.left env s accountId).SlotsBefore env.later := by
  have hnow : ∀ account slot,
      (room.left env s accountId).pendingReconnects.lookup account = some slot →
        slot.storedAt ≤ env.now := by
    intro account slot hslot
    rcases Job.slot_of_left hslot with hold | ⟨-, rfl, -⟩
    · exact (hi.stored account slot hold).trans htime
    · exact le_refl _
  refine ⟨fun account slot hslot => (hnow account slot hslot).trans env.now_le_later,
    fun hstamp account slot hslot => ?_⟩
  by_cases hsize : (room.members.erase s).size = 0
  · have hlater : (room.left env s accountId).emptySinceMs = env.later := if_pos hsize
    rw [hlater]
    exact (hnow account slot hslot).trans env.now_le_later
  · have hkept : (room.left env s accountId).emptySinceMs = room.emptySinceMs := if_neg hsize
    rw [hkept, hoccupied] at hstamp
    exact absurd hstamp (lt_irrefl _)

theorem slotsBefore_run (hi : room.SlotsBefore time) (htime : time ≤ env.now)
    (hoccupied : ∀ s ∈ room.members, room.emptySinceMs = 0) :
    (job.run env r room w).1.SlotsBefore env.later := by
  have hlater := htime.trans env.now_le_later
  cases @Job.does_run env r room w job with
  | enters s hjob hadmits hroom =>
    rw [hroom]
    exact hi.of_occupied hlater rfl fun _ _ hslot => hslot
  | leaves s hjob hmem hroom =>
    rw [hroom]
    exact slotsBefore_left hi htime (hoccupied s hmem)
  | rejoins s hjob hroom =>
    rw [hroom]
    exact hi.of_occupied hlater rfl fun _ _ hslot => (Map.lookup_erase_iff.mp hslot).2
  | readies accountId hjob hroom =>
    rw [hroom]
    refine hi.mono hlater (GameRoom.emptySinceMs_readied _ _) fun _ _ hslot => ?_
    rwa [GameRoom.pendingReconnects_readied] at hslot
  | stays moves htakes hleaves hroom =>
    rw [hroom]
    exact hi.mono hlater rfl fun _ _ hslot => hslot

/-- The clock has not gone back, and is behind the step. -/
theorem clock_next (h : next cfg srv (a, env) = some srv') :
    srv.clock ≤ env.now ∧ srv'.clock = env.later := by
  unfold next at h
  split at h
  · exact absurd h (by simp)
  · rename_i hback
    obtain ⟨srv₁, -, rfl⟩ := Option.map_eq_some_iff.mp h
    exact ⟨not_lt.mp hback, rfl⟩

theorem slotsBefore_next (hoccupied : Occupied srv r) (hi : (srv.room r).SlotsBefore srv.clock)
    (h : next cfg srv (a, env) = some srv') : (srv'.room r).SlotsBefore srv'.clock := by
  obtain ⟨hnow, hclock⟩ := clock_next h
  rw [hclock]
  have hlater := hnow.trans env.now_le_later
  cases rooms_next h r with
  | queued inside kept queue idle waiting =>
    have hslots : (srv'.room r).pendingReconnects = (srv.room r).pendingReconnects :=
      (congrArg GameRoom.pendingReconnects inside :)
    refine hi.mono hlater (congrArg GameRoom.emptySinceMs inside :) fun _ _ hslot => ?_
    rwa [hslots] at hslot
  | ran job jobs action queue room =>
    have hrest : ({ srv.room r with jobQueue := jobs } : GameRoom).SlotsBefore srv.clock :=
      hi.mono (le_refl _) rfl fun _ _ hslot => hslot
    rw [room]
    exact slotsBefore_run hrest hnow hoccupied
  | swept action room =>
    rw [room]
    exact hi.mono hlater rfl fun _ _ hslot => ((Map.lookup_keep _ _ _ _).mp hslot).1

theorem slotsBefore_of_run {steps : List (Action × Env)}
    (hrun : run (next cfg) .empty steps = some srv) (r : RoomRef) :
    (srv.room r).SlotsBefore srv.clock := by
  have hend : Occupied srv r ∧ (srv.room r).SlotsBefore srv.clock := by
    refine run_preserves (I := fun srv => Occupied srv r ∧ (srv.room r).SlotsBefore srv.clock)
      (fun _ _ _ hi h => ⟨occupied_next hi.1 h, slotsBefore_next hi.1 hi.2 h⟩) ?_ hrun
    have hnone : (Server.empty.room r).pendingReconnects = ∅ := by
      rw [room_empty]
      rfl
    refine ⟨fun s hs => absurd hs not_mem_members_empty, fun accountId slot hslot => ?_,
      fun _ accountId slot hslot => ?_⟩
    · rw [hnone] at hslot
      exact absurd hslot (by simp)
    · rw [hnone] at hslot
      exact absurd hslot (by simp)
  exact hend.2

/-- **An open slot keeps its room**: in every run of the server with an idle timeout that is not
shorter than the reconnect window, `RemoveIdleRooms` leaves every room in the map that holds a slot
whose time is not up. -/
theorem open_slot_kept {steps : List (Action × Env)} {accountId : Bytes} {slot : ReconnectSlot}
    (hcfg : cfg.reconnectWindowMs ≤ cfg.idleRoomTimeoutMs)
    (hrun : run (next cfg) .empty steps = some srv)
    (h : next cfg srv (.removeIdleRooms, env) = some srv') (hlive : srv.rooms.Live r)
    (hslot : (srv.room r).pendingReconnects.lookup accountId = some slot)
    (hopen : env.now - slot.storedAt ≤ cfg.reconnectWindowMs) : srv'.rooms.Live r := by
  refine live_next h hlive fun _ hidle => ?_
  have hstored := (slotsBefore_of_run hrun r).empty hidle.1 accountId slot hslot
  have hexpired := hidle.2
  omega

/-- Two players start a game in room `A`, and both drop out of it. -/
def bothDropOut : List (Action × Env) :=
  quietly (lobby 2 ++ [.packet 0 .ready, .packet 1 .ready, .job 0, .job 0,
    .disconnect 0, .disconnect 1, .job 0, .job 0])

/-- The room is empty, and stays for the slot of the first as long as that is open. -/
theorem open_slot_kept_bothDropOut :
    ∃ srv srv', run (next ⟨16, 30000, 30000⟩) .empty bothDropOut = some srv ∧
      (srv.room 0).emptySinceMs = 1000 ∧
      next ⟨16, 30000, 30000⟩ srv (.removeIdleRooms, .quiet 31000) = some srv' ∧
      srv'.rooms.Live 0 := by
  obtain ⟨srv, hrun, hempty, hlive, hslot, hsome⟩ :
      ∃ srv, run (next ⟨16, 30000, 30000⟩) .empty bothDropOut = some srv ∧
        (srv.room 0).emptySinceMs = 1000 ∧ srv.rooms.Live 0 ∧
        (srv.room 0).pendingReconnects.lookup [97] = some ⟨1000⟩ ∧
        (next ⟨16, 30000, 30000⟩ srv (.removeIdleRooms, .quiet 31000)).isSome = true := by
    decide +kernel
  obtain ⟨srv', hnext⟩ := Option.isSome_iff_exists.mp hsome
  exact ⟨srv, srv', hrun, hempty, hnext,
    open_slot_kept (le_refl _) hrun hnext hlive hslot (by decide)⟩

end

end RealtimeServer
