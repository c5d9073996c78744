import Mathlib.Data.List.GetD
import RealtimeServer.Game.GameRoom

/-!
# The room registry

Model of `RoomManager` (`Game/RoomManager.h`, `Game/RoomManager.cpp`). `heap` holds every room ever
created, at its address; `rooms` is the map `m_rooms`. A room that `RemoveIdleRooms` erases leaves
the map and stays in `heap`, where only a dangling pointer can reach it.

`Queued limit m m' new`: from `m` to `m'` rooms were created with the limit `limit` and jobs queued,
each of them `new`, and nothing else happened to any room. `GetOrCreate` and `PushJob` are such
steps, and so is every packet handler.
-/

namespace RealtimeServer

open Unordered

/-- `RoomInfo`. -/
structure RoomInfo where
  name : Bytes
  playerCount : Int
  maxPlayers : Int
  state : RoomState

/-- `RoomManager`. -/
structure RoomManager where
  rooms : Map Bytes RoomRef
  heap : List GameRoom

namespace RoomManager

def empty : RoomManager := ⟨∅, []⟩

/-- The room at an address. -/
def room (m : RoomManager) (r : RoomRef) : GameRoom := m.heap.getD r (.new [] 0)

/-- The room is in the map. -/
def Live (m : RoomManager) (r : RoomRef) : Prop := r ∈ m.rooms.values

instance (m : RoomManager) (r : RoomRef) : Decidable (m.Live r) := by
  unfold Live; infer_instance

/-- Change one room. -/
def modify (m : RoomManager) (r : RoomRef) (f : GameRoom → GameRoom) : RoomManager :=
  { m with heap := m.heap.modify r f }

/-- `room->PushJob(..)`. -/
def pushJob (m : RoomManager) (r : RoomRef) (job : Job) : RoomManager :=
  m.modify r fun room => room.pushJob job

/-- `GetOrCreate`: the room, and the registry with it. -/
def getOrCreate (maxRoomPlayers : Int) (m : RoomManager) (name : Bytes) : RoomRef × RoomManager :=
  match m.rooms.lookup name with
  | some r => (r, m)
  | none =>
    let r := m.heap.length
    (r, { rooms := m.rooms.insert name r, heap := m.heap ++ [.new name maxRoomPlayers] })

/-- `m_rooms` as an iteration walks it. -/
def walk (env : Env) (m : RoomManager) : List (Bytes × RoomRef) :=
  (env.keyOrder.apply m.rooms.keys).filterMap fun name =>
    (m.rooms.lookup name).map fun r => (name, r)

/-- `FindReconnect`. -/
def findReconnect (env : Env) (m : RoomManager) (accountId : Bytes) : Option RoomRef :=
  ((m.walk env).map Prod.snd).find? fun r => (m.room r).hasPendingReconnect accountId

/-- The test of `RemoveIdleRooms`. -/
def IdleExpired (now idleMs : Int) (room : GameRoom) : Prop :=
  room.emptySinceMs > 0 ∧ now - room.emptySinceMs > idleMs

instance (now idleMs : Int) (room : GameRoom) : Decidable (IdleExpired now idleMs room) := by
  unfold IdleExpired; infer_instance

/-- `RemoveIdleRooms`. -/
def removeIdleRooms (env : Env) (idleMs : Int) (m : RoomManager) : RoomManager :=
  { m with rooms := m.rooms.keep fun _ r => !decide (IdleExpired env.now idleMs (m.room r)) }

/-- `GetRoomInfoList`. -/
def getRoomInfoList (env : Env) (m : RoomManager) : List RoomInfo :=
  (m.walk env).map fun e =>
    let room := m.room e.2
    ⟨e.1, room.members.size, room.maxPlayers, room.state⟩

/-! ## Addresses -/

variable {m m' m'' : RoomManager} {r r' : RoomRef}

theorem room_of_le (h : m.heap.length ≤ r) : m.room r = .new [] 0 :=
  List.getD_eq_default _ _ h

theorem room_modify_ne (h : r' ≠ r) (f : GameRoom → GameRoom) :
    (m.modify r f).room r' = m.room r' := by
  unfold room modify
  simp only [List.getD_eq_getElem?_getD]
  rw [List.getElem?_modify_ne f m.heap h.symm]

theorem length_modify (f : GameRoom → GameRoom) : (m.modify r f).heap.length = m.heap.length :=
  List.length_modify f m.heap r

theorem room_modify_self (h : r < m.heap.length) (f : GameRoom → GameRoom) :
    (m.modify r f).room r = f (m.room r) := by
  unfold room modify
  simp only [List.getD_eq_getElem?_getD]
  rw [List.getElem?_modify_eq, List.getElem?_eq_getElem h]
  rfl

/-- A part of the rooms that `f` leaves alone is as it was. -/
theorem room_modify_part {γ : Type*} (part : GameRoom → γ) {f : GameRoom → GameRoom}
    (hf : ∀ room, part (f room) = part room) (r r' : RoomRef) :
    part ((m.modify r f).room r') = part (m.room r') := by
  by_cases h : r' = r
  · subst h
    by_cases hlen : r' < m.heap.length
    · rw [room_modify_self hlen, hf]
    · have hlen' : (m.modify r' f).heap.length ≤ r' := by
        rw [length_modify]
        exact not_lt.mp hlen
      rw [room_of_le hlen', room_of_le (not_lt.mp hlen)]
  · rw [room_modify_ne h]

/-- A room that was not created has no member. -/
theorem lt_of_member {s : SessionRef} (h : s ∈ (m.room r).members) : r < m.heap.length := by
  by_contra hle
  rw [room_of_le (not_lt.mp hle)] at h
  exact absurd h (IterSet.not_mem_empty s)

theorem lt_of_queued {job : Job} (h : job ∈ (m.room r).jobQueue) : r < m.heap.length := by
  by_contra hle
  rw [room_of_le (not_lt.mp hle)] at h
  exact absurd h List.not_mem_nil

theorem lt_of_head {job : Job} {jobs : List Job} (h : (m.room r).jobQueue = job :: jobs) :
    r < m.heap.length :=
  lt_of_queued (h ▸ List.mem_cons_self)

theorem lt_of_slot {accountId : Bytes} (h : accountId ∈ (m.room r).pendingReconnects) :
    r < m.heap.length := by
  by_contra hle
  rw [room_of_le (not_lt.mp hle)] at h
  exact absurd h (AList.notMem_empty accountId)

theorem room_getOrCreate_old {maxRoomPlayers : Int} {name : Bytes} (h : r < m.heap.length) :
    (m.getOrCreate maxRoomPlayers name).2.room r = m.room r := by
  unfold getOrCreate
  cases m.rooms.lookup name with
  | some _ => rfl
  | none =>
    unfold room
    simp only [List.getD_eq_getElem?_getD]
    rw [List.getElem?_append_left h]

/-- The room it creates is the next one. -/
theorem room_getOrCreate_new {maxRoomPlayers : Int} {name : Bytes}
    (h : r < (m.getOrCreate maxRoomPlayers name).2.heap.length) (hle : m.heap.length ≤ r) :
    (m.getOrCreate maxRoomPlayers name).2.room r = .new name maxRoomPlayers := by
  unfold getOrCreate at h ⊢
  cases hname : m.rooms.lookup name with
  | some _ =>
    rw [hname] at h
    exact absurd h (not_lt.mpr hle)
  | none =>
    rw [hname] at h
    have hlen : r < m.heap.length + 1 := by simpa using h
    obtain rfl : r = m.heap.length := le_antisymm (Nat.lt_succ_iff.mp hlen) hle
    unfold room
    simp only [List.getD_eq_getElem?_getD]
    rw [List.getElem?_append_right (le_refl _), Nat.sub_self]
    rfl

/-- A push puts the job behind the others of its room, if the room exists. -/
theorem jobQueue_pushJob {job : Job} : ((m.pushJob r job).room r').jobQueue =
    if r' = r ∧ r < m.heap.length then (m.room r').jobQueue ++ [job]
    else (m.room r').jobQueue := by
  unfold pushJob
  by_cases h : r' = r
  · subst h
    by_cases hlen : r' < m.heap.length
    · rw [room_modify_self hlen, if_pos ⟨rfl, hlen⟩]
      rfl
    · rw [if_neg (fun h => hlen h.2), room_of_le (not_lt.mp hlen), room_of_le]
      rw [length_modify]
      exact not_lt.mp hlen
  · rw [room_modify_ne h, if_neg (fun hr => h hr.1)]

/-- A new room has no jobs. -/
theorem jobQueue_getOrCreate {maxRoomPlayers : Int} {name : Bytes} :
    ((m.getOrCreate maxRoomPlayers name).2.room r).jobQueue = (m.room r).jobQueue := by
  by_cases hr : r < m.heap.length
  · rw [room_getOrCreate_old hr]
  · rw [room_of_le (not_lt.mp hr)]
    by_cases hr' : r < (m.getOrCreate maxRoomPlayers name).2.heap.length
    · rw [room_getOrCreate_new hr' (not_lt.mp hr)]
      rfl
    · rw [room_of_le (not_lt.mp hr')]

/-! ## Queueing -/

end RoomManager

/-- A room without its queue. -/
def GameRoom.withoutQueue (room : GameRoom) : GameRoom := { room with jobQueue := [] }

/-- A room without its name, its limit and its queue. -/
def GameRoom.inside (room : GameRoom) : GameRoom :=
  { room with name := [], maxPlayers := 0, jobQueue := [] }

/-- From `m` to `m'` rooms were created and `new` jobs queued, and nothing else. -/
structure Queued (limit : Int) (m m' : RoomManager) (new : RoomRef → Job → Prop) : Prop where
  kept : ∀ r < m.heap.length, (m'.room r).withoutQueue = (m.room r).withoutQueue
  created : ∀ r < m'.heap.length, m.heap.length ≤ r →
    ∃ name, (m'.room r).withoutQueue = .new name limit
  queue : ∀ r, ∃ jobs, (m'.room r).jobQueue = (m.room r).jobQueue ++ jobs ∧
    ∀ job ∈ jobs, new r job
  grows : m.heap.length ≤ m'.heap.length

namespace Queued

open RoomManager

variable {limit : Int} {m m' m'' : RoomManager} {new : RoomRef → Job → Prop} {r : RoomRef}

theorem refl (m : RoomManager) (new : RoomRef → Job → Prop) : Queued limit m m new :=
  ⟨fun _ _ => rfl, fun _ hr hle => absurd hr (not_lt.mpr hle), fun _ => ⟨[], by simp, by simp⟩,
    le_refl _⟩

theorem trans (h : Queued limit m m' new) (h' : Queued limit m' m'' new) :
    Queued limit m m'' new where
  kept r hr := (h'.kept r (lt_of_lt_of_le hr h.grows)).trans (h.kept r hr)
  created r hr hle := by
    by_cases hr' : r < m'.heap.length
    · obtain ⟨name, hname⟩ := h.created r hr' hle
      exact ⟨name, (h'.kept r hr').trans hname⟩
    · exact h'.created r hr (not_lt.mp hr')
  queue r := by
    obtain ⟨jobs, hjobs, hnew⟩ := h.queue r
    obtain ⟨jobs', hjobs', hnew'⟩ := h'.queue r
    refine ⟨jobs ++ jobs', by rw [hjobs', hjobs, List.append_assoc], fun job hjob => ?_⟩
    exact (List.mem_append.mp hjob).elim (hnew job) (hnew' job)
  grows := le_trans h.grows h'.grows

theorem inside (h : Queued limit m m' new) (r : RoomRef) :
    (m'.room r).inside = (m.room r).inside := by
  by_cases hr : r < m.heap.length
  · exact (congrArg GameRoom.inside (h.kept r hr) :)
  · rw [room_of_le (not_lt.mp hr)]
    by_cases hr' : r < m'.heap.length
    · obtain ⟨name, hname⟩ := h.created r hr' (not_lt.mp hr)
      exact (congrArg GameRoom.inside hname :)
    · rw [room_of_le (not_lt.mp hr')]

theorem members (h : Queued limit m m' new) (r : RoomRef) :
    (m'.room r).members = (m.room r).members :=
  (congrArg GameRoom.members (h.inside r) :)

theorem emptySinceMs (h : Queued limit m m' new) (r : RoomRef) :
    (m'.room r).emptySinceMs = (m.room r).emptySinceMs :=
  (congrArg GameRoom.emptySinceMs (h.inside r) :)

theorem pushJob (m : RoomManager) {r : RoomRef} {job : Job} (hnew : new r job) :
    Queued limit m (m.pushJob r job) new := by
  have hlength : (m.pushJob r job).heap.length = m.heap.length := length_modify _
  refine ⟨fun r' _ => room_modify_part GameRoom.withoutQueue (f := fun room => room.pushJob job)
    (fun _ => rfl) r r', fun r' hr hle => ?_, fun r' => ?_, hlength.ge⟩
  · rw [hlength] at hr
    exact absurd hr (not_lt.mpr hle)
  · rw [jobQueue_pushJob]
    split
    · rename_i h
      exact ⟨[job], rfl, fun job' hjob => List.mem_singleton.mp hjob ▸ h.1 ▸ hnew⟩
    · exact ⟨[], by simp, by simp⟩

theorem getOrCreate (m : RoomManager) (maxRoomPlayers : Int) (name : Bytes) :
    Queued maxRoomPlayers m (m.getOrCreate maxRoomPlayers name).2 new := by
  refine ⟨fun r hr => ?_, fun r hr hle => ⟨name, ?_⟩, fun r => ⟨[], ?_, by simp⟩, ?_⟩
  · rw [room_getOrCreate_old hr]
  · rw [room_getOrCreate_new hr hle]
    rfl
  · rw [jobQueue_getOrCreate, List.append_nil]
  · unfold RoomManager.getOrCreate
    split <;> simp

end Queued

namespace RoomManager

variable {m : RoomManager} {r : RoomRef}

/-- A job pushed to a room that exists is in its queue. -/
theorem mem_pushJob {job : Job} (h : r < m.heap.length) :
    job ∈ ((m.pushJob r job).room r).jobQueue := by
  rw [jobQueue_pushJob, if_pos ⟨rfl, h⟩]
  exact List.mem_append_right _ List.mem_cons_self

/-- The room `FindReconnect` returns holds a slot for the account. -/
theorem findReconnect_some {env : Env} {accountId : Bytes}
    (h : m.findReconnect env accountId = some r) : accountId ∈ (m.room r).pendingReconnects := by
  have := List.find?_some h
  exact AList.lookup_isSome.mp this

/-! ## Which rooms are in the map -/

theorem live_of_walk {env : Env} {e : Bytes × RoomRef} (h : e ∈ m.walk env) : m.Live e.2 := by
  obtain ⟨name, -, hname⟩ := List.mem_filterMap.mp h
  obtain ⟨r, hr, rfl⟩ := Option.map_eq_some_iff.mp hname
  exact Map.mem_values.mpr ⟨name, hr⟩

theorem mem_walk {env : Env} (h : m.Live r) : r ∈ (m.walk env).map Prod.snd := by
  obtain ⟨name, hname⟩ := Map.mem_values.mp h
  have hkey : name ∈ env.keyOrder.apply m.rooms.keys := by
    rw [Reorder.mem_apply]
    exact AList.lookup_isSome.mp (Option.isSome_of_eq_some hname)
  refine List.mem_map.mpr ⟨(name, r), List.mem_filterMap.mpr ⟨name, hkey, ?_⟩, rfl⟩
  rw [hname]
  rfl

theorem findReconnect_live {env : Env} {accountId : Bytes}
    (h : m.findReconnect env accountId = some r) : m.Live r := by
  obtain ⟨e, he, rfl⟩ := List.mem_map.mp (List.mem_of_find?_eq_some h)
  exact live_of_walk he

section

variable {maxRoomPlayers : Int} {name : Bytes}

/-- `GetOrCreate` takes no room out of the map. -/
theorem live_getOrCreate (h : m.Live r) : (m.getOrCreate maxRoomPlayers name).2.Live r := by
  unfold getOrCreate
  cases hname : m.rooms.lookup name with
  | some _ => exact h
  | none =>
    obtain ⟨key, hkey⟩ := Map.mem_values.mp h
    refine Map.mem_values.mpr ⟨key, Map.lookup_insert_iff.mpr (Or.inr ⟨?_, hkey⟩)⟩
    rintro rfl
    rw [hname] at hkey
    exact absurd hkey (by simp)

/-- The room it returns is in the map. -/
theorem getOrCreate_live :
    (m.getOrCreate maxRoomPlayers name).2.Live (m.getOrCreate maxRoomPlayers name).1 := by
  unfold getOrCreate
  cases hname : m.rooms.lookup name with
  | some r => exact Map.mem_values.mpr ⟨name, hname⟩
  | none => exact Map.mem_values.mpr ⟨name, AList.lookup_insert _⟩

/-- A room that it puts in the map is new. -/
theorem live_of_getOrCreate (h : (m.getOrCreate maxRoomPlayers name).2.Live r) :
    m.Live r ∨ r < (m.getOrCreate maxRoomPlayers name).2.heap.length := by
  unfold getOrCreate at h ⊢
  cases hname : m.rooms.lookup name with
  | some _ =>
    rw [hname] at h
    exact Or.inl h
  | none =>
    rw [hname] at h
    obtain ⟨key, hkey⟩ := Map.mem_values.mp h
    rcases Map.lookup_insert_iff.mp hkey with ⟨-, rfl⟩ | ⟨-, hkey⟩
    · right
      simp
    · exact Or.inl (Map.mem_values.mpr ⟨key, hkey⟩)

end

/-- **`RemoveIdleRooms`** takes out the rooms that fail its test, whatever they hold. -/
theorem live_removeIdleRooms {env : Env} {idleMs : Int} :
    (m.removeIdleRooms env idleMs).Live r ↔
      m.Live r ∧ ¬ IdleExpired env.now idleMs (m.room r) := by
  unfold Live removeIdleRooms
  rw [Map.mem_values, Map.mem_values]
  simp only [Map.lookup_keep]
  constructor
  · rintro ⟨name, hname, htest⟩
    exact ⟨⟨name, hname⟩, by simpa using htest⟩
  · rintro ⟨⟨name, hname⟩, hexpired⟩
    exact ⟨name, hname, by simpa using hexpired⟩

end RoomManager

end RealtimeServer
