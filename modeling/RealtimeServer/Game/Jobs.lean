import RealtimeServer.Game.GameRoom

/-!
# What jobs do to members, pointers, marks and slots

`does_run` is the case distinction of `Job.run` made once: the five things a job may do to its room.
From it and from `Job.moved` one aspect at a time, in the form the invariants need it:

* `mem_run`, `room_run`: the members, and every session's room pointer.
* `emptySinceMs_run`: the time since when the room is empty.
* `ready_run`, `starts_of_run`: the ready marks, and when a game starts.
* `move_run`: the pending moves.
* `slot_of_run`, `slot_dropOut`, `slot_kept`, `slot_rejoin`: the reconnect slots.
-/

namespace RealtimeServer

open Unordered

namespace GameRoom

variable (room : GameRoom) (accountId : Bytes)

@[simp] theorem members_toggleReady : (room.toggleReady accountId).members = room.members := by
  unfold toggleReady; split <;> rfl

@[simp] theorem state_toggleReady : (room.toggleReady accountId).state = room.state := by
  unfold toggleReady; split <;> rfl

@[simp] theorem members_readied : (room.readied accountId).members = room.members := by
  unfold readied toggleReady; split_ifs <;> rfl

@[simp] theorem pendingReconnects_readied :
    (room.readied accountId).pendingReconnects = room.pendingReconnects := by
  unfold readied toggleReady; split_ifs <;> rfl

@[simp] theorem pendingMoves_readied :
    (room.readied accountId).pendingMoves = room.pendingMoves := by
  unfold readied toggleReady; split_ifs <;> rfl

@[simp] theorem name_readied : (room.readied accountId).name = room.name := by
  unfold readied toggleReady; split_ifs <;> rfl

@[simp] theorem maxPlayers_readied : (room.readied accountId).maxPlayers = room.maxPlayers := by
  unfold readied toggleReady; split_ifs <;> rfl

@[simp] theorem emptySinceMs_readied :
    (room.readied accountId).emptySinceMs = room.emptySinceMs := by
  unfold readied toggleReady; split_ifs <;> rfl

@[simp] theorem jobQueue_readied : (room.readied accountId).jobQueue = room.jobQueue := by
  unfold readied toggleReady; split_ifs <;> rfl

variable {room accountId}

theorem mem_toggleReady {account : Bytes} :
    account ∈ (room.toggleReady accountId).readyPlayers ↔
      (account ≠ accountId ∧ account ∈ room.readyPlayers) ∨
        (account = accountId ∧ accountId ∉ room.readyPlayers) := by
  unfold toggleReady
  split
  · simp only [Finset.mem_erase]
    grind
  · simp only [Finset.mem_insert]
    grind

end GameRoom

namespace Job

/-- The job takes `s` into the room. -/
def TakesIn (room : GameRoom) (s : SessionRef) (job : Job) : Prop :=
  (job = .handleEnter s ∧ room.Admits) ∨ job = .handleRejoin s

/-- The job is a leave of `s`. -/
def Leaves (s : SessionRef) (job : Job) : Prop := job = .handleLeave s ∨ job = .leaveAndAck s

/-- The session a rejoin job is for. -/
def rejoins : Job → Option SessionRef
  | handleRejoin s => some s
  | _ => none

instance (room : GameRoom) (s : SessionRef) (job : Job) : Decidable (job.TakesIn room s) := by
  unfold TakesIn; infer_instance

instance (s : SessionRef) (job : Job) : Decidable (job.Leaves s) := by
  unfold Leaves; infer_instance

variable {env : Env} {this : RoomRef} {room : GameRoom} {w : World} {job : Job} {s t : SessionRef}

theorem rejoins_iff : job.rejoins = some s ↔ job = .handleRejoin s := by
  cases job <;> simp [rejoins]

/-- A job takes in one session at most, and none that it takes out. -/
theorem takesIn_unique (hs : job.TakesIn room s)
    (ht : job.TakesIn room t) : s = t := by
  rcases hs with ⟨rfl, -⟩ | rfl
  · rcases ht with ⟨ht, -⟩ | ht
    · exact handleEnter.inj ht
    · exact absurd ht (by simp)
  · rcases ht with ⟨ht, -⟩ | ht
    · exact absurd ht (by simp)
    · exact handleRejoin.inj ht

theorem not_leaves_of_takesIn (hs : job.TakesIn room s) :
    ¬ job.Leaves t := by
  rintro (rfl | rfl)
  · rcases hs with ⟨hs, -⟩ | hs <;> exact absurd hs (by simp)
  · rcases hs with ⟨hs, -⟩ | hs <;> exact absurd hs (by simp)

theorem leaves_unique (hs : job.Leaves s) (ht : job.Leaves t) : s = t := by
  rcases hs with rfl | rfl
  · exact ht.elim (fun h => handleLeave.inj h) fun h => absurd h (by simp)
  · exact ht.elim (fun h => absurd h (by simp)) fun h => leaveAndAck.inj h

/-! ## What becomes of the room -/

/-- What a job may do to its room. -/
inductive Does (env : Env) (room : GameRoom) (w : World) (job : Job) (room' : GameRoom) : Prop
  | enters (s : SessionRef) (job : job = .handleEnter s) (admits : room.Admits)
      (room : room' = room.entered env s)
  | leaves (s : SessionRef) (job : job.Leaves s) (member : s ∈ room.members)
      (room : room' = room.left env s (w.session s).accountId)
  | rejoins (s : SessionRef) (job : job = .handleRejoin s)
      (room : room' = room.rejoined env s (w.session s).accountId)
  | readies (accountId : Bytes) (job : job = .handleReady accountId)
      (room : room' = room.readied accountId)
  /-- At most a move is noted. -/
  | stays (moves : Map Bytes (UInt32 × UInt32)) (takesIn : ∀ s, ¬ job.TakesIn room s)
      (leaves : ∀ s, job.Leaves s → s ∉ room.members)
      (room : room' = { room with pendingMoves := moves })

theorem outcome_leave (hleaves : job.Leaves s) : job.outcome env room w =
    if s ∈ room.members then room.left env s (w.session s).accountId else room := by
  rcases hleaves with rfl | rfl <;> rfl

theorem does_leave (hleaves : job.Leaves s) : Does env room w job (job.outcome env room w) := by
  rw [outcome_leave hleaves]
  by_cases hmem : s ∈ room.members
  · rw [if_pos hmem]
    exact .leaves s hleaves hmem rfl
  · rw [if_neg hmem]
    refine .stays room.pendingMoves (fun t htakes => ?_) (fun t ht => ?_) rfl
    · rcases hleaves with rfl | rfl <;> simp [TakesIn] at htakes
    · rcases hleaves with rfl | rfl
      · simp only [Leaves, handleLeave.injEq, reduceCtorEq, or_false] at ht
        rwa [← ht]
      · simp only [Leaves, leaveAndAck.injEq, reduceCtorEq, false_or] at ht
        rwa [← ht]

/-- **One job and its room.** -/
theorem does_run : Does env room w job (job.run env this room w).1 := by
  rw [(run_spec job).1]
  cases job with
  | handleEnter session =>
    by_cases h : room.Admits
    · exact .enters session rfl h (if_pos h)
    · refine .stays room.pendingMoves (fun s hs => ?_) (fun s hs => ?_) (if_neg h)
      · simp [TakesIn, h] at hs
      · simp [Leaves] at hs
  | handleLeave session => exact does_leave (Or.inl rfl)
  | leaveAndAck session => exact does_leave (Or.inr rfl)
  | handleRejoin session => exact .rejoins session rfl rfl
  | chat sender message =>
    refine .stays room.pendingMoves (fun s hs => ?_) (fun s hs => ?_) rfl
    · simp [TakesIn] at hs
    · simp [Leaves] at hs
  | handleMove accountId x y =>
    have hmoves : ∃ moves, room.handleMove accountId x y = { room with pendingMoves := moves } := by
      unfold GameRoom.handleMove
      split
      · exact ⟨_, rfl⟩
      · exact ⟨_, rfl⟩
    obtain ⟨moves, hmoves⟩ := hmoves
    refine .stays moves (fun s hs => ?_) (fun s hs => ?_) hmoves
    · simp [TakesIn] at hs
    · simp [Leaves] at hs
  | handleReady accountId => exact .readies accountId rfl rfl

/-! ## Members and room pointers -/

theorem accountId_moved : ((job.moved this room w).session s).accountId =
    (w.session s).accountId := by
  unfold moved
  split
  · split <;> simp
  · split <;> simp
  · split <;> simp
  · simp
  · rfl
  · rfl
  · rfl

theorem disconnected_moved : ((job.moved this room w).session s).disconnected =
    (w.session s).disconnected := by
  unfold moved
  split
  · split <;> simp
  · split <;> simp
  · split <;> simp
  · simp
  · rfl
  · rfl
  · rfl

theorem room_moved : ((job.moved this room w).session s).room =
    if job.TakesIn room s then some this
    else if job.Leaves s ∧ s ∈ room.members then none
    else (w.session s).room := by
  unfold TakesIn Leaves
  cases job with
  | handleEnter session =>
    by_cases h : room.Admits
    · by_cases hs : s = session
      · subst hs; simp [moved, h]
      · simp [moved, h, hs, Ne.symm hs]
    · simp [moved, h]
  | handleLeave session =>
    by_cases h : session ∈ room.members
    · by_cases hs : s = session
      · subst hs; simp [moved, h]
      · simp [moved, h, hs, Ne.symm hs]
    · simp [moved, h]
      grind
  | leaveAndAck session =>
    by_cases h : session ∈ room.members
    · by_cases hs : s = session
      · subst hs; simp [moved, h]
      · simp [moved, h, hs, Ne.symm hs]
    · simp [moved, h]
      grind
  | handleRejoin session =>
    by_cases hs : s = session
    · subst hs; simp [moved]
    · simp [moved, hs, Ne.symm hs]
  | chat sender message => simp [moved]
  | handleMove accountId x y => simp [moved]
  | handleReady accountId => simp [moved]

theorem mem_run : s ∈ (job.run env this room w).1.members ↔
    job.TakesIn room s ∨ (s ∈ room.members ∧ ¬ job.Leaves s) := by
  cases @does_run env this room w job with
  | enters session hjob hadmits hroom =>
    rw [hroom, hjob]
    simp [TakesIn, Leaves, GameRoom.entered, hadmits, eq_comm]
  | leaves session hjob hmem hroom =>
    rw [hroom]
    rcases hjob with rfl | rfl <;> simp [TakesIn, Leaves, GameRoom.left, and_comm, eq_comm]
  | rejoins session hjob hroom =>
    rw [hroom, hjob]
    simp [TakesIn, Leaves, GameRoom.rejoined, GameRoom.entered, eq_comm]
  | readies accountId hjob hroom =>
    rw [hroom, hjob]
    simp [TakesIn, Leaves]
  | stays moves htakes hleaves hroom =>
    rw [hroom]
    constructor
    · intro hs
      exact Or.inr ⟨hs, fun hleave => hleaves s hleave hs⟩
    · rintro (hs | ⟨hs, -⟩)
      · exact absurd hs (htakes s)
      · exact hs

theorem accountId_run : ((job.run env this room w).2.session s).accountId =
    (w.session s).accountId :=
  ((run_spec job).2.accountId s).trans accountId_moved

theorem room_run : ((job.run env this room w).2.session s).room =
    if job.TakesIn room s then some this
    else if job.Leaves s ∧ s ∈ room.members then none
    else (w.session s).room :=
  ((run_spec job).2.room s).trans room_moved

theorem down_run (h : (w.session s).disconnected = true) :
    ((job.run env this room w).2.session s).disconnected = true :=
  (run_spec job).2.down s (disconnected_moved.trans h)

theorem failed_run (h : ((job.run env this room w).2.session s).disconnected = true) :
    (w.session s).disconnected = true ∨ env.SendFails s := by
  have := (run_spec job).2.failed s h
  rwa [disconnected_moved] at this

theorem jobQueue_run : (job.run env this room w).1.jobQueue = room.jobQueue := by
  cases @does_run env this room w job with
  | enters _ _ _ hroom => rw [hroom]; rfl
  | leaves _ _ _ hroom => rw [hroom]; rfl
  | rejoins _ _ hroom => rw [hroom]; rfl
  | readies _ _ hroom => rw [hroom, GameRoom.jobQueue_readied]
  | stays _ _ _ hroom => rw [hroom]

/-- A room that counts as occupied while it has members still does behind a job. -/
theorem emptySinceMs_run (hoccupied : ∀ t ∈ room.members, room.emptySinceMs = 0)
    (h : s ∈ (job.run env this room w).1.members) :
    (job.run env this room w).1.emptySinceMs = 0 := by
  cases @does_run env this room w job with
  | enters session hjob hadmits hroom => rw [hroom]; rfl
  | leaves session hjob hmem hroom =>
    rw [hroom] at h ⊢
    have hstays : s ∈ room.members.erase session := h
    have hsome : (room.members.erase session).size ≠ 0 := fun hzero =>
      IterSet.size_eq_zero_iff.mp hzero s hstays
    unfold GameRoom.left
    simp only [if_neg hsome]
    exact hoccupied s (IterSet.mem_erase.mp hstays).2
  | rejoins session hjob hroom => rw [hroom]; rfl
  | readies accountId hjob hroom =>
    rw [hroom, GameRoom.members_readied] at h
    rw [hroom, GameRoom.emptySinceMs_readied]
    exact hoccupied s h
  | stays moves htakes hleaves hroom =>
    rw [hroom] at h ⊢
    exact hoccupied s h

/-! ## Ready marks -/

/-- A mark after a job was there before, on no member the job took away, or it is the one toggled.
-/
theorem ready_run {account : Bytes}
    (h : account ∈ (job.run env this room w).1.readyPlayers) :
    (account ∈ room.readyPlayers ∧
        ∀ s ∈ room.members, job.Leaves s → (w.session s).accountId ≠ account) ∨
      (job = .handleReady account ∧ room.state = .waiting ∧ account ∉ room.readyPlayers) := by
  cases @does_run env this room w job with
  | enters session hjob hadmits hroom =>
    rw [hroom] at h
    refine Or.inl ⟨h, fun s _ hleave => ?_⟩
    simp [hjob, Leaves] at hleave
  | leaves session hjob hmem hroom =>
    rw [hroom, GameRoom.left, Finset.mem_erase] at h
    refine Or.inl ⟨h.2, fun s _ hleave => ?_⟩
    have hsame : s = session := by
      rcases hjob with rfl | rfl <;> simpa [Leaves, eq_comm] using hleave
    rw [hsame]
    exact h.1.symm
  | rejoins session hjob hroom =>
    rw [hroom] at h
    refine Or.inl ⟨h, fun s _ hleave => ?_⟩
    simp [hjob, Leaves] at hleave
  | readies accountId hjob hroom =>
    have hstays : ∀ s ∈ room.members, job.Leaves s → (w.session s).accountId ≠ account := by
      intro s _ hleave
      simp [hjob, Leaves] at hleave
    rw [hroom, GameRoom.readied] at h
    split at h
    · exact Or.inl ⟨h, hstays⟩
    · rename_i hwaiting
      split at h
      · exact absurd h (by simp)
      · rcases GameRoom.mem_toggleReady.mp h with h | ⟨rfl, h⟩
        · exact Or.inl ⟨h.2, hstays⟩
        · exact Or.inr ⟨hjob, not_not.mp hwaiting, h⟩
  | stays moves htakes hleaves hroom =>
    rw [hroom] at h
    exact Or.inl ⟨h, fun s hs hleave => absurd hs (hleaves s hleave)⟩

/-- A waiting room starts a game only when a toggle makes its start condition true. -/
theorem starts_of_run (hw : room.state = .waiting)
    (h : (job.run env this room w).1.state = .inGame) :
    ∃ account, job = .handleReady account ∧ (room.toggleReady account).Starts := by
  cases @does_run env this room w job with
  | enters session hjob hadmits hroom =>
    rw [hroom] at h
    simp [GameRoom.entered, hw] at h
  | leaves session hjob hmem hroom =>
    rw [hroom] at h
    simp [GameRoom.left, hw] at h
  | rejoins session hjob hroom =>
    rw [hroom] at h
    simp [GameRoom.rejoined, GameRoom.entered, hw] at h
  | readies accountId hjob hroom =>
    refine ⟨accountId, hjob, ?_⟩
    rw [hroom, GameRoom.readied] at h
    simp only [hw, ne_eq, not_true_eq_false, if_false] at h
    by_contra hstarts
    rw [if_neg hstarts, GameRoom.state_toggleReady, hw] at h
    exact absurd h (by decide)
  | stays moves htakes hleaves hroom =>
    rw [hroom] at h
    simp [hw] at h

/-! ## Pending moves -/

/-- A pending move after a leave was there before. -/
theorem move_of_leave {account : Bytes} (hleaves : job.Leaves s)
    (h : account ∈ (job.outcome env room w).pendingMoves) : account ∈ room.pendingMoves := by
  rw [outcome_leave hleaves] at h
  split at h
  · exact (AList.mem_erase.mp h).2
  · exact h

/-- A pending move after a job was there before, or it is the one noted. -/
theorem move_run {account : Bytes} (h : account ∈ (job.run env this room w).1.pendingMoves) :
    account ∈ room.pendingMoves ∨ ∃ x y, job = .handleMove account x y := by
  rw [(run_spec job).1] at h
  cases job with
  | handleEnter session =>
    simp only [outcome] at h
    split at h
    · exact Or.inl h
    · exact Or.inl h
  | handleLeave session => exact Or.inl (move_of_leave (Or.inl rfl) h)
  | leaveAndAck session => exact Or.inl (move_of_leave (Or.inr rfl) h)
  | handleRejoin session => exact Or.inl h
  | chat sender message => exact Or.inl h
  | handleMove accountId x y =>
    simp only [outcome, GameRoom.handleMove] at h
    split at h
    · exact Or.inl h
    · rcases (AList.mem_insert _).mp h with rfl | h
      · exact Or.inr ⟨x, y, rfl⟩
      · exact Or.inl h
  | handleReady accountId =>
    simp only [outcome, GameRoom.pendingMoves_readied] at h
    exact Or.inl h

/-! ## Reconnect slots -/

/-- A slot after a leave was there before, or the account that left just got it. -/
theorem slot_of_left {account accountId : Bytes} {slot : ReconnectSlot}
    (h : (room.left env s accountId).pendingReconnects.lookup account = some slot) :
    room.pendingReconnects.lookup account = some slot ∨
      (room.state = .inGame ∧ slot = ⟨env.now⟩ ∧ accountId = account) := by
  unfold GameRoom.left at h
  by_cases hgame : room.state = .inGame
  · simp only [if_pos hgame] at h
    rcases Map.lookup_insert_iff.mp h with ⟨haccount, hslot⟩ | ⟨-, h⟩
    · exact Or.inr ⟨hgame, hslot, haccount.symm⟩
    · exact Or.inl h
  · simp only [if_neg hgame] at h
    exact Or.inl h

/-- A slot after a job was there before, or a member with that account just left a running game. -/
theorem slot_of_run {account : Bytes} {slot : ReconnectSlot}
    (h : (job.run env this room w).1.pendingReconnects.lookup account = some slot) :
    room.pendingReconnects.lookup account = some slot ∨
      (room.state = .inGame ∧ slot = ⟨env.now⟩ ∧
        ∃ s ∈ room.members, job.Leaves s ∧ (w.session s).accountId = account) := by
  cases @does_run env this room w job with
  | enters session hjob hadmits hroom =>
    rw [hroom] at h
    exact Or.inl h
  | leaves session hjob hmem hroom =>
    rw [hroom] at h
    rcases slot_of_left h with h | ⟨hgame, hslot, haccount⟩
    · exact Or.inl h
    · exact Or.inr ⟨hgame, hslot, session, hmem, hjob, haccount⟩
  | rejoins session hjob hroom =>
    rw [hroom] at h
    exact Or.inl (Map.lookup_erase_iff.mp h).2
  | readies accountId hjob hroom =>
    rw [hroom, GameRoom.pendingReconnects_readied] at h
    exact Or.inl h
  | stays moves htakes hleaves hroom =>
    rw [hroom] at h
    exact Or.inl h

/-- Who drops out of a running game gets a slot. -/
theorem slot_dropOut (hgame : room.state = .inGame) (hmem : s ∈ room.members)
    (hleaves : job.Leaves s) :
    (job.run env this room w).1.pendingReconnects.lookup (w.session s).accountId =
      some ⟨env.now⟩ := by
  rw [(run_spec job).1, outcome_leave hleaves, if_pos hmem]
  unfold GameRoom.left
  simp only [if_pos hgame]
  exact AList.lookup_insert _

/-- Every other slot stays as it is, but for that of an account that rejoins. -/
theorem slot_kept {account : Bytes}
    (hleaves : room.state = .inGame →
      ∀ s ∈ room.members, job.Leaves s → (w.session s).accountId ≠ account)
    (hrejoins : ∀ s, job = .handleRejoin s → (w.session s).accountId ≠ account) :
    (job.run env this room w).1.pendingReconnects.lookup account =
      room.pendingReconnects.lookup account := by
  cases @does_run env this room w job with
  | enters session _ hadmits hroom =>
    rw [hroom]
    rfl
  | leaves session hjob hmem hroom =>
    rw [hroom]
    unfold GameRoom.left
    by_cases hgame : room.state = .inGame
    · simp only [if_pos hgame]
      exact AList.lookup_insert_ne (hleaves hgame session hmem hjob).symm
    · simp only [if_neg hgame]
  | rejoins session hjob hroom =>
    rw [hroom]
    exact AList.lookup_erase_ne (hrejoins session hjob).symm
  | readies accountId _ hroom => rw [hroom, GameRoom.pendingReconnects_readied]
  | stays moves htakes hleaves hroom => rw [hroom]

/-- A rejoin leaves no slot for its account. -/
theorem slot_rejoin : (w.session s).accountId ∉
    ((handleRejoin s).run env this room w).1.pendingReconnects := by
  rw [(run_spec _).1]
  simp only [outcome, GameRoom.rejoined, AList.mem_erase]
  exact fun h => h.1 rfl

end Job

end RealtimeServer
