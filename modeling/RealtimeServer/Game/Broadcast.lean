import RealtimeServer.Game.Announcements
import RealtimeServer.Game.RoomRuns

/-!
# One buffer for all members

`BroadcastShared` serializes a message once and hands every member the same buffer, where
`Broadcast` makes a `SendInternal` for each. The two are compared as functions of the world: what is
sent, what is counted, and who is disconnected by a failing send.

* **`broadcastShared_iff`**: among connected members the two do the same, and every frame is one
  that `TryGetPacket` reads back, exactly when the message fits into `MAX_BUF_SIZE` or there is
  nobody to send it to. `BroadcastShared` has no limit of its own.
* `broadcastShared_longMove`: a move snapshot is as long as the accounts in it.
-/

namespace RealtimeServer

open Unordered

variable {env : Env} {s : SessionRef} {message : ServerMessage} {room : GameRoom} {w : World}

/-- The message passes the size test of `SendInternal`. -/
def ServerMessage.Fits (message : ServerMessage) : Prop :=
  headerSize + message.serialize.length ≤ maxBufSize

instance (message : ServerMessage) : Decidable message.Fits := by
  unfold ServerMessage.Fits; infer_instance

/-- A message that fits is sent by either way alike. -/
theorem send_eq_sendShared (h : message.Fits) (env : Env) (s : SessionRef) (w : World) :
    w.send env s message =
      w.sendShared env s (frame message.packetId.toUInt16 message.serialize) := by
  unfold World.send World.sendShared
  rw [if_neg (not_lt.mpr h)]

theorem send_of_not_fits (h : ¬ message.Fits) (env : Env) (s : SessionRef) (w : World) :
    w.send env s message = w := by
  unfold World.send
  rw [if_pos (not_le.mp h), ite_self]

theorem broadcast_of_not_fits (h : ¬ message.Fits) : room.broadcast env message w = w :=
  List.foldl_fixed' (fun s => send_of_not_fits h env s w) _

theorem broadcastShared_eq (h : room.members.size = 0 ∨ message.Fits) :
    room.broadcastShared env message w = room.broadcast env message w := by
  unfold GameRoom.broadcastShared GameRoom.broadcast
  rcases h with hnone | hfits
  · rw [if_pos hnone, List.length_eq_zero_iff.mp hnone, List.foldl_nil]
  · have hsend : (fun (w : World) s => w.send env s message) = fun (w : World) s =>
        w.sendShared env s (frame message.packetId.toUInt16 message.serialize) := by
      funext w s
      exact send_eq_sendShared hfits env s w
    split
    · rename_i hnone
      rw [List.length_eq_zero_iff.mp hnone, List.foldl_nil]
    · rw [hsend]

/-- `TryGetPacket` reads a frame back whole when 16 bits hold the length of its payload. -/
theorem completeFrame_frame {packetId : UInt16} {payload : Bytes} :
    completeFrame (frame packetId payload) = some (frame packetId payload).length ↔
      payload.length < 2 ^ 16 := by
  have hdeclared : declaredTotal (frame packetId payload) =
      some (headerSize + payload.length % 2 ^ 16) := by
    unfold declaredTotal totalPacketSize
    rw [header_frame, UInt16.toNat_ofNat', length_frame, if_neg (by omega)]
  rw [completeFrame_eq_some, hdeclared, length_frame, Option.some_inj]
  omega

theorem completeFrame_broadcastShared {packet : SessionRef × Bytes} (h : message.Fits)
    (hsent : packet ∈ (room.broadcastShared env message w).sent.drop w.sent.length) :
    completeFrame packet.2 = some packet.2.length := by
  have hemits : Emits (fun id payload => id = message.packetId ∧ payload = message.serialize) w
      (room.broadcastShared env message w) := Emits.broadcastShared w ⟨rfl, rfl⟩
  obtain ⟨packets, hall, hframes⟩ := hemits
  rw [hall, List.drop_left] at hsent
  obtain ⟨id, payload, hframe, -, rfl⟩ := hframes packet hsent
  rw [hframe, completeFrame_frame]
  unfold ServerMessage.Fits headerSize maxBufSize at h
  omega

/-! ## A message that does not fit -/

/-- The send to a connected session leaves a mark: the packet is taken, or the session goes down. -/
theorem sendShared_marks (packet : Bytes) (h : (w.session s).disconnected = false) :
    (w.sendShared env s packet).sent.length = w.sent.length + 1 ∨
      ((w.sendShared env s packet).session s).disconnected = true := by
  have hcounted : ((w.countSent packet).session s).disconnected = false := h
  unfold World.sendShared
  rw [if_neg (Bool.eq_false_iff.mp h)]
  unfold World.countAndPost World.postSend
  rw [if_neg (Bool.eq_false_iff.mp hcounted)]
  split
  · right
    rw [World.session_disconnect_self]
  · left
    exact List.length_append

theorem length_sent_le {P : PacketID → Bytes → Prop} {w' : World} (h : Emits P w w') :
    w.sent.length ≤ w'.sent.length := by
  obtain ⟨packets, hsent, -⟩ := h
  rw [hsent, List.length_append]
  exact Nat.le_add_right _ _

/-- `BroadcastShared` has an effect where there is a member. -/
theorem broadcastShared_ne (hsome : room.members.size ≠ 0)
    (hconnected : ∀ s ∈ room.members, (w.session s).disconnected = false) :
    room.broadcastShared env message w ≠ w := by
  let send := fun (w : World) s =>
    w.sendShared env s (frame message.packetId.toUInt16 message.serialize)
  have hsends : ∀ w s, Emits (fun _ _ => True) w (send w s) :=
    fun w s => Emits.sendShared env s w trivial
  unfold GameRoom.broadcastShared
  rw [if_neg hsome]
  cases hmembers : room.members.elems with
  | nil => exact absurd (List.length_eq_zero_iff.mpr hmembers) hsome
  | cons s rest =>
    have hs : s ∈ room.members := by
      show s ∈ room.members.elems
      rw [hmembers]
      exact List.mem_cons_self
    intro hsame
    have hsame : rest.foldl send (send w s) = w := hsame
    -- what the first send did, the others do not undo
    rcases sendShared_marks (frame message.packetId.toUInt16 message.serialize)
      (hconnected s hs) with hsent | hdown
    · have hgrows : (send w s).sent.length ≤ (rest.foldl send (send w s)).sent.length :=
        length_sent_le (Emits.foldl hsends rest (send w s))
      rw [hsame, hsent] at hgrows
      omega
    · have hsent : ∀ w s, Sent env w (send w s) := fun w s => Sent.sendShared env s _ w
      have hstays := (Sent.foldl hsent rest (send w s)).down s hdown
      rw [hsame, hconnected s hs] at hstays
      exact absurd hstays (by decide)

/-- **`BroadcastShared` is `Broadcast`** among connected members, with frames that are read back
whole, exactly when the message passes the size test of `SendInternal` or the room is empty. -/
theorem broadcastShared_iff (env : Env) (message : ServerMessage) (room : GameRoom) (w : World)
    (hconnected : ∀ s ∈ room.members, (w.session s).disconnected = false) :
    (room.broadcastShared env message w = room.broadcast env message w ∧
      ∀ packet ∈ (room.broadcastShared env message w).sent.drop w.sent.length,
        completeFrame packet.2 = some packet.2.length) ↔
    room.members.size = 0 ∨ message.Fits := by
  constructor
  · rintro ⟨hsame, -⟩
    by_contra hnot
    obtain ⟨hsome, hlong⟩ := not_or.mp hnot
    rw [broadcast_of_not_fits hlong] at hsame
    exact broadcastShared_ne hsome hconnected hsame
  · intro h
    refine ⟨broadcastShared_eq h, fun packet hpacket => ?_⟩
    rcases h with hnone | hfits
    · unfold GameRoom.broadcastShared at hpacket
      rw [if_pos hnone, List.drop_length] at hpacket
      exact absurd hpacket List.not_mem_nil
    · exact completeFrame_broadcastShared hfits hpacket

/-- A room with two members. -/
def twoMembers : GameRoom :=
  (((GameRoom.new [65] 2).entered (.quiet 0) 0).entered (.quiet 0) 1)

/-- A short snapshot goes out either way. -/
theorem broadcastShared_shortMove :
    (∀ s ∈ twoMembers.members, (fourSessions.session s).disconnected = false) ∧
      twoMembers.broadcastShared (.quiet 0) (.moveBroadcast [⟨[97], 1, 1⟩]) fourSessions =
        twoMembers.broadcast (.quiet 0) (.moveBroadcast [⟨[97], 1, 1⟩]) fourSessions := by
  have hconnected : ∀ s ∈ twoMembers.members, (fourSessions.session s).disconnected = false :=
    fun _ _ => rfl
  exact ⟨hconnected, ((broadcastShared_iff (.quiet 0) (.moveBroadcast [⟨[97], 1, 1⟩]) twoMembers
    fourSessions hconnected).mpr (Or.inr (by decide))).1⟩

/-! ## Snapshots of moves -/

theorem length_actor_le (actor : MovedActor) :
    actor.accountId.length ≤ actor.serialize.length := by
  unfold MovedActor.serialize stringField bytesField
  split
  · rename_i hnone
    rw [hnone]
    exact Nat.zero_le _
  · simp only [List.length_append, List.length_cons]
    omega

/-- A snapshot is as long as any account in it. -/
theorem length_moveBroadcast_le {actors : List MovedActor} {actor : MovedActor}
    (h : actor ∈ actors) :
    actor.accountId.length ≤ (ServerMessage.moveBroadcast actors).serialize.length := by
  have hfield : actor.accountId.length ≤ (bytesField 1 actor.serialize).length := by
    have := length_actor_le actor
    unfold bytesField
    simp only [List.length_append, List.length_cons]
    omega
  have hmem : bytesField 1 actor.serialize ∈
      actors.map fun actor => bytesField 1 actor.serialize :=
    List.mem_map_of_mem (f := fun actor : MovedActor => bytesField 1 actor.serialize) h
  exact hfield.trans (List.sublist_flatten_of_mem hmem).length_le

/-- The shared buffer goes to both members. -/
theorem sent_twoMembers (message : ServerMessage) :
    (twoMembers.broadcastShared (.quiet 0) message fourSessions).sent =
      [(1, frame message.packetId.toUInt16 message.serialize),
        (0, frame message.packetId.toUInt16 message.serialize)] := rfl

/-- A snapshot with one mover, whose account has `n` bytes. -/
def longMove (n : Nat) : ServerMessage := .moveBroadcast [⟨List.replicate n 97, 1, 1⟩]

theorem length_longMove (n : Nat) : n ≤ (longMove n).serialize.length := by
  have hle := length_moveBroadcast_le (List.mem_singleton_self
    (⟨List.replicate n 97, 1, 1⟩ : MovedActor))
  rwa [List.length_replicate] at hle

theorem not_fits_of_lt (h : maxBufSize < message.serialize.length) : ¬ message.Fits := by
  unfold ServerMessage.Fits
  omega

/-- `Broadcast` refuses it; `BroadcastShared` sends a frame that is not read back whole. -/
theorem broadcastShared_longMove :
    (twoMembers.broadcast (.quiet 0) (longMove 70000) fourSessions).sent = [] ∧
      (twoMembers.broadcastShared (.quiet 0) (longMove 70000) fourSessions).sent =
        [(1, frame (longMove 70000).packetId.toUInt16 (longMove 70000).serialize),
          (0, frame (longMove 70000).packetId.toUInt16 (longMove 70000).serialize)] ∧
      completeFrame (frame (longMove 70000).packetId.toUInt16 (longMove 70000).serialize) ≠
        some (frame (longMove 70000).packetId.toUInt16 (longMove 70000).serialize).length := by
  have hlong := length_longMove 70000
  have hlimit : maxBufSize < 70000 := by decide
  refine ⟨?_, sent_twoMembers _, ?_⟩
  · rw [broadcast_of_not_fits (not_fits_of_lt (hlimit.trans_le hlong))]
    rfl
  · rw [Ne, completeFrame_frame]
    omega

end RealtimeServer
