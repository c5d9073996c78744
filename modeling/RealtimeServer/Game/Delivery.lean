import RealtimeServer.Game.Broadcast

/-!
# What a session is sent

Which packets of one kind go to one session, from one world to a later one. A send to a session that
is disconnected, or that `WSASend` fails for, leaves the session disconnected, so what a session
that is still connected has got is a list that each method adds to.

* `Gets s id payloads w w'`: if `s` is connected in `w'`, the packets with the id `id` that it was
  sent from `w` on have these payloads. `gets_send` and its like say what each send adds.
* `gets_broadcastRoomState` and its like: what the methods of a room send to one member.
-/

namespace RealtimeServer

open Unordered

/-- The packet is of this kind, and for this session. -/
def IsTo (s : SessionRef) (id : PacketID) (packet : SessionRef × Bytes) : Prop :=
  packet.1 = s ∧ (PacketHeader.ofBytes packet.2).packetId = id.toUInt16

instance (s : SessionRef) (id : PacketID) : DecidablePred (IsTo s id) := fun packet =>
  inferInstanceAs (Decidable (packet.1 = s ∧ _ = id.toUInt16))

/-- The payloads of the packets of this kind that `s` was sent from `w` to `w'`. -/
def World.received (w w' : World) (s : SessionRef) (id : PacketID) : List Bytes :=
  ((w'.sent.drop w.sent.length).filter fun packet => IsTo s id packet).map fun packet =>
    packet.2.drop headerSize

/-- From `w` to `w'` packets were sent, and `s`, if it is still connected, has got these. -/
structure Gets (s : SessionRef) (id : PacketID) (payloads : List Bytes) (w w' : World) :
    Prop where
  sent : w.sent <+: w'.sent
  down : (w.session s).disconnected = true → (w'.session s).disconnected = true
  received : (w'.session s).disconnected = false → w.received w' s id = payloads

variable {env : Env} {s t : SessionRef} {id id' : PacketID} {payload : Bytes}
  {payloads payloads' : List Bytes} {w w' w'' : World} {room : GameRoom}

theorem isTo_frame : IsTo s id (t, frame id'.toUInt16 payload) ↔ t = s ∧ id' = id := by
  unfold IsTo
  rw [header_frame]
  constructor
  · rintro ⟨hs, hid⟩
    exact ⟨hs, toUInt16_injective hid⟩
  · rintro ⟨hs, rfl⟩
    exact ⟨hs, rfl⟩

theorem filter_isTo :
    ([(t, frame id'.toUInt16 payload)].filter fun packet => IsTo s id packet) =
      if t = s ∧ id' = id then [(t, frame id'.toUInt16 payload)] else [] := by
  simp only [List.filter_cons, List.filter_nil, decide_eq_true_eq, isTo_frame]

namespace Gets

/-- Nothing is sent, and nobody goes down. -/
theorem of_same (hsent : w'.sent = w.sent)
    (hdown : (w'.session s).disconnected = (w.session s).disconnected) : Gets s id [] w w' where
  sent := by rw [hsent]
  down h := hdown.trans h
  received _ := by
    unfold World.received
    rw [hsent, List.drop_length]
    rfl

theorem refl (s : SessionRef) (id : PacketID) (w : World) : Gets s id [] w w := of_same rfl rfl

theorem trans (h : Gets s id payloads w w') (h' : Gets s id payloads' w' w'') :
    Gets s id (payloads ++ payloads') w w'' where
  sent := h.sent.trans h'.sent
  down hdown := h'.down (h.down hdown)
  received hup := by
    have hup' : (w'.session s).disconnected = false :=
      Bool.eq_false_iff.mpr fun hdown => Bool.eq_false_iff.mp hup (h'.down hdown)
    obtain ⟨packets, hsent⟩ := h.sent
    obtain ⟨packets', hsent'⟩ := h'.sent
    rw [← h.received hup', ← h'.received hup]
    unfold World.received
    rw [← hsent', ← hsent, List.drop_left, List.drop_left, List.append_assoc, List.drop_left,
      List.filter_append, List.map_append]

/-- With nothing of this kind behind it. -/
theorem then_none (h : Gets s id payloads w w') (h' : Gets s id [] w' w'') :
    Gets s id payloads w w'' := by
  have hall := h.trans h'
  rwa [List.append_nil] at hall

/-- With nothing of this kind before it. -/
theorem none_then (h : Gets s id [] w w') (h' : Gets s id payloads w' w'') :
    Gets s id payloads w w'' := h.trans h'

/-- A session that is not connected anymore has no say. -/
theorem of_down (hsent : w.sent <+: w'.sent) (hdown : (w'.session s).disconnected = true) :
    Gets s id payloads w w' :=
  ⟨hsent, fun _ => hdown, fun hup => absurd hdown (Bool.eq_false_iff.mp hup)⟩

/-- A send to a session that is not connected. -/
theorem of_disconnected {p : Prop} [Decidable p] (h : (w.session t).disconnected = true) :
    Gets s id (if t = s ∧ p then payloads else []) w w := by
  by_cases hts : t = s
  · exact of_down List.prefix_rfl (hts ▸ h)
  · rw [if_neg fun hto => hts hto.1]
    exact refl s id w

/-! ## Sends -/

theorem postSend (env : Env) (t : SessionRef) (id' : PacketID) (payload : Bytes) (w : World) :
    Gets s id (if t = s ∧ id' = id then [payload] else []) w
      (w.postSend env t (frame id'.toUInt16 payload)) := by
  unfold World.postSend
  by_cases hdown : (w.session t).disconnected = true
  · rw [if_pos hdown]
    exact of_disconnected hdown
  · rw [if_neg hdown]
    by_cases hfails : env.wsaSendFails t w.sent.length = true
    · rw [if_pos hfails]
      by_cases hts : t = s
      · refine of_down List.prefix_rfl ?_
        rw [hts, World.session_disconnect_self]
      · rw [if_neg fun hto => hts hto.1]
        refine of_same rfl ?_
        rw [World.session_disconnect_ne (Ne.symm hts)]
    · rw [if_neg hfails]
      refine ⟨List.prefix_append _ _, fun hdown => hdown, fun _ => ?_⟩
      unfold World.received
      rw [List.drop_left, filter_isTo]
      split
      · rfl
      · rfl

theorem sendShared (env : Env) (t : SessionRef) (id' : PacketID) (payload : Bytes) (w : World) :
    Gets s id (if t = s ∧ id' = id then [payload] else []) w
      (w.sendShared env t (frame id'.toUInt16 payload)) := by
  unfold World.sendShared
  by_cases hdown : (w.session t).disconnected = true
  · rw [if_pos hdown]
    exact of_disconnected hdown
  · rw [if_neg hdown]
    have hcounted : Gets s id [] w (w.countSent (frame id'.toUInt16 payload)) := of_same rfl rfl
    exact hcounted.none_then (postSend env t id' payload _)

theorem sendRaw (env : Env) (t : SessionRef) (id' : PacketID) (payload : Bytes) (w : World) :
    Gets s id (if t = s ∧ id' = id ∧ headerSize + payload.length ≤ maxBufSize then [payload]
      else []) w (w.sendRaw env t id' payload) := by
  by_cases hfits : headerSize + payload.length ≤ maxBufSize
  · have hsame : w.sendRaw env t id' payload =
        w.sendShared env t (frame id'.toUInt16 payload) := by
      unfold World.sendRaw World.sendShared
      rw [if_neg (not_lt.mpr hfits)]
    have hsend : Gets s id _ w (w.sendShared env t (frame id'.toUInt16 payload)) :=
      sendShared env t id' payload w
    rw [hsame]
    simpa only [hfits, and_true] using hsend
  · have hsame : w.sendRaw env t id' payload = w := by
      unfold World.sendRaw
      rw [if_pos (not_le.mp hfits), ite_self]
    rw [hsame, if_neg fun hto => hfits hto.2.2]
    exact refl s id w

theorem send (env : Env) (t : SessionRef) (message : ServerMessage) (w : World) :
    Gets s id (if t = s ∧ message.packetId = id ∧ message.Fits then [message.serialize] else []) w
      (w.send env t message) := by
  have hraw : Gets s id _ w (w.send env t message) :=
    sendRaw env t message.packetId message.serialize w
  have hfits : (t = s ∧ message.packetId = id ∧
      headerSize + message.serialize.length ≤ maxBufSize) ↔
      t = s ∧ message.packetId = id ∧ message.Fits := Iff.rfl
  rwa [if_congr hfits rfl rfl] at hraw

/-- A packet of another kind. -/
theorem send_other {message : ServerMessage} (h : message.packetId ≠ id) (env : Env)
    (t : SessionRef) (w : World) : Gets s id [] w (w.send env t message) := by
  have hsend : Gets s id _ w (w.send env t message) := send env t message w
  rwa [if_neg fun hto => h hto.2.1] at hsend

/-- A loop over different sessions. -/
theorem foldl {f : World → SessionRef → World}
    (hf : ∀ w t, Gets s id (if t = s then payloads else []) w (f w t)) {l : List SessionRef}
    (hl : l.Nodup) (w : World) : Gets s id (if s ∈ l then payloads else []) w (l.foldl f w) := by
  induction l generalizing w with
  | nil => exact refl s id w
  | cons t l ih =>
    obtain ⟨hnot, hl⟩ := List.nodup_cons.mp hl
    have hrest := ih hl (f w t)
    by_cases hts : t = s
    · subst hts
      rw [if_neg hnot] at hrest
      rw [if_pos List.mem_cons_self]
      have hfirst := hf w t
      rw [if_pos rfl] at hfirst
      exact hfirst.then_none hrest
    · have hfirst := hf w t
      rw [if_neg hts] at hfirst
      have hmem : s ∈ t :: l ↔ s ∈ l := by
        rw [List.mem_cons, or_iff_right (Ne.symm hts)]
      rw [if_congr hmem rfl rfl]
      exact hfirst.none_then hrest

/-! ## What the methods of a room send -/

theorem broadcast (env : Env) (message : ServerMessage) (room : GameRoom) (w : World) :
    Gets s id (if s ∈ room.members then
      if message.packetId = id ∧ message.Fits then [message.serialize] else [] else []) w
      (room.broadcast env message w) := by
  refine foldl (fun w t => ?_) room.members.nodup w
  have hsend : Gets s id _ w (w.send env t message) := send env t message w
  rwa [ite_and] at hsend

theorem broadcast_other {message : ServerMessage} (h : message.packetId ≠ id) (env : Env)
    (room : GameRoom) (w : World) : Gets s id [] w (room.broadcast env message w) := by
  have hall : Gets s id _ w (room.broadcast env message w) := broadcast env message room w
  have hnot : ¬ (message.packetId = id ∧ message.Fits) := fun hto => h hto.1
  rwa [if_neg hnot, ite_self] at hall

theorem broadcastExcept_other {message : ServerMessage} (h : message.packetId ≠ id) (env : Env)
    (exclude : SessionRef) (room : GameRoom) (w : World) :
    Gets s id [] w (room.broadcastExcept env message exclude w) := by
  have hone : ∀ w t, Gets s id (if t = s then [] else []) w
      (if t ≠ exclude then w.send env t message else w) := by
    intro w t
    rw [ite_self]
    by_cases ht : t ≠ exclude
    · rw [if_pos ht]
      exact send_other h env t w
    · rw [if_neg ht]
      exact refl s id w
  have hall : Gets s id _ w (room.broadcastExcept env message exclude w) :=
    foldl hone room.members.nodup w
  rwa [ite_self] at hall

theorem broadcastShared (env : Env) (message : ServerMessage) (room : GameRoom) (w : World) :
    Gets s id (if s ∈ room.members then
      if message.packetId = id then [message.serialize] else [] else []) w
      (room.broadcastShared env message w) := by
  unfold GameRoom.broadcastShared
  by_cases hnone : room.members.size = 0
  · rw [if_pos hnone, if_neg (IterSet.size_eq_zero_iff.mp hnone s)]
    exact refl s id w
  · rw [if_neg hnone]
    refine foldl (fun w t => ?_) room.members.nodup w
    have hsend : Gets s id _ w (w.sendShared env t (frame message.packetId.toUInt16 _)) :=
      sendShared env t message.packetId message.serialize w
    rwa [ite_and] at hsend

theorem broadcastShared_other {message : ServerMessage} (h : message.packetId ≠ id) (env : Env)
    (room : GameRoom) (w : World) : Gets s id [] w (room.broadcastShared env message w) := by
  have hall : Gets s id _ w (room.broadcastShared env message w) :=
    broadcastShared env message room w
  rwa [if_neg h, ite_self] at hall

theorem sendRawBroadcast (env : Env) (id' : PacketID) (data : Bytes) (room : GameRoom)
    (w : World) : Gets s id (if s ∈ room.members then
      if id' = id ∧ headerSize + data.length ≤ maxBufSize then [data] else [] else []) w
      (room.sendRawBroadcast env id' data w) := by
  refine foldl (fun w t => ?_) room.members.nodup w
  have hsend : Gets s id _ w (w.sendRaw env t id' data) := sendRaw env t id' data w
  rwa [ite_and] at hsend

theorem sendRawBroadcast_other (h : id' ≠ id) (env : Env) (data : Bytes) (room : GameRoom)
    (w : World) : Gets s id [] w (room.sendRawBroadcast env id' data w) := by
  have hall : Gets s id _ w (room.sendRawBroadcast env id' data w) :=
    sendRawBroadcast env id' data room w
  have hnot : ¬ (id' = id ∧ headerSize + data.length ≤ maxBufSize) := fun hto => h hto.1
  rwa [if_neg hnot, ite_self] at hall

end Gets

/-- The payload of `S_ROOM_STATE`: the state, the members and the marks, as 16 bits hold them. -/
def GameRoom.stateData (room : GameRoom) : Bytes :=
  room.state.toUInt8 ::
    (u16Bytes (UInt16.ofNat room.members.size) ++ u16Bytes (UInt16.ofNat room.readyPlayers.card))

/-- **`BroadcastRoomState`** reaches every member that is still connected then. -/
theorem Gets.broadcastRoomState (env : Env) (room : GameRoom) (w : World) :
    Gets s .sRoomState (if s ∈ room.members then [room.stateData] else []) w
      (room.broadcastRoomState env w) := by
  unfold GameRoom.broadcastRoomState
  by_cases hnone : room.members.size = 0
  · rw [if_pos hnone, if_neg (IterSet.size_eq_zero_iff.mp hnone s)]
    exact refl s _ w
  · rw [if_neg hnone]
    have hall : Gets s .sRoomState _ w
        (room.sendRawBroadcast env .sRoomState room.stateData w) :=
      sendRawBroadcast env .sRoomState room.stateData room w
    have hfits : PacketID.sRoomState = PacketID.sRoomState ∧
        headerSize + room.stateData.length ≤ maxBufSize := by
      refine ⟨rfl, ?_⟩
      unfold GameRoom.stateData u16Bytes
      simp [headerSize, maxBufSize]
    rwa [if_pos hfits] at hall

theorem Gets.broadcastRoomState_other (h : id ≠ .sRoomState) (env : Env) (room : GameRoom)
    (w : World) : Gets s id [] w (room.broadcastRoomState env w) := by
  unfold GameRoom.broadcastRoomState
  split
  · exact refl s id w
  · exact sendRawBroadcast_other h.symm env _ room w

end RealtimeServer
