import Mathlib.Logic.Function.Basic
import RealtimeServer.Lib.Unordered
import RealtimeServer.Packet.Message

/-!
# Sessions and what is sent to them

Model of `ServerSession` (`Core/ServerSession.h`, `Core/ServerSession.cpp`) apart from its receive
side, with the counters of `ServerStats` that sending and connecting write.

A session is named by a reference (`SessionRef`, the `shared_ptr`), a room by the pointer to it
(`RoomRef`). `World` holds every session's state and the packets the socket layer has taken. What
the program does not decide is the environment of a step, `Env`: the clocks, the order unordered
containers are walked in, and which `WSASend` calls fail.

* `Sent env w w'`: `w'` is `w` after any number of sends. A send changes no account, no room pointer
  and no session id, and it can disconnect only a session to which a `WSASend` fails (`PostSend`).
-/

namespace RealtimeServer

open Unordered

/-- `std::shared_ptr<ServerSession>`. -/
abbrev SessionRef := Nat

/-- `GameRoom*`. -/
abbrev RoomRef := Nat

/-- What a step finds in its surroundings. -/
structure Env where
  /-- The first reading of the steady clock in the step, in milliseconds. -/
  now : Int
  /-- The last reading of it in the step. -/
  later : Int
  now_le_later : now ≤ later
  /-- The system clock, in milliseconds. -/
  systemNow : UInt64
  /-- The order an `unordered_set` of sessions is left in by an insertion. -/
  sessionOrder : Reorder SessionRef
  /-- The order in which an `unordered_map` keyed by strings is walked. -/
  keyOrder : Reorder Bytes
  /-- `WSASend` to this session fails from when so many packets were taken, if at all. One failure
  disconnects the session, so no later send to it is made. -/
  sendFailsFrom : SessionRef → Option Nat

namespace Env

/-- The answer of `WSASend` to `s` when `taken` packets were taken. -/
def wsaSendFails (env : Env) (s : SessionRef) (taken : Nat) : Bool :=
  match env.sendFailsFrom s with
  | some n => decide (n ≤ taken)
  | none => false

/-- Sends to `s` fail at some point of the step. -/
def SendFails (env : Env) (s : SessionRef) : Prop := (env.sendFailsFrom s).isSome = true

instance (env : Env) (s : SessionRef) : Decidable (env.SendFails s) := by
  unfold SendFails; infer_instance

theorem sendFails_of_wsaSendFails {env : Env} {s : SessionRef} {taken : Nat}
    (h : env.wsaSendFails s taken = true) : env.SendFails s := by
  unfold wsaSendFails at h
  unfold SendFails
  split at h
  · rename_i hfrom
    rw [hfrom]
    rfl
  · exact absurd h Bool.false_ne_true

/-- A quiet environment: nothing fails, nothing is reordered, and the clock stands. -/
def quiet (now : Int) : Env :=
  { now := now, later := now, now_le_later := Int.le_refl _, systemNow := 0
    sessionOrder := .none, keyOrder := .none, sendFailsFrom := fun _ => none }

end Env

/-- `ServerSession`: what the rooms and the handlers read of it. -/
structure ServerSession where
  disconnected : Bool
  sessionId : Nat
  accountId : Bytes
  room : Option RoomRef

/-- A session as it is constructed. -/
def ServerSession.new : ServerSession :=
  { disconnected := false, sessionId := 0, accountId := [], room := none }

/-- `ServerStats`. -/
structure ServerStats where
  totalConnections : UInt64
  currentConnections : UInt64
  totalPacketsSent : UInt64
  totalBytesSent : UInt64
  totalPolicyConnectionRejections : UInt64

/-- All sessions, the counters, and the packets `WSASend` has taken, in order. -/
structure World where
  session : SessionRef → ServerSession
  stats : ServerStats
  sent : List (SessionRef × Bytes)

/-- `IOContext::MAX_BUF_SIZE`. -/
def maxBufSize : Nat := 4096

namespace World

/-- Change the state of one session. -/
def update (w : World) (s : SessionRef) (f : ServerSession → ServerSession) : World :=
  { w with session := Function.update w.session s (f (w.session s)) }

/-- `SetRoom`. -/
def setRoom (w : World) (s : SessionRef) (room : Option RoomRef) : World :=
  w.update s fun session => { session with room := room }

/-- `SetAccountId`. -/
def setAccountId (w : World) (s : SessionRef) (accountId : Bytes) : World :=
  w.update s fun session => { session with accountId := accountId }

/-- `ServerSession::Disconnect`, as a state change; it returns whether `s` was connected before. -/
def disconnect (w : World) (s : SessionRef) : World :=
  w.update s fun session => { session with disconnected := true }

section

variable (env : Env) (s : SessionRef)

/-- `ServerSession::PostSend`. -/
def postSend (packet : Bytes) (w : World) : World :=
  if (w.session s).disconnected then w
  else if env.wsaSendFails s w.sent.length then w.disconnect s
  else { w with sent := w.sent ++ [(s, packet)] }

/-- `STATS_ADD(totalBytesSent, ..)` and `STATS_INC(totalPacketsSent)`. -/
def countSent (packet : Bytes) (w : World) : World :=
  { w with stats :=
    { w.stats with
      totalBytesSent := w.stats.totalBytesSent + UInt64.ofNat packet.length
      totalPacketsSent := w.stats.totalPacketsSent + 1 } }

/-- The end of every send: count the packet, then post it. -/
def countAndPost (packet : Bytes) (w : World) : World :=
  postSend env s packet (w.countSent packet)

/-- `ServerSession::SendRaw`. -/
def sendRaw (packetId : PacketID) (data : Bytes) (w : World) : World :=
  if (w.session s).disconnected then w
  else if maxBufSize < headerSize + data.length then w
  else countAndPost env s (frame packetId.toUInt16 data) w

/-- `ServerSession::SendInternal`. -/
def send (message : ServerMessage) (w : World) : World :=
  if (w.session s).disconnected then w
  else if maxBufSize < headerSize + message.serialize.length then w
  else countAndPost env s (frame message.packetId.toUInt16 message.serialize) w

/-- `ServerSession::SendShared`. -/
def sendShared (packet : Bytes) (w : World) : World :=
  if (w.session s).disconnected then w
  else countAndPost env s packet w

end

@[simp] theorem session_setRoom_self (w : World) (s : SessionRef) (room : Option RoomRef) :
    (w.setRoom s room).session s = { w.session s with room := room } :=
  Function.update_self _ _ _

@[simp] theorem session_setRoom_ne {w : World} {s t : SessionRef} (h : t ≠ s)
    (room : Option RoomRef) : (w.setRoom s room).session t = w.session t :=
  Function.update_of_ne h _ _

@[simp] theorem accountId_setRoom (w : World) (s t : SessionRef) (room : Option RoomRef) :
    ((w.setRoom s room).session t).accountId = (w.session t).accountId := by
  by_cases h : t = s
  · subst h; rw [session_setRoom_self]
  · rw [session_setRoom_ne h]

@[simp] theorem disconnected_setRoom (w : World) (s t : SessionRef) (room : Option RoomRef) :
    ((w.setRoom s room).session t).disconnected = (w.session t).disconnected := by
  by_cases h : t = s
  · subst h; rw [session_setRoom_self]
  · rw [session_setRoom_ne h]

@[simp] theorem session_setAccountId_self (w : World) (s : SessionRef) (accountId : Bytes) :
    (w.setAccountId s accountId).session s = { w.session s with accountId := accountId } :=
  Function.update_self _ _ _

@[simp] theorem session_setAccountId_ne {w : World} {s t : SessionRef} (h : t ≠ s)
    (accountId : Bytes) : (w.setAccountId s accountId).session t = w.session t :=
  Function.update_of_ne h _ _

@[simp] theorem session_disconnect_self (w : World) (s : SessionRef) :
    (w.disconnect s).session s = { w.session s with disconnected := true } :=
  Function.update_self _ _ _

@[simp] theorem session_disconnect_ne {w : World} {s t : SessionRef} (h : t ≠ s) :
    (w.disconnect s).session t = w.session t :=
  Function.update_of_ne h _ _

@[simp] theorem room_setAccountId (w : World) (s t : SessionRef) (accountId : Bytes) :
    ((w.setAccountId s accountId).session t).room = (w.session t).room := by
  by_cases h : t = s
  · subst h; rw [session_setAccountId_self]
  · rw [session_setAccountId_ne h]

@[simp] theorem room_disconnect (w : World) (s t : SessionRef) :
    ((w.disconnect s).session t).room = (w.session t).room := by
  by_cases h : t = s
  · subst h; rw [session_disconnect_self]
  · rw [session_disconnect_ne h]

end World

/-! ## What sending can change -/

/-- `w'` is `w` after sends made in `env`. -/
structure Sent (env : Env) (w w' : World) : Prop where
  accountId : ∀ s, (w'.session s).accountId = (w.session s).accountId
  room : ∀ s, (w'.session s).room = (w.session s).room
  sessionId : ∀ s, (w'.session s).sessionId = (w.session s).sessionId
  /-- No session comes back. -/
  down : ∀ s, (w.session s).disconnected = true → (w'.session s).disconnected = true
  /-- A session goes down only for a `WSASend` to it that fails. -/
  failed : ∀ s, (w'.session s).disconnected = true →
    (w.session s).disconnected = true ∨ env.SendFails s

namespace Sent

variable {env : Env} {w w' w'' : World}

theorem refl (env : Env) (w : World) : Sent env w w :=
  ⟨fun _ => rfl, fun _ => rfl, fun _ => rfl, fun _ h => h, fun _ h => Or.inl h⟩

theorem trans (h : Sent env w w') (h' : Sent env w' w'') : Sent env w w'' where
  accountId s := (h'.accountId s).trans (h.accountId s)
  room s := (h'.room s).trans (h.room s)
  sessionId s := (h'.sessionId s).trans (h.sessionId s)
  down s hs := h'.down s (h.down s hs)
  failed s hs := (h'.failed s hs).elim (h.failed s) Or.inr

/-- A failed `WSASend`. -/
theorem disconnect {s : SessionRef} (h : env.SendFails s) (w : World) :
    Sent env w (w.disconnect s) where
  accountId t := by
    by_cases ht : t = s
    · subst ht; rw [World.session_disconnect_self]
    · rw [World.session_disconnect_ne ht]
  room t := by
    by_cases ht : t = s
    · subst ht; rw [World.session_disconnect_self]
    · rw [World.session_disconnect_ne ht]
  sessionId t := by
    by_cases ht : t = s
    · subst ht; rw [World.session_disconnect_self]
    · rw [World.session_disconnect_ne ht]
  down t hdown := by
    by_cases ht : t = s
    · subst ht; rw [World.session_disconnect_self]
    · rwa [World.session_disconnect_ne ht]
  failed t hdown := by
    by_cases ht : t = s
    · exact Or.inr (ht ▸ h)
    · rw [World.session_disconnect_ne ht] at hdown
      exact Or.inl hdown

/-- Only the counters and the packets taken change. -/
theorem of_session_eq (h : w'.session = w.session) : Sent env w w' := by
  refine ⟨fun s => ?_, fun s => ?_, fun s => ?_, fun s hs => ?_, fun s hs => ?_⟩
  · rw [h]
  · rw [h]
  · rw [h]
  · rwa [h]
  · rw [h] at hs
    exact Or.inl hs

theorem postSend (env : Env) (s : SessionRef) (packet : Bytes) (w : World) :
    Sent env w (w.postSend env s packet) := by
  unfold World.postSend
  split
  · exact refl env w
  · split
    · rename_i hfail
      exact disconnect (Env.sendFails_of_wsaSendFails hfail) w
    · exact of_session_eq rfl

theorem countAndPost (env : Env) (s : SessionRef) (packet : Bytes) (w : World) :
    Sent env w (w.countAndPost env s packet) := by
  have hcount : Sent env w (w.countSent packet) := of_session_eq rfl
  exact hcount.trans (postSend env s packet _)

theorem sendRaw (env : Env) (s : SessionRef) (packetId : PacketID) (data : Bytes) (w : World) :
    Sent env w (w.sendRaw env s packetId data) := by
  unfold World.sendRaw
  split
  · exact refl env w
  · split
    · exact refl env w
    · exact countAndPost env s _ w

theorem send (env : Env) (s : SessionRef) (message : ServerMessage) (w : World) :
    Sent env w (w.send env s message) := by
  unfold World.send
  split
  · exact refl env w
  · split
    · exact refl env w
    · exact countAndPost env s _ w

theorem sendShared (env : Env) (s : SessionRef) (packet : Bytes) (w : World) :
    Sent env w (w.sendShared env s packet) := by
  unfold World.sendShared
  split
  · exact refl env w
  · exact countAndPost env s packet w

/-- A loop of sends is sends. -/
theorem foldl {f : World → SessionRef → World} (hf : ∀ w s, Sent env w (f w s))
    (l : List SessionRef) (w : World) : Sent env w (l.foldl f w) := by
  induction l generalizing w with
  | nil => exact refl env w
  | cons s l ih => exact (hf w s).trans (ih (f w s))

end Sent

/-! ## Which packets are sent -/

/-- From `w` to `w'` packets were sent, each with an id and a payload that `P` allows. -/
def Emits (P : PacketID → Bytes → Prop) (w w' : World) : Prop :=
  ∃ packets, w'.sent = w.sent ++ packets ∧
    ∀ packet ∈ packets, ∃ id payload, packet.2 = frame id.toUInt16 payload ∧ P id payload

namespace Emits

variable {P Q : PacketID → Bytes → Prop} {env : Env} {w w' w'' : World}

theorem refl (P : PacketID → Bytes → Prop) (w : World) : Emits P w w := ⟨[], by simp, by simp⟩

theorem trans (h : Emits P w w') (h' : Emits P w' w'') : Emits P w w'' := by
  obtain ⟨packets, hsent, hall⟩ := h
  obtain ⟨packets', hsent', hall'⟩ := h'
  refine ⟨packets ++ packets', by rw [hsent', hsent, List.append_assoc], fun packet hpacket => ?_⟩
  exact (List.mem_append.mp hpacket).elim (hall packet) (hall' packet)

theorem mono (h : Emits P w w') (hpq : ∀ id payload, P id payload → Q id payload) :
    Emits Q w w' := by
  obtain ⟨packets, hsent, hall⟩ := h
  refine ⟨packets, hsent, fun packet hpacket => ?_⟩
  obtain ⟨id, payload, hframe, hp⟩ := hall packet hpacket
  exact ⟨id, payload, hframe, hpq id payload hp⟩

/-- No packet is sent. -/
theorem of_sent_eq (h : w'.sent = w.sent) : Emits P w w' := ⟨[], by simp [h], by simp⟩

/-- A packet of `w'` that `w` does not have yet is allowed. -/
theorem allowed {s : SessionRef} {id : PacketID} {payload : Bytes} (h : Emits P w w')
    (hpacket : (s, frame id.toUInt16 payload) ∈ w'.sent.drop w.sent.length) : P id payload := by
  obtain ⟨packets, hsent, hall⟩ := h
  rw [hsent, List.drop_left] at hpacket
  obtain ⟨id', payload', hframe, hp⟩ := hall _ hpacket
  obtain ⟨rfl, rfl⟩ := frame_inj hframe
  exact hp

theorem countAndPost (env : Env) (s : SessionRef) {id : PacketID} {payload : Bytes} (w : World)
    (h : P id payload) : Emits P w (w.countAndPost env s (frame id.toUInt16 payload)) := by
  unfold World.countAndPost World.postSend
  split
  · exact of_sent_eq rfl
  · split
    · exact of_sent_eq rfl
    · refine ⟨[(s, frame id.toUInt16 payload)], rfl, fun packet hpacket => ?_⟩
      exact ⟨id, payload, congrArg Prod.snd (List.mem_singleton.mp hpacket), h⟩

theorem sendRaw (env : Env) (s : SessionRef) {id : PacketID} {data : Bytes} (w : World)
    (h : P id data) : Emits P w (w.sendRaw env s id data) := by
  unfold World.sendRaw
  split
  · exact refl P w
  · split
    · exact refl P w
    · exact countAndPost env s w h

theorem send (env : Env) (s : SessionRef) {message : ServerMessage} (w : World)
    (h : P message.packetId message.serialize) : Emits P w (w.send env s message) := by
  unfold World.send
  split
  · exact refl P w
  · split
    · exact refl P w
    · exact countAndPost env s w h

theorem sendShared (env : Env) (s : SessionRef) {id : PacketID} {payload : Bytes} (w : World)
    (h : P id payload) : Emits P w (w.sendShared env s (frame id.toUInt16 payload)) := by
  unfold World.sendShared
  split
  · exact refl P w
  · exact countAndPost env s w h

/-- A loop of sends. -/
theorem foldl {f : World → SessionRef → World} (hf : ∀ w s, Emits P w (f w s))
    (l : List SessionRef) (w : World) : Emits P w (l.foldl f w) := by
  induction l generalizing w with
  | nil => exact refl P w
  | cons s l ih => exact (hf w s).trans (ih (f w s))

end Emits

end RealtimeServer
