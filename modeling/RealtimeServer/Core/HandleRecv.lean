import Mathlib.Data.List.Infix
import RealtimeServer.Lib.Run
import RealtimeServer.Packet.RecvBuffer

/-!
# The receive path of a session: `PostRecv`, `HandleRecv`, `HandlePacket`

Model of `ServerCore::PostRecv` and `ServerCore::HandleRecv` (`Core/ServerCore.cpp`) with
`PacketManager::HandlePacket` (`Packet/PacketManager.cpp`), for one session after
`HandleAcceptCompletion` has posted its first receive. A run is the list of receives the socket
layer completes: `recvNext` takes one, if a `WSARecv` is outstanding, the receive is not empty and
it is no longer than the window that `WSARecv` was given.

Inputs of the model: the handler table `handlers` (`m_handlers`), `maxPacketSize`, and the answers
`verdict` of `CheckRateLimit`, the `k`-th for the `k`-th packet; any answers at all are allowed, so
every token bucket and every clock is covered. A `WSARecv` that fails outright ends the session and
completes no receive; it adds no run.

`dispatched` logs the `(packetId, payload)` of every `HandlePacket` call, `handled` those whose id
has a handler, `cursors` every state the buffer has been in.

Results, for every `maxPacketSize`:
* `recv_dispatches_reference_framing`: without rate limiting, what is dispatched is the reference
  framing of the bytes received, however they were cut.
* `recv_unstuck_iff`: when the receive path can get stuck on a stream, exactly.
-/

namespace RealtimeServer

open Stream Guarded

/-- `ServerSession::RECV_BUF_CAPACITY`. -/
def recvBufCapacity : Nat := 8192

/-- The receive side of a session, with the counters `HandleRecv` writes. -/
structure RecvState where
  recvBuffer : RecvBuffer
  /-- The outstanding `WSARecv`: the length of its window (`wsaBuf.len`). -/
  posted : Option Int
  disconnected : Bool
  totalPacketsReceived : Nat
  totalOversizedPacketRejections : Nat
  totalRateLimitRejections : Nat
  dispatched : List (UInt16 × Bytes)
  handled : List (UInt16 × Bytes)
  cursors : List RecvBuffer

namespace RecvState

/-- The buffer moves on. -/
def setBuffer (st : RecvState) (b : RecvBuffer) : RecvState :=
  { st with recvBuffer := b, cursors := b :: st.cursors }

/-- `ServerCore::PostRecv`. -/
def postRecv (st : RecvState) : RecvState :=
  if st.disconnected then st
  else
    let b := st.recvBuffer.getWriteBufferPtr
    { st.setBuffer b with posted := some b.getWriteBufferSize }

/-- `ServerCore::HandleDisconnect`, seen from the receive side: no `WSARecv` follows. -/
def handleDisconnect (st : RecvState) : RecvState := { st with disconnected := true }

/-- A receive of `bytes` completes, and `HandleRecv` counts it in (`Write`). -/
def written (st : RecvState) (bytes : Bytes) : RecvState :=
  { st.setBuffer ((st.recvBuffer.receive bytes).write bytes.length) with posted := none }

/-- A session whose first receive `HandleAcceptCompletion` has just posted. -/
def accepted : RecvState :=
  postRecv
    { recvBuffer := .new recvBufCapacity
      posted := none
      disconnected := false
      totalPacketsReceived := 0
      totalOversizedPacketRejections := 0
      totalRateLimitRejections := 0
      dispatched := []
      handled := []
      cursors := [.new recvBufCapacity] }

end RecvState

/-- The `(packetId, payload)` that `PacketManager::HandlePacket` reads from a packet. -/
def parsePacket (packetData : Bytes) : Option (UInt16 × Bytes) :=
  if packetData.length < headerSize then none
  else some ((PacketHeader.ofBytes packetData).packetId, packetData.drop headerSize)

section

variable (handlers : UInt16 → Bool) (maxPacketSize : Int) (verdict : Nat → Bool)

/-- `PacketManager::HandlePacket`. -/
def RecvState.handlePacket (st : RecvState) (packetData : Bytes) : RecvState :=
  match parsePacket packetData with
  | none => st
  | some packet =>
    { st with
      dispatched := st.dispatched ++ [packet]
      handled := if handlers packet.1 then st.handled ++ [packet] else st.handled }

/-- The `while` loop of `HandleRecv` and the `PostRecv` behind it. Every round pops a header at
least, so the bytes in the buffer bound the rounds. -/
def recvLoop : Nat → RecvState → RecvState
  | 0, st => st
  | rounds + 1, st =>
    match st.recvBuffer.tryGetPacket with
    | none => st.postRecv
    | some packetSize =>
      if maxPacketSize < packetSize then
        RecvState.handleDisconnect
          { st with totalOversizedPacketRejections := st.totalOversizedPacketRejections + 1 }
      else if verdict st.totalPacketsReceived = false then
        RecvState.handleDisconnect
          { st with totalRateLimitRejections := st.totalRateLimitRejections + 1 }
      else
        let counted := { st with totalPacketsReceived := st.totalPacketsReceived + 1 }
        let served := counted.handlePacket handlers (st.recvBuffer.packetData packetSize)
        recvLoop rounds (served.setBuffer (st.recvBuffer.pop packetSize))

/-- `ServerCore::HandleRecv`, on a receive of `bytes`. -/
def handleRecv (st : RecvState) (bytes : Bytes) : RecvState :=
  let written := st.written bytes
  recvLoop handlers maxPacketSize verdict (written.recvBuffer.getDataSize.toNat + 1) written

/-- One completed receive. -/
def recvNext (st : RecvState) (bytes : Bytes) : Option RecvState :=
  match st.posted with
  | none => none
  | some window =>
    if bytes ≠ [] ∧ (bytes.length : Int) ≤ window then
      some (handleRecv handlers maxPacketSize verdict st bytes)
    else none

end

/-! ## The invariant of the receive path -/

/-- A complete frame the server takes: within the limit, and no longer than the buffer. -/
def Taken (maxPacketSize : Int) (f : Bytes) : Prop :=
  completeFrame f = some f.length ∧ (f.length : Int) ≤ maxPacketSize ∧ f.length ≤ recvBufCapacity

/-- What holds at every point of `HandleRecv`, `read` being all bytes received so far: the cursors
are sound, and the bytes pending are what the frames served leave of `read`. -/
structure Sound (handlers : UInt16 → Bool) (maxPacketSize : Int) (st : RecvState) (read : Bytes) :
    Prop where
  ok : st.recvBuffer.Ok
  capacity : st.recvBuffer.capacity = recvBufCapacity
  cursors : ∀ b ∈ st.cursors, b.Ok ∧ b.capacity = recvBufCapacity
  agrees : Agrees (referenceFraming maxPacketSize) st.dispatched st.recvBuffer.pending read
  handled : st.handled = st.dispatched.filter fun packet => handlers packet.1
  frames : ∃ frames : List Bytes, read = frames.flatten ++ st.recvBuffer.pending ∧
    ∀ f ∈ frames, Taken maxPacketSize f

/-- No `WSARecv` is outstanding and nothing has been rejected: inside the loop. -/
structure Looping (st : RecvState) : Prop where
  posted : st.posted = none
  connected : st.disconnected = false
  oversized : st.totalOversizedPacketRejections = 0
  limited : st.totalRateLimitRejections = 0

/-- How `HandleRecv` can end. -/
inductive Settled (maxPacketSize : Int) (st : RecvState) : Prop
  /-- It waits for more: the frame at the front is incomplete. -/
  | waiting (posted : st.posted = some st.recvBuffer.getWriteBufferSize)
      (window : 0 < st.recvBuffer.getWriteBufferSize ↔
        st.recvBuffer.pending.length < recvBufCapacity)
      (frame : completeFrame st.recvBuffer.pending = none)
      (connected : st.disconnected = false)
      (oversized : st.totalOversizedPacketRejections = 0)
      (limited : st.totalRateLimitRejections = 0)
  /-- It refused the frame at the front for its size. -/
  | oversized (posted : st.posted = none) (total : Nat)
      (frame : completeFrame st.recvBuffer.pending = some total) (big : maxPacketSize < total)
      (disconnected : st.disconnected = true) (oversized : st.totalOversizedPacketRejections = 1)
  /-- It refused the frame at the front for its rate. -/
  | limited (posted : st.posted = none) (total : Nat)
      (frame : completeFrame st.recvBuffer.pending = some total)
      (small : (total : Int) ≤ maxPacketSize) (limited : st.totalRateLimitRejections = 1)

variable {handlers : UInt16 → Bool} {maxPacketSize : Int} {verdict : Nat → Bool} {st : RecvState}
  {read : Bytes}

theorem sound_postRecv (h : Sound handlers maxPacketSize st read) (hl : Looping st)
    (hframe : completeFrame st.recvBuffer.pending = none) :
    Sound handlers maxPacketSize st.postRecv read ∧ Settled maxPacketSize st.postRecv := by
  have hok := RecvBuffer.ok_getWriteBufferPtr h.ok
  have hpend := RecvBuffer.pending_getWriteBufferPtr h.ok
  have hcap : st.recvBuffer.getWriteBufferPtr.capacity = recvBufCapacity := by
    rw [RecvBuffer.capacity_getWriteBufferPtr, h.capacity]
  unfold RecvState.postRecv
  rw [if_neg (by rw [hl.connected]; exact Bool.false_ne_true)]
  refine ⟨⟨hok, hcap, ?_, ?_, h.handled, ?_⟩,
    .waiting rfl ?_ ?_ hl.connected hl.oversized hl.limited⟩
  · intro b hb
    rcases List.mem_cons.mp hb with rfl | hb
    · exact ⟨hok, hcap⟩
    · exact h.cursors b hb
  · simp only [RecvState.setBuffer, hpend]
    exact h.agrees
  · simp only [RecvState.setBuffer, hpend]
    exact h.frames
  · simp only [RecvState.setBuffer, hpend]
    rw [RecvBuffer.window_pos_iff h.ok, h.capacity]
  · simp only [RecvState.setBuffer, hpend]
    exact hframe

/-- The state after the loop has served the frame of `n` bytes at the front. -/
def serve (handlers : UInt16 → Bool) (st : RecvState) (n : Int) : RecvState :=
  (RecvState.handlePacket handlers
    { st with totalPacketsReceived := st.totalPacketsReceived + 1 }
    (st.recvBuffer.packetData n)).setBuffer (st.recvBuffer.pop n)

theorem recvLoop_wait {rounds : Nat} (h : st.recvBuffer.Ok)
    (hframe : completeFrame st.recvBuffer.pending = none) :
    recvLoop handlers maxPacketSize verdict (rounds + 1) st = st.postRecv := by
  rw [recvLoop, RecvBuffer.tryGetPacket_eq h, hframe]
  rfl

theorem recvLoop_serve {rounds n : Nat} (h : st.recvBuffer.Ok)
    (hframe : completeFrame st.recvBuffer.pending = some n) (hle : (n : Int) ≤ maxPacketSize)
    (hv : verdict st.totalPacketsReceived = true) :
    recvLoop handlers maxPacketSize verdict (rounds + 1) st =
      recvLoop handlers maxPacketSize verdict rounds (serve handlers st n) := by
  rw [recvLoop, RecvBuffer.tryGetPacket_eq h, hframe]
  simp only [Option.map_some]
  rw [if_neg (by omega), if_neg (by rw [hv]; simp)]
  rfl

/-- `HandlePacket` reads the frame at the front. -/
theorem parsePacket_packetData {b : RecvBuffer} {n : Nat} (h : b.Ok)
    (hn : completeFrame b.pending = some n) :
    parsePacket (b.packetData n) = some ((PacketHeader.ofBytes b.pending).packetId,
      (b.pending.take n).drop headerSize) := by
  obtain ⟨hdecl, hlen⟩ := completeFrame_eq_some.mp hn
  have hsize := headerSize_le_of_declared hdecl
  have htake : (b.pending.take n).length = n := by
    rw [List.length_take, Nat.min_eq_left hlen]
  rw [RecvBuffer.packetData_eq hlen h, parsePacket, htake, if_neg (by omega),
    PacketHeader.ofBytes_take hsize.2 hsize.1]

/-- Serving the frame at the front keeps the invariant. -/
theorem sound_serve {n : Nat} (h : Sound handlers maxPacketSize st read)
    (hn : completeFrame st.recvBuffer.pending = some n) (hle : (n : Int) ≤ maxPacketSize) :
    Sound handlers maxPacketSize (serve handlers st n) read := by
  obtain ⟨hdecl, hlen⟩ := completeFrame_eq_some.mp hn
  have hsize := headerSize_le_of_declared hdecl
  have hok := RecvBuffer.ok_pop hlen h.ok
  have hpend := RecvBuffer.pending_pop hlen h.ok
  have hcap := RecvBuffer.capacity_pop (b := st.recvBuffer) n
  have htake : (st.recvBuffer.pending.take n).length = n := by
    rw [List.length_take, Nat.min_eq_left hlen]
  unfold serve RecvState.handlePacket
  rw [parsePacket_packetData h.ok hn]
  refine ⟨hok, hcap.trans h.capacity, ?_, ?_, ?_, ?_⟩
  · intro b hb
    rcases List.mem_cons.mp hb with rfl | hb
    · exact ⟨hok, hcap.trans h.capacity⟩
    · exact h.cursors b hb
  · simp only [RecvState.setBuffer, hpend]
    exact agrees_emit h.agrees (referenceFraming_frame hn hle)
  · simp only [RecvState.setBuffer, List.filter_append, h.handled]
    split <;> simp_all
  · obtain ⟨frames, hread, htaken⟩ := h.frames
    refine ⟨frames ++ [st.recvBuffer.pending.take n], ?_, ?_⟩
    · simp only [RecvState.setBuffer, hpend, List.flatten_append, List.flatten_singleton,
        List.append_assoc, List.take_append_drop]
      exact hread
    · intro f hf
      rcases List.mem_append.mp hf with hf | hf
      · exact htaken f hf
      · rw [List.mem_singleton.mp hf]
        have hbuf : st.recvBuffer.pending.length ≤ recvBufCapacity := by
          have := RecvBuffer.pending_length h.ok
          have h0 := h.ok.tail_nonneg
          have h2 := h.ok.head_le
          rw [h.capacity] at h2
          unfold RecvBuffer.getDataSize at this
          omega
        refine ⟨?_, by rw [htake]; exact hle, by rw [htake]; omega⟩
        rw [completeFrame_eq_some, htake]
        refine ⟨?_, le_refl _⟩
        unfold declaredTotal totalPacketSize at hdecl ⊢
        rw [htake, PacketHeader.ofBytes_take hsize.2 hsize.1, if_neg (by omega)]
        rwa [if_neg (by omega)] at hdecl

theorem looping_serve (hl : Looping st) (n : Int) : Looping (serve handlers st n) := by
  unfold serve RecvState.handlePacket
  split <;> exact ⟨hl.posted, hl.connected, hl.oversized, hl.limited⟩

/-- **The loop** serves frames until the one at the front is incomplete or refused. The induction
is on the rounds left; they exceed the bytes pending, so the loop never stops for want of them. -/
theorem sound_recvLoop {rounds : Nat} (h : Sound handlers maxPacketSize st read)
    (hl : Looping st) (hr : st.recvBuffer.pending.length < rounds) :
    Sound handlers maxPacketSize (recvLoop handlers maxPacketSize verdict rounds st) read ∧
      Settled maxPacketSize (recvLoop handlers maxPacketSize verdict rounds st) := by
  induction rounds generalizing st with
  | zero => exact absurd hr (Nat.not_lt_zero _)
  | succ rounds ih =>
    cases hframe : completeFrame st.recvBuffer.pending with
    | none =>
      rw [recvLoop_wait h.ok hframe]
      exact sound_postRecv h hl hframe
    | some n =>
      obtain ⟨hdecl, hlen⟩ := completeFrame_eq_some.mp hframe
      by_cases hbig : maxPacketSize < (n : Int)
      · rw [recvLoop, RecvBuffer.tryGetPacket_eq h.ok, hframe]
        simp only [Option.map_some]
        rw [if_pos hbig]
        exact ⟨⟨h.ok, h.capacity, h.cursors, h.agrees, h.handled, h.frames⟩,
          .oversized hl.posted n hframe hbig rfl (by
            show st.totalOversizedPacketRejections + 1 = 1
            rw [hl.oversized])⟩
      · cases hv : verdict st.totalPacketsReceived with
        | false =>
          rw [recvLoop, RecvBuffer.tryGetPacket_eq h.ok, hframe]
          simp only [Option.map_some]
          rw [if_neg hbig, if_pos hv]
          exact ⟨⟨h.ok, h.capacity, h.cursors, h.agrees, h.handled, h.frames⟩,
            .limited hl.posted n hframe (by omega) (by
              show st.totalRateLimitRejections + 1 = 1
              rw [hl.limited])⟩
        | true =>
          have hsize := (headerSize_le_of_declared hdecl).2
          rw [recvLoop_serve h.ok hframe (by omega) hv]
          refine ih (sound_serve h hframe (by omega)) (looping_serve hl _) ?_
          show (st.recvBuffer.pop n).pending.length < rounds
          rw [RecvBuffer.pending_pop hlen h.ok, List.length_drop]
          unfold headerSize at hsize
          omega

/-- Where every packet is let through, none is refused for its rate. -/
theorem limited_recvLoop (hadmitted : ∀ k, verdict k = true) (rounds : Nat) :
    (recvLoop handlers maxPacketSize verdict rounds st).totalRateLimitRejections =
      st.totalRateLimitRejections := by
  induction rounds generalizing st with
  | zero => rfl
  | succ rounds ih =>
    unfold recvLoop
    split
    · unfold RecvState.postRecv
      split <;> rfl
    · split
      · rfl
      · rw [if_neg (by simp [hadmitted])]
        refine ih.trans ?_
        show (RecvState.handlePacket handlers _ _).totalRateLimitRejections = _
        unfold RecvState.handlePacket
        split <;> rfl

/-- **One receive**: `HandleRecv` keeps the invariant and settles. -/
theorem sound_handleRecv {bytes : Bytes} (h : Sound handlers maxPacketSize st read)
    (hs : Settled maxPacketSize st) {window : Int} (hw : st.posted = some window)
    (hfit : (bytes.length : Int) ≤ window) :
    Sound handlers maxPacketSize (handleRecv handlers maxPacketSize verdict st bytes)
        (read ++ bytes) ∧
      Settled maxPacketSize (handleRecv handlers maxPacketSize verdict st bytes) := by
  cases hs with
  | oversized posted => rw [posted] at hw; exact absurd hw (by simp)
  | limited posted => rw [posted] at hw; exact absurd hw (by simp)
  | waiting posted _ _ connected oversized limited =>
    obtain rfl : st.recvBuffer.getWriteBufferSize = window := by
      rw [posted] at hw
      exact Option.some.inj hw
    have hok := RecvBuffer.ok_receive_write hfit h.ok
    have hpend := RecvBuffer.pending_receive_write hfit h.ok
    have hlen := RecvBuffer.pending_length hok
    unfold handleRecv
    refine sound_recvLoop ⟨hok, h.capacity, ?_, ?_, h.handled, ?_⟩
      ⟨rfl, connected, oversized, limited⟩ ?_
    · intro b hb
      rcases List.mem_cons.mp hb with rfl | hb
      · exact ⟨hok, h.capacity⟩
      · exact h.cursors b hb
    · simp only [RecvState.written, RecvState.setBuffer, hpend]
      exact agrees_feed h.agrees bytes
    · obtain ⟨frames, hread, htaken⟩ := h.frames
      refine ⟨frames, ?_, htaken⟩
      simp only [RecvState.written, RecvState.setBuffer, hpend]
      rw [hread, List.append_assoc]
    · simp only [RecvState.written, RecvState.setBuffer]
      omega

theorem sound_accepted (handlers : UInt16 → Bool) (maxPacketSize : Int) :
    Sound handlers maxPacketSize .accepted [] ∧ Settled maxPacketSize .accepted := by
  have hok := RecvBuffer.ok_new recvBufCapacity
  have hpend := RecvBuffer.pending_new recvBufCapacity
  refine sound_postRecv ⟨hok, rfl, ?_, ?_, rfl, [], ?_, ?_⟩ ⟨rfl, rfl, rfl, rfl⟩ ?_
  · intro b hb
    rw [List.mem_singleton.mp hb]
    exact ⟨hok, rfl⟩
  · simp only [hpend]
    exact agrees_start
  · simp only [hpend]
    rfl
  · intro f hf
    exact absurd hf List.not_mem_nil
  · simp only [hpend]
    rfl

/-- **The invariant holds after every run**, for the concatenation of what was received. -/
theorem sound_run {chunks : List Bytes} {st' : RecvState}
    (h : Sound handlers maxPacketSize st read) (hs : Settled maxPacketSize st)
    (hrun : run (recvNext handlers maxPacketSize verdict) st chunks = some st') :
    Sound handlers maxPacketSize st' (read ++ chunks.flatten) ∧ Settled maxPacketSize st' := by
  induction chunks generalizing st read with
  | nil =>
    obtain rfl := Option.some.inj hrun
    rw [List.flatten_nil, List.append_nil]
    exact ⟨h, hs⟩
  | cons bytes chunks ih =>
    obtain ⟨st₁, hnext, hrest⟩ := run_cons_inv hrun
    unfold recvNext at hnext
    cases hw : st.posted with
    | none => rw [hw] at hnext; exact absurd hnext (by simp)
    | some window =>
      simp only [hw] at hnext
      split at hnext
      · rename_i hfit
        obtain rfl := Option.some.inj hnext
        obtain ⟨h₁, hs₁⟩ := sound_handleRecv h hs hw hfit.2
        rw [List.flatten_cons, ← List.append_assoc]
        exact ih h₁ hs₁ hrest
      · exact absurd hnext (by simp)

theorem limited_run (hadmitted : ∀ k, verdict k = true) {chunks : List Bytes} {st' : RecvState}
    (hrun : run (recvNext handlers maxPacketSize verdict) st chunks = some st') :
    st'.totalRateLimitRejections = st.totalRateLimitRejections := by
  refine run_preserves (I := fun t => t.totalRateLimitRejections = st.totalRateLimitRejections)
    ?_ rfl hrun
  intro t bytes t' ht hnext
  unfold recvNext at hnext
  split at hnext
  · exact absurd hnext (by simp)
  · obtain ⟨-, rfl⟩ := of_guard hnext
    exact (limited_recvLoop hadmitted _).trans ht

/-! ## Dispatch is the reference framing -/

/-- **`HandleRecv` dispatches the reference framing** of the bytes received, whatever the receives
they came in, when no packet was refused for its rate; and the cursors stay in the array. -/
theorem recv_dispatches_reference_framing {chunks : List Bytes} {st : RecvState}
    (hrun : run (recvNext handlers maxPacketSize verdict) .accepted chunks = some st)
    (hlimited : st.totalRateLimitRejections = 0) :
    st.dispatched = referenceFraming maxPacketSize chunks.flatten ∧
      st.handled =
        (referenceFraming maxPacketSize chunks.flatten).filter (fun packet => handlers packet.1) ∧
      ∀ b ∈ st.cursors, 0 ≤ b.tail ∧ b.tail ≤ b.head ∧ b.head ≤ (recvBufCapacity : Int) := by
  obtain ⟨h₀, hs₀⟩ := sound_accepted handlers maxPacketSize
  obtain ⟨h, hs⟩ := sound_run h₀ hs₀ hrun
  rw [List.nil_append] at h
  have hpend : referenceFraming maxPacketSize st.recvBuffer.pending = [] := by
    cases hs with
    | waiting _ _ frame => exact referenceFraming_incomplete frame
    | oversized _ total frame big =>
      exact referenceFraming_oversized (completeFrame_eq_some.mp frame).1 big
    | limited _ _ _ _ limited => omega
  have hdisp := agrees_done h.agrees hpend
  refine ⟨hdisp, by rw [← hdisp]; exact h.handled, fun b hb => ?_⟩
  obtain ⟨hok, hcap⟩ := h.cursors b hb
  rw [← hcap]
  exact ⟨hok.tail_nonneg, hok.tail_le_head, hok.head_le⟩

/-- A chat frame cut inside its header and inside its payload, then the header of the next. -/
def cutChat : List Bytes := [[2, 0, 3], [0, 104], [105, 1, 0, 3, 0]]

theorem recv_dispatches_cutChat :
    ∃ st, run (recvNext (fun id => id == 3) 4096 fun _ => true) .accepted cutChat = some st ∧
      st.dispatched = [(3, [104, 105])] ∧ st.handled = [(3, [104, 105])] ∧
      ∀ b ∈ st.cursors, 0 ≤ b.tail ∧ b.tail ≤ b.head ∧ b.head ≤ (recvBufCapacity : Int) := by
  obtain ⟨st, hrun⟩ := Option.isSome_iff_exists.mp
    (show (run (recvNext (fun id => id == 3) 4096 fun _ => true) .accepted cutChat).isSome = true
      by decide)
  have hlimited : (run (recvNext (fun id => id == 3) 4096 fun _ => true) .accepted cutChat).map
      RecvState.totalRateLimitRejections = some 0 := by decide
  rw [hrun] at hlimited
  have href : referenceFraming 4096 cutChat.flatten = [(3, [104, 105])] := by
    simp [cutChat, referenceFraming, headerSize, u16le]
  obtain ⟨hdisp, hhandled, hcursors⟩ :=
    recv_dispatches_reference_framing hrun (Option.some.inj hlimited)
  exact ⟨st, hrun, hdisp.trans href, by rw [hhandled, href]; decide, hcursors⟩

/-! ## When the receive path gets stuck -/

/-- The receive path is not stuck: the outstanding `WSARecv` has room for a byte, and a frame that
declares more than `maxPacketSize` has been refused once it, or the buffer, is full. -/
structure Unstuck (maxPacketSize : Int) (st : RecvState) : Prop where
  window : ∀ n, st.posted = some n → 1 ≤ n
  refused : ∀ total, declaredTotal st.recvBuffer.pending = some total →
    maxPacketSize < (total : Int) →
    (total ≤ st.recvBuffer.pending.length ∨ st.recvBuffer.pending.length = recvBufCapacity) →
    st.totalOversizedPacketRejections = 1 ∧ st.disconnected = true

/-- The stream holds, right behind frames the server takes, a frame that declares more than the
buffer can hold, and at least a buffer full of it. -/
def HugeFrame (maxPacketSize : Int) (stream : Bytes) : Prop :=
  ∃ (frames : List Bytes) (rest : Bytes) (total : Nat), stream = frames.flatten ++ rest ∧
    (∀ f ∈ frames, Taken maxPacketSize f) ∧ declaredTotal rest = some total ∧
      recvBufCapacity < total ∧ recvBufCapacity ≤ rest.length

/-- A frame that is full but not yet complete declares more than the buffer holds. -/
theorem declared_of_full {p : Bytes} (hp : completeFrame p = none)
    (hlen : p.length = recvBufCapacity) :
    ∃ total, declaredTotal p = some total ∧ recvBufCapacity < total := by
  unfold completeFrame at hp
  rw [hlen, if_neg (by decide)] at hp
  split at hp
  · rename_i h
    exact ⟨totalPacketSize p, by rw [declaredTotal, hlen, if_neg (by decide)], h⟩
  · exact absurd hp (by simp)

/-- Without a huge frame in the stream, no run over it gets stuck. -/
theorem unstuck_of_not_huge {stream : Bytes} (hh : ¬ HugeFrame maxPacketSize stream)
    {chunks : List Bytes} {st : RecvState} (hpre : chunks.flatten <+: stream)
    (hrun : run (recvNext handlers maxPacketSize verdict) .accepted chunks = some st) :
    Unstuck maxPacketSize st := by
  obtain ⟨h₀, hs₀⟩ := sound_accepted handlers maxPacketSize
  obtain ⟨h, hs⟩ := sound_run h₀ hs₀ hrun
  rw [List.nil_append] at h
  cases hs with
  | oversized posted _ frame big disconnected oversized =>
    refine ⟨fun n hn => ?_, fun _ _ _ _ => ⟨oversized, disconnected⟩⟩
    rw [posted] at hn
    exact absurd hn (by simp)
  | limited posted total frame small =>
    refine ⟨fun n hn => ?_, fun total' hdecl hbig _ => ?_⟩
    · rw [posted] at hn
      exact absurd hn (by simp)
    · rw [(completeFrame_eq_some.mp frame).1] at hdecl
      obtain rfl := Option.some.inj hdecl
      omega
  | waiting posted window frame =>
    -- a full buffer would make its front frame the huge one
    have hroom : st.recvBuffer.pending.length < recvBufCapacity := by
      have hle : st.recvBuffer.pending.length ≤ recvBufCapacity := by
        have := RecvBuffer.pending_length h.ok
        have h0 := h.ok.tail_nonneg
        have h2 := h.ok.head_le
        rw [h.capacity] at h2
        unfold RecvBuffer.getDataSize at this
        omega
      refine lt_of_le_of_ne hle fun hfull => hh ?_
      obtain ⟨total, hdecl, hbig⟩ := declared_of_full frame hfull
      obtain ⟨frames, hread, htaken⟩ := h.frames
      obtain ⟨future, hfuture⟩ := hpre
      refine ⟨frames, st.recvBuffer.pending ++ future, total, ?_, htaken,
        declaredTotal_append hdecl future, hbig, ?_⟩
      · rw [← List.append_assoc, ← hread, hfuture]
      · rw [List.length_append]
        omega
    refine ⟨fun n hn => ?_, fun total hdecl _ hfull => ?_⟩
    · rw [posted] at hn
      obtain rfl := Option.some.inj hn
      have := window.mpr hroom
      omega
    · rcases hfull with hfull | hfull
      · rw [completeFrame_eq_some.mpr ⟨hdecl, hfull⟩] at frame
        exact absurd frame (by simp)
      · omega

/-! ### A huge frame does get it stuck -/

/-- Between frames: the buffer is empty and the whole of it is offered. -/
structure Fresh (st : RecvState) : Prop where
  head : st.recvBuffer.head = 0
  tail : st.recvBuffer.tail = 0
  capacity : st.recvBuffer.capacity = recvBufCapacity
  posted : st.posted = some (recvBufCapacity : Int)
  connected : st.disconnected = false
  oversized : st.totalOversizedPacketRejections = 0
  limited : st.totalRateLimitRejections = 0

theorem Fresh.ok {st : RecvState} (h : Fresh st) : st.recvBuffer.Ok :=
  ⟨h.tail.ge, by rw [h.tail, h.head], by rw [h.head]; exact Int.natCast_nonneg _⟩

theorem Fresh.pending {st : RecvState} (h : Fresh st) : st.recvBuffer.pending = [] := by
  unfold RecvBuffer.pending RecvBuffer.getDataSize
  rw [h.head, h.tail]
  exact slice_zero _ _

theorem fresh_accepted : Fresh .accepted := ⟨rfl, rfl, rfl, rfl, rfl, rfl, rfl⟩

theorem fresh_postRecv {st : RecvState} (hl : Looping st) (hhead : st.recvBuffer.head = 0)
    (htail : st.recvBuffer.tail = 0) (hcap : st.recvBuffer.capacity = recvBufCapacity) :
    Fresh st.postRecv := by
  have hptr : st.recvBuffer.getWriteBufferPtr = st.recvBuffer := by
    unfold RecvBuffer.getWriteBufferPtr
    rw [if_neg (by rw [hhead, hcap]; decide)]
  unfold RecvState.postRecv
  rw [if_neg (by rw [hl.connected]; exact Bool.false_ne_true), hptr]
  refine ⟨hhead, htail, hcap, ?_, hl.connected, hl.oversized, hl.limited⟩
  simp only [RecvBuffer.getWriteBufferSize]
  rw [hhead, hcap, Int.sub_zero]

section

variable (handlers maxPacketSize verdict)

/-- A piece no longer than the buffer is taken whole, and is then all that is pending. -/
theorem Fresh.receive {st : RecvState} (h : Fresh st) {bytes : Bytes} (hne : bytes ≠ [])
    (hlen : bytes.length ≤ recvBufCapacity) :
    recvNext handlers maxPacketSize verdict st bytes =
        some (recvLoop handlers maxPacketSize verdict (bytes.length + 1) (st.written bytes)) ∧
      (st.written bytes).recvBuffer.Ok ∧ (st.written bytes).recvBuffer.pending = bytes ∧
      Looping (st.written bytes) := by
  have hfit : (bytes.length : Int) ≤ st.recvBuffer.getWriteBufferSize := by
    unfold RecvBuffer.getWriteBufferSize
    rw [h.head, h.capacity]
    omega
  have hok : (st.written bytes).recvBuffer.Ok := RecvBuffer.ok_receive_write hfit h.ok
  have hpend : (st.written bytes).recvBuffer.pending = bytes := by
    have := RecvBuffer.pending_receive_write hfit h.ok
    rwa [h.pending, List.nil_append] at this
  have hsize : (st.written bytes).recvBuffer.getDataSize.toNat = bytes.length := by
    have := RecvBuffer.pending_length hok
    rw [hpend] at this
    omega
  refine ⟨?_, hok, hpend, rfl, h.connected, h.oversized, h.limited⟩
  unfold recvNext handleRecv
  rw [h.posted]
  simp only
  rw [if_pos ⟨hne, by omega⟩, hsize]

/-- A frame the server takes leaves it between frames. -/
theorem Fresh.frame {st : RecvState} (h : Fresh st) {f : Bytes} (hf : Taken maxPacketSize f) :
    ∃ st', recvNext handlers maxPacketSize (fun _ => true) st f = some st' ∧ Fresh st' := by
  obtain ⟨hframe, hle, hcap⟩ := hf
  have hsize := (headerSize_le_of_declared (completeFrame_eq_some.mp hframe).1).2
  unfold headerSize at hsize
  have hne : f ≠ [] := by
    rintro rfl
    exact absurd hsize (by decide)
  obtain ⟨hnext, hok, hpend, hl⟩ := h.receive handlers maxPacketSize (fun _ => true) hne hcap
  obtain ⟨k, hk⟩ : ∃ k, f.length = k + 1 := ⟨f.length - 1, by omega⟩
  set b := (st.written f).recvBuffer with hb
  have hlen : f.length ≤ b.pending.length := by rw [hpend]
  -- the frame is all there is, so popping it starts the buffer over
  have hpop : b.pop f.length = { b with tail := 0, head := 0 } := by
    have htail : b.tail = 0 := h.tail
    have hhead : b.head = f.length := by
      simp only [hb, RecvState.written, RecvState.setBuffer, RecvBuffer.write, RecvBuffer.receive,
        h.head, Int.zero_add]
    unfold RecvBuffer.pop
    rw [if_pos (by omega)]
  have hempty :
      completeFrame (serve handlers (st.written f) f.length).recvBuffer.pending = none := by
    show completeFrame (b.pop f.length).pending = none
    rw [RecvBuffer.pending_pop hlen hok, hpend, List.drop_length]
    rfl
  refine ⟨_, hnext, ?_⟩
  rw [recvLoop_serve hok (hpend.symm ▸ hframe) hle rfl, hk,
    recvLoop_wait (RecvBuffer.ok_pop (by rw [← hk]; exact hlen) hok) (by rw [← hk]; exact hempty),
    ← hk]
  refine fresh_postRecv (looping_serve hl _) ?_ ?_ ?_
  · show (b.pop f.length).head = 0
    rw [hpop]
  · show (b.pop f.length).tail = 0
    rw [hpop]
  · show (b.pop f.length).capacity = recvBufCapacity
    rw [RecvBuffer.capacity_pop]
    exact h.capacity

/-- A buffer full of a frame that declares more leaves no window, and no rejection. -/
theorem Fresh.fill {st : RecvState} (h : Fresh st) {bytes : Bytes}
    (hlen : bytes.length = recvBufCapacity) {total : Nat} (hdecl : declaredTotal bytes = some total)
    (hbig : recvBufCapacity < total) :
    ∃ st', recvNext handlers maxPacketSize verdict st bytes = some st' ∧ st'.posted = some 0 ∧
      st'.disconnected = false ∧ st'.totalOversizedPacketRejections = 0 := by
  have hne : bytes ≠ [] := by
    rintro rfl
    exact absurd hlen (by decide)
  obtain ⟨hnext, hok, hpend, hl⟩ := h.receive handlers maxPacketSize verdict hne hlen.le
  have hframe : completeFrame (st.written bytes).recvBuffer.pending = none := by
    rw [hpend]
    cases hc : completeFrame bytes with
    | none => rfl
    | some n =>
      obtain ⟨hdecl', hle⟩ := completeFrame_eq_some.mp hc
      rw [hdecl] at hdecl'
      obtain rfl := Option.some.inj hdecl'
      omega
  have hzero : (st.written bytes).recvBuffer.getWriteBufferPtr.getWriteBufferSize = 0 := by
    have hnot := mt (RecvBuffer.window_pos_iff hok).mp (by
      rw [hpend, show (st.written bytes).recvBuffer.capacity = recvBufCapacity from h.capacity]
      omega)
    have hge := RecvBuffer.window_nonneg hok
    omega
  refine ⟨_, hnext, ?_⟩
  rw [recvLoop_wait hok hframe]
  unfold RecvState.postRecv
  rw [if_neg (by rw [hl.connected]; exact Bool.false_ne_true)]
  exact ⟨congrArg some hzero, hl.connected, hl.oversized⟩

end

theorem Fresh.frames (handlers : UInt16 → Bool) {st : RecvState} (h : Fresh st)
    {frames : List Bytes} (hf : ∀ f ∈ frames, Taken maxPacketSize f) :
    ∃ st', run (recvNext handlers maxPacketSize fun _ => true) st frames = some st' ∧
      Fresh st' := by
  induction frames generalizing st with
  | nil => exact ⟨st, rfl, h⟩
  | cons f frames ih =>
    obtain ⟨st₁, hnext, h₁⟩ := h.frame handlers maxPacketSize (hf f List.mem_cons_self)
    obtain ⟨st', hrun, h'⟩ := ih h₁ fun f' hf' => hf f' (List.mem_cons_of_mem f hf')
    refine ⟨st', ?_, h'⟩
    rw [run, hnext]
    exact hrun

/-- **A huge frame gets the receive path stuck**: some run over the stream leaves a `WSARecv`
without room, on a session that is connected and has had no frame refused. -/
theorem stuck_of_huge (handlers : UInt16 → Bool) {stream : Bytes}
    (hh : HugeFrame maxPacketSize stream) :
    ∃ chunks st, chunks.flatten <+: stream ∧
      run (recvNext handlers maxPacketSize fun _ => true) .accepted chunks = some st ∧
      st.posted = some 0 ∧ st.disconnected = false ∧ st.totalOversizedPacketRejections = 0 := by
  obtain ⟨frames, rest, total, rfl, htaken, hdecl, hbig, hlen⟩ := hh
  obtain ⟨st, hrun, hfresh⟩ := fresh_accepted.frames handlers htaken
  have htake : (rest.take recvBufCapacity).length = recvBufCapacity := by
    rw [List.length_take, Nat.min_eq_left hlen]
  have hdecl' : declaredTotal (rest.take recvBufCapacity) = some total := by
    have hp := (headerSize_le_of_declared hdecl).1
    unfold declaredTotal totalPacketSize at hdecl ⊢
    rw [htake, if_neg (by decide), PacketHeader.ofBytes_take (by decide) hp]
    rwa [if_neg (by omega)] at hdecl
  obtain ⟨st', hnext, hstuck⟩ :=
    hfresh.fill handlers maxPacketSize (fun _ => true) htake hdecl' hbig
  refine ⟨frames ++ [rest.take recvBufCapacity], st', ?_, run_snoc hrun hnext, hstuck⟩
  rw [List.flatten_append, List.flatten_singleton]
  exact (List.prefix_append_right_inj _).mpr (List.take_prefix _ _)

/-- **Exactly when the receive path stays clear**: no run over the stream gets stuck iff the
stream holds no huge frame. -/
theorem recv_unstuck_iff (handlers : UInt16 → Bool) (maxPacketSize : Int) (stream : Bytes) :
    (∀ verdict chunks st, chunks.flatten <+: stream →
      run (recvNext handlers maxPacketSize verdict) .accepted chunks = some st →
      Unstuck maxPacketSize st) ↔ ¬ HugeFrame maxPacketSize stream := by
  constructor
  · intro hall hh
    obtain ⟨chunks, st, hpre, hrun, hposted, -⟩ := stuck_of_huge handlers hh
    exact absurd ((hall _ chunks st hpre hrun).window 0 hposted) (by decide)
  · intro hh verdict chunks st hpre hrun
    exact unstuck_of_not_huge hh hpre hrun

/-- The first 8192 bytes of a chat frame whose header declares a payload of 65535. -/
def hugeChat : Bytes := [255, 255, 3, 0] ++ List.replicate 8188 0

/-- With the shipped `max_packet_size`, `hugeChat` leaves the session connected, its frame not
refused, and a `WSARecv` of no bytes outstanding. -/
theorem recv_stuck_hugeChat :
    ∃ chunks st, chunks.flatten <+: hugeChat ∧
      run (recvNext (fun id => id == 3) 4096 fun _ => true) .accepted chunks = some st ∧
      ¬ Unstuck 4096 st ∧ st.posted = some 0 ∧ st.disconnected = false ∧
      st.totalOversizedPacketRejections = 0 := by
  have hlen : hugeChat.length = recvBufCapacity := by
    simp only [hugeChat, List.length_append, List.length_replicate]
    rfl
  have hdecl : declaredTotal hugeChat = some 65539 := by
    rw [declaredTotal, hlen, if_neg (by decide)]
    rfl
  obtain ⟨chunks, st, hpre, hrun, hposted, hconn, hrej⟩ :=
    stuck_of_huge (fun id => id == 3)
      (show HugeFrame 4096 hugeChat from
        ⟨[], hugeChat, 65539, rfl, by simp, hdecl, by decide, hlen.ge⟩)
  exact ⟨chunks, st, hpre, hrun, fun h => absurd (h.window 0 hposted) (by decide), hposted, hconn,
    hrej⟩

end RealtimeServer
