import Mathlib.Data.List.Basic
import Mathlib.Tactic.Linarith
import RealtimeServer.Lib.Stream

/-!
# The receive buffer and the frames in it

Model of `RecvBuffer` (`Packet/RecvBuffer.h`, `Packet/RecvBuffer.cpp`) and `PacketHeader`
(`Packet/PacketHeader.h`). The buffer is a fixed array with a write cursor `head` and a read cursor
`tail`; the cursors are `int` in the source and `Int` here, so that they stay in the array is a
theorem (`Ok`) and not a matter of type.

* `pending b` is the abstraction: the bytes received and not yet popped, `[tail, head)`. Every
  operation has one lemma saying what it does to `pending` (`pending_write`, `pending_pop`,
  `pending_getWriteBufferPtr`) and one saying it keeps `Ok`.
* `tryGetPacket_eq`: `TryGetPacket` reads only `pending`.
* `referenceFraming`: what a byte stream holds, frame by frame, without any buffer.
-/

namespace RealtimeServer

open Stream

/-- A byte string (`std::string`, `char*` with a length). -/
abbrev Bytes := List UInt8

/-! ## Packet headers -/

/-- `PacketHeader`. -/
structure PacketHeader where
  packetSize : UInt16
  packetId : UInt16
  deriving DecidableEq

/-- `sizeof(PacketHeader)`. -/
def headerSize : Nat := 4

/-- A little-endian `uint16_t`. -/
def u16le (lo hi : UInt8) : UInt16 := lo.toUInt16 ||| (hi.toUInt16 <<< 8)

/-- `(PacketHeader*)p`: the two fields at the start of `p`. The source casts only where four bytes
are present; the other case is never read. -/
def PacketHeader.ofBytes : Bytes → PacketHeader
  | b0 :: b1 :: b2 :: b3 :: _ => ⟨u16le b0 b1, u16le b2 b3⟩
  | _ => ⟨0, 0⟩

theorem PacketHeader.ofBytes_append {p : Bytes} (h : headerSize ≤ p.length) (rest : Bytes) :
    ofBytes (p ++ rest) = ofBytes p := by
  match p, h with
  | _ :: _ :: _ :: _ :: _, _ => rfl

theorem PacketHeader.ofBytes_take {p : Bytes} {n : Nat} (hn : headerSize ≤ n)
    (hp : headerSize ≤ p.length) : ofBytes (p.take n) = ofBytes p := by
  have hlen : headerSize ≤ (p.take n).length := by rw [List.length_take]; omega
  rw [← ofBytes_append hlen (p.drop n), List.take_append_drop]

/-- `sizeof(PacketHeader) + header->packetSize` for the header at the start of `p`. -/
def totalPacketSize (p : Bytes) : Nat := headerSize + (PacketHeader.ofBytes p).packetSize.toNat

/-- The total a frame at the start of `p` declares, once its header is there. -/
def declaredTotal (p : Bytes) : Option Nat :=
  if p.length < headerSize then none else some (totalPacketSize p)

/-- The length of the complete frame at the start of `p`, if there is one. -/
def completeFrame (p : Bytes) : Option Nat :=
  if p.length < headerSize then none
  else if p.length < totalPacketSize p then none
  else some (totalPacketSize p)

theorem completeFrame_eq_some {p : Bytes} {n : Nat} :
    completeFrame p = some n ↔ declaredTotal p = some n ∧ n ≤ p.length := by
  unfold completeFrame declaredTotal
  split
  · simp
  · split
    · simp only [reduceCtorEq, Option.some.injEq, false_iff, not_and]
      omega
    · simp only [Option.some.injEq]
      omega

theorem headerSize_le_of_declared {p : Bytes} {n : Nat} (h : declaredTotal p = some n) :
    headerSize ≤ p.length ∧ headerSize ≤ n := by
  unfold declaredTotal at h
  split at h
  · exact absurd h (by simp)
  · obtain rfl := Option.some.inj h
    exact ⟨by omega, by unfold totalPacketSize; omega⟩

theorem declaredTotal_append {p : Bytes} {n : Nat} (h : declaredTotal p = some n) (rest : Bytes) :
    declaredTotal (p ++ rest) = some n := by
  have hp := (headerSize_le_of_declared h).1
  unfold declaredTotal totalPacketSize at h ⊢
  rw [PacketHeader.ofBytes_append hp, List.length_append, if_neg (by omega)]
  rwa [if_neg (by omega)] at h

/-! ## The reference framing -/

/-- **What a byte stream holds**: a 4-byte header, then `packetSize` payload bytes, repeatedly;
complete frames only, up to the first frame whose total exceeds `maxPacketSize`. -/
def referenceFraming (maxPacketSize : Int) : Bytes → List (UInt16 × Bytes)
  | b0 :: b1 :: b2 :: b3 :: rest =>
    let header : PacketHeader := ⟨u16le b0 b1, u16le b2 b3⟩
    let payloadSize := header.packetSize.toNat
    if maxPacketSize < ((headerSize + payloadSize : Nat) : Int) then []
    else if rest.length < payloadSize then []
    else (header.packetId, rest.take payloadSize) ::
      referenceFraming maxPacketSize (rest.drop payloadSize)
  | _ => []
termination_by p => p.length
decreasing_by simp only [List.length_drop, List.length_cons]; omega

variable {maxPacketSize : Int}

/-- A complete frame within the limit is the first item, whatever follows it. -/
theorem referenceFraming_frame {p : Bytes} {n : Nat} (hn : completeFrame p = some n)
    (hle : (n : Int) ≤ maxPacketSize) (rest : Bytes) :
    referenceFraming maxPacketSize (p ++ rest) =
      ((PacketHeader.ofBytes p).packetId, (p.take n).drop headerSize) ::
        referenceFraming maxPacketSize (p.drop n ++ rest) := by
  obtain ⟨hdecl, hlen⟩ := completeFrame_eq_some.mp hn
  have hp := (headerSize_le_of_declared hdecl).1
  match p, hp with
  | b0 :: b1 :: b2 :: b3 :: body, _ =>
    unfold declaredTotal at hdecl
    rw [if_neg (by simp [headerSize])] at hdecl
    have hn' : n = headerSize + (u16le b0 b1).toNat := (Option.some.inj hdecl).symm
    subst hn'
    have hbody : (u16le b0 b1).toNat ≤ body.length := by
      simp only [List.length_cons, headerSize] at hlen; omega
    simp only [List.cons_append]
    rw [referenceFraming]
    simp only
    rw [if_neg (by omega), if_neg (by rw [List.length_append]; omega),
      List.take_append_of_le_length hbody, List.drop_append_of_le_length hbody]
    simp [PacketHeader.ofBytes, headerSize, Nat.add_comm 4]

/-- Nothing comes from a stream that starts with a frame past the limit. -/
theorem referenceFraming_oversized {p : Bytes} {n : Nat} (hn : declaredTotal p = some n)
    (hgt : maxPacketSize < n) : referenceFraming maxPacketSize p = [] := by
  have hp := (headerSize_le_of_declared hn).1
  match p, hp with
  | b0 :: b1 :: b2 :: b3 :: body, _ =>
    unfold declaredTotal at hn
    rw [if_neg (by simp [headerSize])] at hn
    have hn' : n = headerSize + (u16le b0 b1).toNat := (Option.some.inj hn).symm
    subst hn'
    rw [referenceFraming]
    simp only
    rw [if_pos hgt]

/-- Nothing comes from an incomplete frame. -/
theorem referenceFraming_incomplete {p : Bytes} (hp : completeFrame p = none) :
    referenceFraming maxPacketSize p = [] := by
  unfold completeFrame at hp
  match p with
  | [] => rw [referenceFraming]; simp
  | [_] => rw [referenceFraming]; simp
  | [_, _] => rw [referenceFraming]; simp
  | [_, _, _] => rw [referenceFraming]; simp
  | b0 :: b1 :: b2 :: b3 :: body =>
    rw [if_neg (by simp [headerSize])] at hp
    have hlt : body.length < (u16le b0 b1).toNat := by
      split at hp
      · rename_i h
        simp only [List.length_cons, totalPacketSize, PacketHeader.ofBytes, headerSize] at h
        omega
      · exact absurd hp (by simp)
    rw [referenceFraming]
    simp only
    rw [if_pos hlt, ite_self]

/-! ## The buffer -/

/-- `RecvBuffer`. -/
structure RecvBuffer where
  capacity : Nat
  data : Bytes
  head : Int
  tail : Int
  size_data : data.length = capacity

namespace RecvBuffer

/-- `RecvBuffer::RecvBuffer`: `m_data(capacity)` holds `capacity` zero bytes. -/
def new (capacity : Nat) : RecvBuffer where
  capacity := capacity
  data := List.replicate capacity 0
  head := 0
  tail := 0
  size_data := List.length_replicate

/-- `GetDataSize`. -/
def getDataSize (b : RecvBuffer) : Int := b.head - b.tail

/-- `Write`. -/
def write (b : RecvBuffer) (size : Int) : RecvBuffer := { b with head := b.head + size }

/-- `TryGetPacket`: the `outSize` it reports; `outData` is the read position. -/
def tryGetPacket (b : RecvBuffer) : Option Int :=
  if b.getDataSize < headerSize then none
  else
    let total : Int := totalPacketSize (b.data.drop b.tail.toNat)
    if b.getDataSize < total then none else some total

/-- The `outSize` bytes at `outData`. -/
def packetData (b : RecvBuffer) (outSize : Int) : Bytes := slice b.data b.tail.toNat outSize.toNat

/-- `Pop`: a buffer read to the end starts over. -/
def pop (b : RecvBuffer) (size : Int) : RecvBuffer :=
  if b.tail + size = b.head then { b with tail := 0, head := 0 }
  else { b with tail := b.tail + size }

/-- `std::memmove(m_data.data(), m_data.data() + m_tail, dataSize)`, for a block that fits. -/
def memmove (b : RecvBuffer) : RecvBuffer :=
  let block := slice b.data b.tail.toNat b.getDataSize.toNat
  { b with
    data := overwrite b.data 0 block
    size_data := (overwrite_front_length slice_length_le).trans b.size_data }

/-- `Compact`. -/
def compact (b : RecvBuffer) : RecvBuffer :=
  let dataSize := b.getDataSize
  let moved := if 0 < b.tail ∧ 0 < dataSize then b.memmove else b
  { moved with tail := 0, head := dataSize }

/-- `GetWriteBufferPtr`: compacts when the head is at the end. The pointer it returns is the
write position. -/
def getWriteBufferPtr (b : RecvBuffer) : RecvBuffer :=
  if (b.capacity : Int) ≤ b.head then b.compact else b

/-- `GetWriteBufferSize`. -/
def getWriteBufferSize (b : RecvBuffer) : Int := b.capacity - b.head

/-- What the socket layer does with the window it was handed: the received bytes are stored from
the write position on. Bytes stored past the end would not be in the array. -/
def receive (b : RecvBuffer) (bytes : Bytes) : RecvBuffer :=
  { b with
    data := (overwrite b.data b.head.toNat bytes).take b.capacity
    size_data := overwrite_take_length b.size_data _ _ }

/-- The cursors lie in the array, the read cursor behind the write cursor. -/
structure Ok (b : RecvBuffer) : Prop where
  tail_nonneg : 0 ≤ b.tail
  tail_le_head : b.tail ≤ b.head
  head_le : b.head ≤ b.capacity

/-- **The abstraction**: the bytes received and not popped. -/
def pending (b : RecvBuffer) : Bytes := slice b.data b.tail.toNat b.getDataSize.toNat

theorem ok_new (capacity : Nat) : (new capacity).Ok :=
  ⟨le_refl _, le_refl _, Int.natCast_nonneg _⟩

theorem pending_new (capacity : Nat) : (new capacity).pending = [] :=
  slice_zero _ _

variable {b : RecvBuffer}

theorem pending_length (h : b.Ok) : (b.pending.length : Int) = b.getDataSize := by
  obtain ⟨h0, h1, h2⟩ := h
  unfold pending
  rw [slice_length (by rw [b.size_data]; unfold getDataSize; omega)]
  unfold getDataSize
  omega

/-- **`TryGetPacket` reads `pending`**: it reports the complete frame at its start. -/
theorem tryGetPacket_eq (h : b.Ok) :
    b.tryGetPacket = (completeFrame b.pending).map Nat.cast := by
  have hlen := pending_length h
  unfold tryGetPacket completeFrame
  by_cases hh : b.getDataSize < headerSize
  · rw [if_pos hh, if_pos (show b.pending.length < headerSize by omega)]
    rfl
  · rw [if_neg hh, if_neg (show ¬ b.pending.length < headerSize by omega)]
    have htotal : totalPacketSize (b.data.drop b.tail.toNat) = totalPacketSize b.pending := by
      have hdrop : headerSize ≤ (b.data.drop b.tail.toNat).length := by
        have := h.head_le
        have := h.tail_nonneg
        have := h.tail_le_head
        rw [List.length_drop, b.size_data]
        unfold getDataSize at hh
        omega
      unfold totalPacketSize pending slice
      rw [PacketHeader.ofBytes_take (by omega) hdrop]
    rw [htotal]
    by_cases ht : b.getDataSize < (totalPacketSize b.pending : Int)
    · rw [if_pos ht, if_pos (show b.pending.length < totalPacketSize b.pending by omega)]
      rfl
    · rw [if_neg ht, if_neg (show ¬ b.pending.length < totalPacketSize b.pending by omega)]
      rfl

/-- `outData`, `outSize` delimit the first `outSize` pending bytes. -/
theorem packetData_eq {n : Nat} (hn : n ≤ b.pending.length) (h : b.Ok) :
    b.packetData n = b.pending.take n := by
  have hlen := pending_length h
  unfold packetData pending
  rw [slice_take _ _ (by omega)]
  simp

theorem ok_pop {n : Nat} (hn : n ≤ b.pending.length) (h : b.Ok) : (b.pop n).Ok := by
  have hlen := pending_length h
  obtain ⟨h0, h1, h2⟩ := h
  unfold getDataSize at hlen
  unfold pop
  split
  · exact ⟨le_refl _, le_refl _, Int.natCast_nonneg _⟩
  · exact ⟨by simp only; omega, by simp only; omega, h2⟩

/-- `Pop` drops what was consumed. -/
theorem pending_pop {n : Nat} (hn : n ≤ b.pending.length) (h : b.Ok) :
    (b.pop n).pending = b.pending.drop n := by
  have hlen := pending_length h
  have h0 := h.tail_nonneg
  unfold getDataSize at hlen
  unfold pop
  split
  · rename_i he
    rw [List.drop_eq_nil_of_le (by omega)]
    exact slice_zero _ _
  · unfold pending getDataSize
    rw [slice_drop]
    simp only
    congr 1 <;> omega

theorem ok_receive_write {bytes : Bytes} (hfit : (bytes.length : Int) ≤ b.getWriteBufferSize)
    (h : b.Ok) : ((b.receive bytes).write bytes.length).Ok := by
  obtain ⟨h0, h1, h2⟩ := h
  unfold getWriteBufferSize at hfit
  exact ⟨h0, by simp only [write, receive]; omega, by simp only [write, receive]; omega⟩

/-- `Write` after a receive appends what arrived. -/
theorem pending_receive_write {bytes : Bytes}
    (hfit : (bytes.length : Int) ≤ b.getWriteBufferSize) (h : b.Ok) :
    ((b.receive bytes).write bytes.length).pending = b.pending ++ bytes := by
  obtain ⟨h0, h1, h2⟩ := h
  unfold getWriteBufferSize at hfit
  unfold pending write receive getDataSize
  simp only
  have hhead : b.head.toNat = b.tail.toNat + (b.head - b.tail).toNat := by omega
  have hsum : (b.head + bytes.length - b.tail).toNat = (b.head - b.tail).toNat + bytes.length := by
    omega
  have hroom : b.tail.toNat + (b.head - b.tail).toNat + bytes.length ≤ b.data.length := by
    rw [b.size_data]; omega
  have hin : (overwrite b.data b.head.toNat bytes).length ≤ b.capacity := by
    rw [overwrite_length (by omega), b.size_data]
  rw [List.take_of_length_le hin, hhead, hsum, slice_overwrite_append hroom]

@[simp] theorem compact_head : b.compact.head = b.getDataSize := rfl

@[simp] theorem compact_tail : b.compact.tail = 0 := rfl

@[simp] theorem compact_capacity : b.compact.capacity = b.capacity := by
  unfold compact
  dsimp only
  split <;> rfl

/-- Compacting moves the pending bytes, it changes none. -/
theorem pending_compact (h : b.Ok) : b.compact.pending = b.pending := by
  have hlen := pending_length h
  have hsize : b.compact.getDataSize = b.getDataSize := by
    unfold getDataSize
    rw [compact_head, compact_tail, Int.sub_zero, getDataSize]
  show slice b.compact.data b.compact.tail.toNat b.compact.getDataSize.toNat = b.pending
  rw [hsize, compact_tail]
  by_cases hmove : 0 < b.tail ∧ 0 < b.getDataSize
  · have hdata : b.compact.data = overwrite b.data 0 b.pending := by
      unfold compact
      simp only [if_pos hmove]
      rfl
    have hlen' : b.getDataSize.toNat = b.pending.length := by omega
    calc slice b.compact.data 0 b.getDataSize.toNat
        = slice (overwrite b.data 0 b.pending) 0 b.pending.length := by rw [hdata, hlen']
      _ = b.pending := slice_overwrite_front
  · have hdata : b.compact.data = b.data := by
      unfold compact
      simp only [if_neg hmove]
    have h0 := h.tail_nonneg
    have h1 := h.tail_le_head
    rw [hdata, pending]
    by_cases ht : b.tail = 0
    · rw [ht]
    · have hempty : b.getDataSize.toNat = 0 := by omega
      rw [hempty, slice_zero, slice_zero]

theorem ok_getWriteBufferPtr (h : b.Ok) : b.getWriteBufferPtr.Ok := by
  obtain ⟨h0, h1, h2⟩ := h
  unfold getWriteBufferPtr
  split
  · refine ⟨by simp, ?_, ?_⟩
    · rw [compact_head, compact_tail, getDataSize]; omega
    · rw [compact_head, compact_capacity, getDataSize]; omega
  · exact ⟨h0, h1, h2⟩

theorem pending_getWriteBufferPtr (h : b.Ok) : b.getWriteBufferPtr.pending = b.pending := by
  unfold getWriteBufferPtr
  split
  · exact pending_compact h
  · rfl

theorem capacity_getWriteBufferPtr : b.getWriteBufferPtr.capacity = b.capacity := by
  unfold getWriteBufferPtr
  split
  · exact compact_capacity
  · rfl

/-- **The window** `GetWriteBufferPtr`, `GetWriteBufferSize` offer is empty exactly when the
pending bytes fill the whole array. -/
theorem window_pos_iff (h : b.Ok) :
    0 < b.getWriteBufferPtr.getWriteBufferSize ↔ b.pending.length < b.capacity := by
  have hlen := pending_length h
  obtain ⟨h0, h1, h2⟩ := h
  unfold getWriteBufferSize
  rw [capacity_getWriteBufferPtr]
  unfold getWriteBufferPtr
  split
  · rw [compact_head]
    omega
  · unfold getDataSize at hlen
    omega

theorem window_nonneg (h : b.Ok) : 0 ≤ b.getWriteBufferPtr.getWriteBufferSize := by
  have := (ok_getWriteBufferPtr h).head_le
  unfold getWriteBufferSize
  omega

theorem capacity_pop (size : Int) : (b.pop size).capacity = b.capacity := by
  unfold pop
  split <;> rfl

end RecvBuffer

end RealtimeServer
