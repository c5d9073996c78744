import RealtimeServer.Packet.Frames

/-!
# The test client's receive loop

Model of `RecvLoop` (`TestClient.cpp`): every `recv` fills the buffer from its start, the loop over
the buffer takes the packets that are there whole, and what is left of the last one is forgotten.

* `recvPackets_eq`: of each receive by itself the loop takes what the reference framing reads.
* **`recvLoop_reads_iff`**: of a stream of packets it takes exactly these if and only if 16 bits
  hold the length of every payload and every receive ends where a packet ends.
* `long_unread`: so a packet longer than the buffer is never read.
-/

namespace RealtimeServer

open Stream

/-- The loop over the first `n` bytes of `buf`, from `offset` on. -/
def takePackets (buf : Bytes) (n offset : Nat) : List (UInt16 × Bytes) :=
  if offset + headerSize ≤ n then
    let header := PacketHeader.ofBytes (buf.drop offset)
    let total := headerSize + header.packetSize.toNat
    if n < offset + total then []
    else (header.packetId, slice buf (offset + headerSize) header.packetSize.toNat) ::
      takePackets buf n (offset + total)
  else []
termination_by n - offset
decreasing_by
  unfold headerSize at *
  omega

/-- `RecvLoop`, with what each `recv` receives. -/
def recvPackets (buf : Bytes) : List Bytes → List (UInt16 × Bytes)
  | [] => []
  | received :: others =>
    let buf := overwrite buf 0 received
    takePackets buf received.length 0 ++ recvPackets buf others

/-- `sizeof(buf)`. -/
def clientBufferSize : Nat := 4096

variable {received rest buf : Bytes} {receives : List Bytes} {packets : List (UInt16 × Bytes)}

/-- The loop takes what the reference framing reads. -/
theorem takePackets_eq {offset : Nat} (h : offset ≤ received.length) :
    takePackets (received ++ rest) received.length offset =
      referenceFraming maxFrameSize (received.drop offset) := by
  induction hleft : received.length - offset using Nat.strong_induction_on generalizing offset with
  | _ left ih =>
    have hdrop : (received ++ rest).drop offset = received.drop offset ++ rest :=
      List.drop_append_of_le_length h
    have hlength : (received.drop offset).length = received.length - offset :=
      List.length_drop
    rw [takePackets]
    by_cases hheader : offset + headerSize ≤ received.length
    · have hthere : headerSize ≤ (received.drop offset).length := by omega
      rw [if_pos hheader, hdrop, PacketHeader.ofBytes_append hthere]
      simp only
      by_cases hwhole : received.length < offset + totalPacketSize (received.drop offset)
      · have hincomplete : completeFrame (received.drop offset) = none := by
          unfold completeFrame
          rw [if_neg (by omega), if_pos (by omega)]
        rw [referenceFraming_incomplete hincomplete]
        exact if_pos hwhole
      · have hcomplete : completeFrame (received.drop offset) =
            some (totalPacketSize (received.drop offset)) := by
          unfold completeFrame
          rw [if_neg (by omega), if_neg (by omega)]
        have hlimit : ((totalPacketSize (received.drop offset) : Nat) : Int) ≤ maxFrameSize := by
          have := (PacketHeader.ofBytes (received.drop offset)).packetSize.toNat_lt
          unfold totalPacketSize maxFrameSize
          omega
        have hframe := referenceFraming_frame hcomplete hlimit []
        rw [List.append_nil, List.append_nil, List.drop_drop] at hframe
        have hslice : slice (received ++ rest) (offset + headerSize)
            (PacketHeader.ofBytes (received.drop offset)).packetSize.toNat =
            ((received.drop offset).take (totalPacketSize (received.drop offset))).drop
              headerSize := by
          unfold slice
          unfold totalPacketSize at hwhole ⊢
          rw [List.drop_append_of_le_length hheader, List.drop_take, List.drop_drop,
            Nat.add_sub_cancel_left, List.take_append_of_le_length]
          rw [List.length_drop]
          omega
        have hpos : 0 < totalPacketSize (received.drop offset) := by
          unfold totalPacketSize headerSize
          omega
        rw [hframe, hslice, ← ih (received.length - (offset + totalPacketSize
          (received.drop offset))) (by omega) (by omega) rfl]
        exact if_neg hwhole
    · have hincomplete : completeFrame (received.drop offset) = none := by
        unfold completeFrame
        rw [if_pos (by omega)]
      rw [if_neg hheader, referenceFraming_incomplete hincomplete]

theorem recvPackets_eq : recvPackets buf receives =
    receives.flatMap (referenceFraming maxFrameSize) := by
  induction receives generalizing buf with
  | nil => rfl
  | cons received receives ih =>
    have hbuf : overwrite buf 0 received = received ++ buf.drop received.length := by
      simp [overwrite]
    rw [List.flatMap_cons, recvPackets, ih, hbuf, takePackets_eq (Nat.zero_le _), List.drop_zero]

/-- The bytes of a number that two bytes denote are these. -/
theorem u16Bytes_u16le (lo hi : UInt8) : u16Bytes (u16le lo hi) = [lo, hi] := by
  have hvalue : (u16le lo hi).toNat = hi.toNat * 256 + lo.toNat := by
    have hlo := lo.toNat_lt
    have hhi := hi.toNat_lt
    unfold u16le
    rw [UInt16.toNat_or, UInt16.toNat_shiftLeft, UInt8.toNat_toUInt16, UInt8.toNat_toUInt16,
      Nat.or_comm]
    change (hi.toNat <<< 8) % 2 ^ 16 ||| lo.toNat = _
    have hfits : hi.toNat <<< 8 < 2 ^ 16 := by
      rw [Nat.shiftLeft_eq]
      omega
    rw [Nat.mod_eq_of_lt hfits, ← Nat.shiftLeft_add_eq_or_of_lt (by omega), Nat.shiftLeft_eq]
  have hlow : (u16le lo hi).toUInt8 = lo := by
    have hlo := lo.toNat_lt
    apply UInt8.toNat_inj.mp
    rw [UInt16.toNat_toUInt8, hvalue]
    omega
  have hhigh : ((u16le lo hi) >>> 8).toUInt8 = hi := by
    have hlo := lo.toNat_lt
    have hhi := hi.toNat_lt
    apply UInt8.toNat_inj.mp
    rw [UInt16.toNat_toUInt8, UInt16.toNat_shiftRight]
    change (u16le lo hi).toNat >>> 8 % 256 = hi.toNat
    rw [Nat.shiftRight_eq_div_pow, hvalue]
    omega
  unfold u16Bytes
  rw [hlow, hhigh]

/-- What the reference framing reads stands at the beginning of the text. -/
theorem frames_framing (maxPacketSize : Int) (text : Bytes) :
    frames (referenceFraming maxPacketSize text) <+: text ∧
      ∀ packet ∈ referenceFraming maxPacketSize text, packet.2.length < 2 ^ 16 := by
  fun_induction referenceFraming maxPacketSize text with
  | case1 b0 b1 b2 b3 rest header payloadSize hover => exact ⟨List.nil_prefix, by simp⟩
  | case2 b0 b1 b2 b3 rest header payloadSize hover hless => exact ⟨List.nil_prefix, by simp⟩
  | case3 b0 b1 b2 b3 rest header payloadSize hover hless ih =>
    have hlength : (rest.take payloadSize).length = payloadSize := by
      rw [List.length_take]
      omega
    have hframe : frame header.packetId (rest.take payloadSize) =
        b0 :: b1 :: b2 :: b3 :: rest.take payloadSize := by
      unfold frame
      rw [hlength]
      change u16Bytes (UInt16.ofNat (u16le b0 b1).toNat) ++ u16Bytes (u16le b2 b3) ++ _ = _
      rw [UInt16.ofNat_toNat, u16Bytes_u16le, u16Bytes_u16le]
      rfl
    constructor
    · obtain ⟨tail, htail⟩ := ih.1
      refine ⟨tail, ?_⟩
      rw [frames_cons, hframe, List.append_assoc, htail]
      change b0 :: b1 :: b2 :: b3 :: (rest.take payloadSize ++ rest.drop payloadSize) = _
      rw [List.take_append_drop]
    · refine List.forall_mem_cons.mpr ⟨?_, ih.2⟩
      rw [hlength]
      exact (u16le b0 b1).toNat_lt
  | case4 text hshort => exact ⟨List.nil_prefix, by simp⟩

theorem length_framing_le (receives : List Bytes) :
    (frames (receives.flatMap (referenceFraming maxFrameSize))).length ≤
      receives.flatten.length := by
  induction receives with
  | nil => exact le_refl 0
  | cons received receives ih =>
    have hle := (frames_framing maxFrameSize received).1.length_le
    rw [List.flatMap_cons, frames_append, List.flatten_cons, List.length_append,
      List.length_append]
    omega

/-- Where the packets taken are as long as what was received, nothing was forgotten. -/
theorem frames_of_taken
    (h : frames (receives.flatMap (referenceFraming maxFrameSize)) = receives.flatten) :
    receives.map (fun received => frames (referenceFraming maxFrameSize received)) =
      receives := by
  induction receives with
  | nil => rfl
  | cons received receives ih =>
    have hfirst := (frames_framing maxFrameSize received).1
    have hle := hfirst.length_le
    have hothers := length_framing_le receives
    rw [List.flatMap_cons, frames_append, List.flatten_cons] at h
    have hlength := congrArg List.length h
    rw [List.length_append, List.length_append] at hlength
    have hall : frames (referenceFraming maxFrameSize received) = received :=
      hfirst.eq_of_length (by omega)
    rw [hall, List.append_cancel_left_eq] at h
    rw [List.map_cons, hall, ih h]

/-- **What the test client reads** of a stream of packets is the packets if and only if 16 bits hold
the length of every payload and every `recv` returns a number of whole packets. -/
theorem recvLoop_reads_iff (hstream : receives.flatten = frames packets) :
    recvPackets buf receives = packets ↔
      (∀ packet ∈ packets, packet.2.length < 2 ^ 16) ∧
        ∃ groups : List (List (UInt16 × Bytes)), groups.flatten = packets ∧
          receives = groups.map frames := by
  rw [recvPackets_eq]
  constructor
  · intro hread
    rw [← hread] at hstream
    refine ⟨?_, receives.map (referenceFraming maxFrameSize), ?_, ?_⟩
    · rw [← hread]
      intro packet hpacket
      obtain ⟨received, -, hpacket⟩ := List.mem_flatMap.mp hpacket
      exact (frames_framing maxFrameSize received).2 packet hpacket
    · rw [← List.flatMap_def, hread]
    · rw [List.map_map]
      exact (frames_of_taken hstream.symm).symm
  · rintro ⟨hsize, groups, rfl, rfl⟩
    have hgroup : ∀ group ∈ groups, referenceFraming maxFrameSize (frames group) = group :=
      fun group hgroup => referenceFraming_iff.mpr fun packet hpacket =>
        hsize packet (List.mem_flatten.mpr ⟨group, hgroup, hpacket⟩)
    rw [List.flatMap_map, List.flatMap_def, List.map_congr_left hgroup, List.map_id']

/-- A packet longer than the buffer is not read, however the bytes come. -/
theorem long_unread {packet : UInt16 × Bytes}
    (hsize : ∀ received ∈ receives, received.length ≤ clientBufferSize)
    (hpacket : packet ∈ packets) (hlong : clientBufferSize < headerSize + packet.2.length) :
    recvPackets buf receives ≠ packets := by
  intro hread
  rw [recvPackets_eq] at hread
  rw [← hread] at hpacket
  obtain ⟨received, hreceived, hmem⟩ := List.mem_flatMap.mp hpacket
  have hlength : (frames [packet]).length ≤ received.length := by
    obtain ⟨before, behind, hsplit⟩ := List.append_of_mem hmem
    have hle := (frames_framing maxFrameSize received).1.length_le
    rw [hsplit, frames_append, List.length_append, frames_cons, List.length_append] at hle
    rw [frames_cons, frames_nil, List.append_nil]
    omega
  rw [frames_cons, frames_nil, List.append_nil, length_frame] at hlength
  have hfits := hsize received hreceived
  omega

/-- Two receives of one and of two packets. -/
theorem recvLoop_reads_iff_wholePackets :
    recvPackets (List.replicate clientBufferSize 0)
        [frame 2 [1], frame 4 [7, 7] ++ frame 7 []] = [(2, [1]), (4, [7, 7]), (7, [])] :=
  (recvLoop_reads_iff (by simp [frames])).mpr
    ⟨by simp, [[(2, [1])], [(4, [7, 7]), (7, [])]], rfl, by simp [frames]⟩

end RealtimeServer
