import RealtimeServer.Packet.Message

/-!
# Packets one behind the other

What a stream of frames says to the one who reads it. Either side writes its packets one behind the
other (`frames`); what the other side has received is a beginning of that.

* `Framable maxPacketSize`: 16 bits hold the length of the payload, and the packet is within the
  limit.
* `whole n`: the packets that the first `n` bytes hold to their end.
* **`referenceFraming_frames`**: of the first `n` bytes of a stream the reference framing reads
  exactly these.
* `referenceFraming_iff`: a reader without a limit reads a whole stream back exactly when 16 bits
  hold the length of every payload in it.
-/

namespace RealtimeServer

/-- The bytes of packets. -/
def frames (packets : List (UInt16 × Bytes)) : Bytes :=
  (packets.map fun packet => frame packet.1 packet.2).flatten

/-- The packets that the first `n` bytes hold whole. -/
def whole : Nat → List (UInt16 × Bytes) → List (UInt16 × Bytes)
  | _, [] => []
  | n, packet :: packets =>
    if headerSize + packet.2.length ≤ n then
      packet :: whole (n - (headerSize + packet.2.length)) packets
    else []

/-- The packet is within the limit, and its header can say how long it is. -/
def Framable (maxPacketSize : Int) (packet : UInt16 × Bytes) : Prop :=
  packet.2.length < 2 ^ 16 ∧ ((headerSize + packet.2.length : Nat) : Int) ≤ maxPacketSize

instance (maxPacketSize : Int) (packet : UInt16 × Bytes) :
    Decidable (Framable maxPacketSize packet) := by
  unfold Framable; infer_instance

section

variable {maxPacketSize : Int} {packets : List (UInt16 × Bytes)} {packet : UInt16 × Bytes}

@[simp] theorem frames_nil : frames [] = [] := rfl

theorem frames_cons : frames (packet :: packets) = frame packet.1 packet.2 ++ frames packets := rfl

theorem frames_append (packets' : List (UInt16 × Bytes)) :
    frames (packets ++ packets') = frames packets ++ frames packets' := by
  unfold frames
  rw [List.map_append, List.flatten_append]

/-- The header of a packet says how long it is. -/
theorem declaredTotal_frame (h : packet.2.length < 2 ^ 16) :
    declaredTotal (frame packet.1 packet.2) = some (headerSize + packet.2.length) := by
  unfold declaredTotal totalPacketSize
  rw [header_frame, UInt16.toNat_ofNat_of_lt' h, length_frame, if_neg (by omega)]

/-- A frame is complete with its last byte, and not before. -/
theorem completeFrame_take (h : packet.2.length < 2 ^ 16) {n : Nat}
    (hn : n < headerSize + packet.2.length) :
    completeFrame ((frame packet.1 packet.2).take n) = none := by
  have hlength : ((frame packet.1 packet.2).take n).length = n := by
    rw [List.length_take, length_frame]
    omega
  cases hcomplete : completeFrame ((frame packet.1 packet.2).take n) with
  | none => rfl
  | some total =>
    obtain ⟨hdeclared, hle⟩ := completeFrame_eq_some.mp hcomplete
    have hwhole := declaredTotal_append hdeclared ((frame packet.1 packet.2).drop n)
    rw [List.take_append_drop, declaredTotal_frame h] at hwhole
    have := Option.some.inj hwhole
    omega

/-- **A beginning of a stream** of packets is framed as those of them that are there whole. -/
theorem referenceFraming_frames (h : ∀ packet ∈ packets, Framable maxPacketSize packet) (n : Nat) :
    referenceFraming maxPacketSize ((frames packets).take n) = whole n packets := by
  induction packets generalizing n with
  | nil =>
    rw [frames_nil, List.take_nil]
    exact referenceFraming_incomplete rfl
  | cons packet packets ih =>
    obtain ⟨hsize, hlimit⟩ := h packet List.mem_cons_self
    rw [frames_cons, List.take_append, length_frame, whole]
    by_cases hn : headerSize + packet.2.length ≤ n
    · have hcomplete : completeFrame (frame packet.1 packet.2) =
          some (headerSize + packet.2.length) :=
        completeFrame_eq_some.mpr ⟨declaredTotal_frame hsize, (length_frame _ _).ge⟩
      have hall : (frame packet.1 packet.2).take (headerSize + packet.2.length) =
          frame packet.1 packet.2 := List.take_of_length_le (length_frame _ _).le
      have hnone : (frame packet.1 packet.2).drop (headerSize + packet.2.length) = [] :=
        List.drop_of_length_le (length_frame _ _).le
      rw [if_pos hn, List.take_of_length_le (by rw [length_frame]; exact hn),
        referenceFraming_frame hcomplete hlimit, hall, hnone, header_frame, payload_frame,
        List.nil_append, ih fun packet hp => h packet (List.mem_cons_of_mem _ hp)]
    · have hrest : n - (headerSize + packet.2.length) = 0 := by omega
      rw [if_neg hn, hrest, List.take_zero, List.append_nil]
      exact referenceFraming_incomplete (completeFrame_take hsize (not_le.mp hn))

theorem whole_initial (n : Nat) (packets : List (UInt16 × Bytes)) :
    whole n packets <+: packets := by
  induction packets generalizing n with
  | nil => exact List.prefix_refl _
  | cons packet packets ih =>
    unfold whole
    split
    · exact (List.cons_prefix_cons).mpr ⟨rfl, ih _⟩
    · exact List.nil_prefix

/-- With all the bytes there, all packets are. -/
theorem whole_of_length {n : Nat} (h : (frames packets).length ≤ n) :
    whole n packets = packets := by
  induction packets generalizing n with
  | nil => rfl
  | cons packet packets ih =>
    rw [frames_cons, List.length_append, length_frame] at h
    rw [whole, if_pos (by omega), ih (by omega)]

theorem framing_of_initial {read : Bytes} (h : ∀ packet ∈ packets, Framable maxPacketSize packet)
    (hread : read <+: frames packets) :
    referenceFraming maxPacketSize read = whole read.length packets := by
  rw [← referenceFraming_frames h, ← List.prefix_iff_eq_take.mp hread]

/-- A whole stream is framed as its packets. -/
theorem referenceFraming_all (h : ∀ packet ∈ packets, Framable maxPacketSize packet) :
    referenceFraming maxPacketSize (frames packets) = packets := by
  rw [framing_of_initial h (List.prefix_refl _), whole_of_length (le_refl _)]

/-- No frame declares more. -/
def maxFrameSize : Int := headerSize + (2 ^ 16 - 1)

/-- The header of a packet says the low 16 bits of its length. -/
theorem declaredTotal_wrapped (rest : Bytes) :
    declaredTotal (frame packet.1 packet.2 ++ rest) =
      some (headerSize + packet.2.length % 2 ^ 16) := by
  refine declaredTotal_append ?_ rest
  unfold declaredTotal totalPacketSize
  rw [header_frame, UInt16.toNat_ofNat', length_frame, if_neg (by omega)]

/-- **A stream is read back** by one who takes frames of any size exactly when 16 bits hold the
length of every payload: a longer one is cut. -/
theorem referenceFraming_iff : referenceFraming maxFrameSize (frames packets) = packets ↔
    ∀ packet ∈ packets, packet.2.length < 2 ^ 16 := by
  have hfits : ∀ {packet : UInt16 × Bytes}, packet.2.length < 2 ^ 16 →
      Framable maxFrameSize packet := by
    intro packet h
    unfold Framable maxFrameSize headerSize
    omega
  refine ⟨fun hread => ?_, fun h => referenceFraming_all fun packet hp => hfits (h packet hp)⟩
  induction packets with
  | nil => simp
  | cons packet packets ih =>
    rw [frames_cons] at hread
    have hcomplete : completeFrame (frame packet.1 packet.2 ++ frames packets) =
        some (headerSize + packet.2.length % 2 ^ 16) := by
      refine completeFrame_eq_some.mpr ⟨declaredTotal_wrapped _, ?_⟩
      rw [List.length_append, length_frame]
      have := Nat.mod_le packet.2.length (2 ^ 16)
      omega
    have hlimit : ((headerSize + packet.2.length % 2 ^ 16 : Nat) : Int) ≤ maxFrameSize := by
      unfold maxFrameSize
      omega
    have hframed := referenceFraming_frame hcomplete hlimit []
    rw [List.append_nil, List.append_nil, hread] at hframed
    obtain ⟨hhead, htail⟩ := List.cons.inj hframed
    have hlength := congrArg (fun p => p.2.length) hhead
    simp only [List.length_drop, List.length_take, List.length_append, length_frame] at hlength
    have hsmall : packet.2.length < 2 ^ 16 := by omega
    rw [Nat.mod_eq_of_lt hsmall, ← length_frame packet.1, List.drop_left] at htail
    exact List.forall_mem_cons.mpr ⟨hsmall, ih htail.symm⟩

end

end RealtimeServer
