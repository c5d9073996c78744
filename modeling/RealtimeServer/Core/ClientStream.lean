import RealtimeServer.Core.HandleRecv
import RealtimeServer.Core.StreamOrder
import RealtimeServer.Packet.Frames
import RealtimeServer.Packet.Protocol

/-!
# From the client's messages to the jobs of the rooms

What a client writes, one packet behind the other as `SendPacket` of `TestClient.cpp` does, is put
behind `HandleRecv`, the generated parsers and the handlers of `RegisterHandlers`.

* **`handlers_read_messages`**: however the stream is cut into receives, the handlers read the
  messages that are there whole, in their order, each once, and the session is not disconnected.
* **`rooms_run_messages`**: on many workers, every job that a room runs for a packet of the session
  is what the message of that number queues, in the order the messages were written.
-/

namespace RealtimeServer

open Stream Guarded Wire

/-! ## What a client writes -/

namespace ClientMessage

/-- The packet that `SendPacket` writes. -/
def sent (message : ClientMessage) : UInt16 × Bytes :=
  (message.packetId.toUInt16, message.serialize)

/-- The packet is one the server takes, and its texts are UTF-8, as `SerializeToString` asks. -/
def Sendable (maxPacketSize : Int) (message : ClientMessage) : Prop :=
  Framable maxPacketSize message.sent ∧ ∀ text ∈ message.texts, Utf8 text

instance (maxPacketSize : Int) (message : ClientMessage) :
    Decidable (message.Sendable maxPacketSize) := by
  unfold Sendable; infer_instance

/-- What the client has written. -/
def stream (messages : List ClientMessage) : Bytes := frames (messages.map sent)

/-- The messages that the first `n` bytes of the stream hold whole. -/
def arrived (n : Nat) (messages : List ClientMessage) : List ClientMessage :=
  messages.take (whole n (messages.map sent)).length

end ClientMessage

section

variable {skip : Skip} {maxPacketSize : Int} {messages : List ClientMessage}

theorem registered_sent {message : ClientMessage} (h : message.Sendable maxPacketSize) :
    registered skip message.sent = some message.packet := by
  have hfits : message.serialize.length ≤ maxSize := by
    have hsize : message.serialize.length < 2 ^ 16 := h.1.1
    unfold maxSize
    omega
  exact (registered_serialize skip message hfits).trans (congrArg some (if_pos h.2))

theorem framable_sent (h : ∀ message ∈ messages, message.Sendable maxPacketSize) :
    ∀ packet ∈ messages.map ClientMessage.sent, Framable maxPacketSize packet := by
  intro packet hpacket
  obtain ⟨message, hmessage, rfl⟩ := List.mem_map.mp hpacket
  exact (h message hmessage).1

theorem whole_sent (n : Nat) :
    whole n (messages.map ClientMessage.sent) =
      (ClientMessage.arrived n messages).map ClientMessage.sent := by
  unfold ClientMessage.arrived
  rw [List.map_take]
  exact List.prefix_iff_eq_take.mp (whole_initial n _)

/-- All messages have arrived with the last byte. -/
theorem arrived_all : ClientMessage.arrived (ClientMessage.stream messages).length messages =
    messages := by
  unfold ClientMessage.arrived ClientMessage.stream
  rw [whole_of_length (le_refl _), List.length_map, List.take_length]

/-- What the handlers read of packets that are messages. -/
theorem registered_map (h : ∀ message ∈ messages, message.Sendable maxPacketSize) :
    (messages.map ClientMessage.sent).map (registered skip) =
      messages.map fun message => some message.packet := by
  rw [List.map_map]
  exact List.map_congr_left fun message hmessage => registered_sent (h message hmessage)

end

/-! ## On one worker -/

section

variable {handlers : UInt16 → Bool} {maxPacketSize : Int} {verdict : Nat → Bool} {st : RecvState}
  {packets : List (UInt16 × Bytes)} {read : Bytes}

/-- A packet within the limit is not refused for its size: what is refused ends the framing, and
behind these packets it would not end. -/
theorem not_oversized (hfits : ∀ packet ∈ packets, Framable maxPacketSize packet)
    (h : Sound handlers maxPacketSize st read) (hread : read <+: frames packets) {total : Nat}
    (hframe : completeFrame st.recvBuffer.pending = some total) :
    (total : Int) ≤ maxPacketSize := by
  by_contra hbig
  obtain ⟨hdeclared, hle⟩ := completeFrame_eq_some.mp hframe
  have hsmall : ((headerSize : Nat) : Int) ≤ maxPacketSize := by
    cases packets with
    | nil =>
      obtain ⟨taken, hread', -⟩ := h.frames
      rw [frames_nil, List.prefix_nil] at hread
      rw [hread] at hread'
      rw [(List.append_eq_nil_iff.mp hread'.symm).2] at hle
      have := (headerSize_le_of_declared hdeclared).2
      simp [headerSize] at this hle
      omega
    | cons packet packets =>
      have := (hfits packet List.mem_cons_self).2
      omega
  have hended : ∀ more, (∀ packet ∈ more, Framable maxPacketSize packet) →
      st.dispatched = packets ++ more := by
    intro more hmore
    obtain ⟨rest, hrest⟩ := hread
    have hall := h.agrees (rest ++ frames more)
    rwa [referenceFraming_oversized (declaredTotal_append hdeclared _) (not_le.mp hbig),
      List.append_nil, ← List.append_assoc, hrest, ← frames_append,
      referenceFraming_all fun packet hp => (List.mem_append.mp hp).elim (hfits packet)
        (hmore packet)] at hall
  have hnone := hended [] (by simp)
  have hone := hended [(0, [])] (by simpa [Framable] using hsmall)
  rw [hnone, List.append_right_inj] at hone
  exact absurd hone (by simp)

/-- **What the handlers read** are the messages that have arrived, each once and in their order:
with the last byte, all of them. And the receive path does not disconnect the session. -/
theorem handlers_read_messages (skip : Skip) (messages : List ClientMessage) {chunks : List Bytes}
    (hsendable : ∀ message ∈ messages, message.Sendable maxPacketSize)
    (hrun : run (recvNext handlers maxPacketSize verdict) .accepted chunks = some st)
    (hlimited : st.totalRateLimitRejections = 0)
    (hwritten : chunks.flatten <+: ClientMessage.stream messages) :
    st.dispatched.map (registered skip) =
        (ClientMessage.arrived chunks.flatten.length messages).map (fun message =>
          some message.packet) ∧
      (chunks.flatten = ClientMessage.stream messages →
        st.dispatched.map (registered skip) = messages.map fun message => some message.packet) ∧
      st.disconnected = false := by
  obtain ⟨h₀, hs₀⟩ := sound_accepted handlers maxPacketSize
  obtain ⟨h, hs⟩ := sound_run h₀ hs₀ hrun
  rw [List.nil_append] at h
  have hfits := framable_sent hsendable
  cases hs with
  | waiting _ _ frame connected =>
    have hdispatched := agrees_done h.agrees (referenceFraming_incomplete frame)
    have hread : st.dispatched.map (registered skip) =
        (ClientMessage.arrived chunks.flatten.length messages).map fun message =>
          some message.packet := by
      rw [hdispatched, framing_of_initial hfits hwritten, whole_sent]
      exact registered_map fun message hmessage => hsendable message (List.mem_of_mem_take hmessage)
    refine ⟨hread, fun hall => ?_, connected⟩
    rw [hread, hall, arrived_all]
  | oversized _ total frame big =>
    exact absurd big (not_lt.mpr (not_oversized hfits h hwritten frame))
  | limited _ _ _ _ limited => omega

/-- A login, a chat and a ready in three receives; the last has not arrived whole. -/
theorem handlers_read_threeMessages :
    ∃ st, run (recvNext (fun _ => true) 4096 fun _ => true) .accepted
        [[6, 0, 1, 0, 18], [4, 116, 111, 107, 101, 3, 0, 3, 0, 10, 1], [104, 0, 0, 17]] = some st ∧
      st.dispatched.map (registered .refuse) =
        [some (.login (some [116, 111, 107, 101])), some (.chat (some [104]))] ∧
      st.disconnected = false := by
  obtain ⟨st, hrun, hlimited⟩ :
      ∃ st, run (recvNext (fun _ => true) 4096 fun _ => true) .accepted
          [[6, 0, 1, 0, 18], [4, 116, 111, 107, 101, 3, 0, 3, 0, 10, 1], [104, 0, 0, 17]] =
        some st ∧ st.totalRateLimitRejections = 0 := by decide
  obtain ⟨hread, -, hconnected⟩ := handlers_read_messages .refuse
    [.login ⟨[], [116, 111, 107, 101]⟩, .chat ⟨[104]⟩, .ready] (by decide) hrun hlimited
    ⟨[0], by decide⟩
  exact ⟨st, hrun, hread, hconnected⟩

end

/-! ## On many workers -/

section

variable {cfg : Config} {maxPacketSize : Int} {st : Workers}

/-- **What the rooms run** for a session is what the messages of its client queue. The packets are
dispatched as these messages; a room has run, or is still to run, the jobs pushed to it, each once;
and a job that the handler of the `n`-th packet pushed is what the `n`-th message queues, the
numbers in their order. -/
theorem rooms_run_messages (skip : Skip) (messages : List ClientMessage) {s : SessionRef}
    (hsendable : ∀ message ∈ messages, message.Sendable maxPacketSize)
    {steps : List (WorkerAction × Env)}
    (hrun : run (workerNext cfg (registered skip) maxPacketSize) .empty steps = some st)
    (hwritten : st.read s <+: ClientMessage.stream messages) :
    (st.dispatched s).map (registered skip) <+: messages.map (fun message => some message.packet) ∧
      ∀ r, (packetsOf s (st.log r)).Pairwise (· ≤ ·) ∧
        (st.threads.executed r <+: (st.log r).map Prod.fst) ∧
        ∀ job n, (job, some (s, n)) ∈ st.log r →
          ∃ message srv, messages[n]? = some message ∧ job.SentBy srv s message.packet r := by
  obtain ⟨-, hstream, htagged⟩ := workers_of_run hrun
  have hdispatched : (st.dispatched s).map (registered skip) <+:
      messages.map fun message => some message.packet := by
    have hframed := hstream.dispatched s
    rw [framing_of_initial (framable_sent hsendable) hwritten] at hframed
    rw [← registered_map hsendable]
    exact (hframed.trans (whole_initial _ _)).map _
  refine ⟨hdispatched, fun r => ⟨htagged.order r s, ?_, fun job n hjob => ?_⟩⟩
  · obtain ⟨before, hbefore⟩ := threads_of_run hrun
    rw [htagged.pushed r, (conserved_of_run hbefore).2 r]
    exact List.prefix_append _ _
  · obtain ⟨packet, srv, hnumbered, hsent⟩ := htagged.packet r job s n hjob
    obtain ⟨received, hreceived, hpacket⟩ := Option.bind_eq_some_iff.mp hnumbered
    have hat : ((st.dispatched s).map (registered skip))[n]? = some (some packet) := by
      rw [List.getElem?_map, hreceived, Option.map_some, hpacket]
    obtain ⟨hlt, hget⟩ := List.getElem?_eq_some_iff.mp hat
    have hmessage := List.prefix_iff_getElem?.mp hdispatched n hlt
    rw [hget, List.getElem?_map] at hmessage
    obtain ⟨message, hat', hsame⟩ := Option.map_eq_some_iff.mp hmessage
    refine ⟨message, srv, hat', ?_⟩
    rw [Option.some.inj hsame]
    exact hsent

/-- The steps of a client that logs in, enters room `A` and says something there. -/
def entersAndChats : List WorkerAction :=
  .thread (.accept true) :: goesOn 0 3 ++ takesPacket 1 0 0 [3, 0, 1, 0, 18, 1, 116] ++
    validates 1 2 [97] ++ takesPacket 2 2 2 [3, 0, 5, 0, 10, 1, 65] ++ ticksOnce 1 ++
    takesPacket 3 3 1 [3, 0, 3, 0, 10, 1, 104]

theorem rooms_run_enterAndChat :
    ∃ st, run (workerNext ⟨16, 30000, 60000⟩ (registered .refuse) 4096) .empty
        (atOneTime entersAndChats) = some st ∧
      st.log 0 = [(.handleEnter 0, some (0, 1)), (.chat [97] [104], some (0, 2))] ∧
      st.threads.executed 0 = [.handleEnter 0] ∧
      (st.dispatched 0).map (registered .refuse) <+:
        [some (.login (some [116])), some (.roomEnter (some [65])), some (.chat (some [104]))] ∧
      ∀ job n, (job, some (0, n)) ∈ st.log 0 → ∃ message srv,
        [ClientMessage.login ⟨[], [116]⟩, .roomEnter ⟨[65]⟩, .chat ⟨[104]⟩][n]? = some message ∧
          job.SentBy srv 0 message.packet 0 := by
  obtain ⟨st, hrun, hlog, hexecuted, hread⟩ :
      ∃ st, run (workerNext ⟨16, 30000, 60000⟩ (registered .refuse) 4096) .empty
          (atOneTime entersAndChats) = some st ∧
        st.log 0 = [(.handleEnter 0, some (0, 1)), (.chat [97] [104], some (0, 2))] ∧
        st.threads.executed 0 = [.handleEnter 0] ∧
        st.read 0 = ClientMessage.stream
          [.login ⟨[], [116]⟩, .roomEnter ⟨[65]⟩, .chat ⟨[104]⟩] := by
    decide +kernel
  obtain ⟨hdispatched, hrooms⟩ := rooms_run_messages .refuse
    [.login ⟨[], [116]⟩, .roomEnter ⟨[65]⟩, .chat ⟨[104]⟩] (by decide) hrun (by rw [hread])
  obtain ⟨-, -, hjobs⟩ := hrooms 0
  exact ⟨st, hrun, hlog, hexecuted, hdispatched, hjobs⟩

end

end RealtimeServer
