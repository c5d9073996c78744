import Mathlib.Data.UInt
import RealtimeServer.Core.IoContexts
import RealtimeServer.Core.Server

/-!
# What the counters of the sends count

Model of `SendInternal`, `SendRaw`, `SendShared` and `PostSend` (`Core/ServerSession.cpp`) with the
counters of `ServerStats` they move, one step at a time, any number of them next to each other and
next to disconnects. `totalBytesSent` and `totalPacketsSent` are moved one after the other, and both
before `PostSend` tests the flag again and calls `WSASend`. So they also count packets that nobody
takes.

* `run_countAndPost`: a send that nothing comes between does what `World.countAndPost` says.
* **`counters_of_run`**: whenever no send is midway, the counters are the numbers of packets, and of
  bytes, that `WSASend` took and that were lost, each modulo 2^64; and what was lost was for
  sessions that are disconnected.
-/

namespace RealtimeServer

open Guarded

/-- What has become of a send. -/
inductive SendOutcome
  /-- It was given up before it was counted. -/
  | refused
  /-- `PostSend` found the session disconnected. -/
  | dropped
  /-- `WSASend` failed. -/
  | failed
  /-- `WSASend` took the packet. -/
  | taken
  deriving DecidableEq

/-- Where a send is. -/
inductive SendStage
  /-- At `IsDisconnected`, the size and the serialisation. -/
  | entering
  /-- At `STATS_ADD(totalBytesSent, ..)`. -/
  | addingBytes
  /-- At `STATS_INC(totalPacketsSent)`. -/
  | countingPacket
  /-- In `PostSend`, at `IsDisconnected`. -/
  | testing
  /-- In `PostSend`, at `WSASend`. -/
  | posting
  /-- In `PostSend`, at `Disconnect`. -/
  | disconnecting
  | returned (outcome : SendOutcome)
  deriving DecidableEq

namespace SendStage

/-- Its bytes are counted. -/
def bytesCounted : SendStage → Bool
  | entering | addingBytes | returned .refused => false
  | _ => true

/-- Its packet is counted. -/
def packetCounted : SendStage → Bool
  | entering | addingBytes | countingPacket | returned .refused => false
  | _ => true

/-- Its packet was counted for nothing. -/
def lost : SendStage → Bool
  | returned .dropped | returned .failed => true
  | _ => false

end SendStage

/-- A send, with the packet as it is in its context. -/
structure CountedSend where
  session : SessionRef
  kind : SendKind
  packet : Bytes
  stage : SendStage
  deriving DecidableEq

/-- Its bytes, where they count. -/
def CountedSend.bytesIf (p : SendStage → Bool) (send : CountedSend) : ℕ :=
  if p send.stage then send.packet.length else 0

/-- The sessions, the counters and what `WSASend` took; and the sends. -/
structure SendCounters where
  world : World
  sends : List CountedSend

namespace SendCounters

def start : SendCounters := { world := Server.empty.world, sends := [] }

section

variable (k : ℕ) (send : CountedSend) (st : SendCounters)

/-- The send comes to here. -/
def become (stage : SendStage) : SendCounters :=
  { st with sends := st.sends.set k { send with stage := stage } }

/-- `STATS_ADD(totalBytesSent, ..)`. -/
def addBytes : SendCounters :=
  { st with world := { st.world with stats := { st.world.stats with
      totalBytesSent := st.world.stats.totalBytesSent + UInt64.ofNat send.packet.length } } }

/-- `STATS_INC(totalPacketsSent)`. -/
def incPackets : SendCounters :=
  { st with world := { st.world with stats := { st.world.stats with
      totalPacketsSent := st.world.stats.totalPacketsSent + 1 } } }

/-- `WSASend` takes the packet. -/
def take : SendCounters :=
  { st with world := { st.world with sent := st.world.sent ++ [(send.session, send.packet)] } }

/-- `Disconnect`. -/
def disconnect (s : SessionRef) : SendCounters := { st with world := st.world.disconnect s }

/-- `IsDisconnected()`. -/
def down (s : SessionRef) : Bool := (st.world.session s).disconnected

/-- A send goes on; `answer` is what `SerializeToArray` and `WSASend` say. -/
def goOn (answer : Bool) : Option SendCounters :=
  match send.stage with
  | .entering =>
    if st.down send.session then some (st.become k send (.returned .refused))
    else if send.kind ≠ .shared ∧ maxBufSize < send.packet.length then
      some (st.become k send (.returned .refused))
    else if send.kind = .internal ∧ answer = false then
      some (st.become k send (.returned .refused))
    else some (st.become k send .addingBytes)
  | .addingBytes => some ((st.addBytes send).become k send .countingPacket)
  | .countingPacket => some (st.incPackets.become k send .testing)
  | .testing =>
    if st.down send.session then some (st.become k send (.returned .dropped))
    else some (st.become k send .posting)
  | .posting =>
    if answer then some ((st.take send).become k send (.returned .taken))
    else some (st.become k send .disconnecting)
  | .disconnecting => some ((st.disconnect send.session).become k send (.returned .failed))
  | .returned _ => none

end

/-- The packets that were counted and that nobody took. -/
def lost (st : SendCounters) : List (SessionRef × Bytes) :=
  (st.sends.filter fun send => send.stage.lost).map fun send => (send.session, send.packet)

/-- Those that `WSASend` took, in the order of the calls. -/
def taken (st : SendCounters) : List (SessionRef × Bytes) :=
  (st.sends.filter fun send => send.stage = .returned .taken).map fun send =>
    (send.session, send.packet)

/-- No send is midway. -/
def Settled (st : SendCounters) : Prop :=
  ∀ send ∈ st.sends, ∃ outcome, send.stage = .returned outcome

end SendCounters

/-- What happens next. -/
inductive SendAction
  /-- A send is called. -/
  | call (session : SessionRef) (kind : SendKind) (packet : Bytes)
  /-- One goes on. -/
  | goOn (k : ℕ) (answer : Bool)
  /-- The session is disconnected for another reason. -/
  | disconnect (session : SessionRef)
  deriving DecidableEq

def sendNext (st : SendCounters) : SendAction → Option SendCounters
  | .call session kind packet =>
    some { st with sends := st.sends ++ [⟨session, kind, packet, .entering⟩] }
  | .goOn k answer => (st.sends[k]?).bind fun send => st.goOn k send answer
  | .disconnect session => some (st.disconnect session)

/-- How many bytes these packets have. -/
def bytesOf (packets : List (SessionRef × Bytes)) : ℕ :=
  (packets.map fun packet => packet.2.length).sum

/-! ## The invariant -/

/-- **The invariant**: the counters and the packets that were taken follow from where the sends
are. -/
structure SendCounters.Tallied (st : SendCounters) : Prop where
  packets : st.world.stats.totalPacketsSent =
    .ofNat (st.sends.countP fun send => send.stage.packetCounted)
  bytes : st.world.stats.totalBytesSent =
    .ofNat (st.sends.map (CountedSend.bytesIf SendStage.bytesCounted)).sum
  sent : ∀ packet, st.world.sent.count packet =
    st.sends.countP fun send =>
      decide (send.stage = .returned .taken ∧ (send.session, send.packet) = packet)
  down : ∀ send ∈ st.sends, send.stage.lost = true → st.down send.session = true

namespace SendCounters

variable {st st' : SendCounters} {action : SendAction} {k : ℕ} {send : CountedSend}

theorem tallied_start : Tallied start where
  packets := rfl
  bytes := rfl
  sent _ := rfl
  down _ h := absurd h List.not_mem_nil

theorem down_disconnect (s t : SessionRef) (h : st.down t = true) :
    (st.disconnect s).down t = true := by
  unfold down disconnect
  by_cases hts : t = s
  · rw [hts, World.session_disconnect_self]
  · rw [World.session_disconnect_ne hts]
    exact h

/-- A send goes on, and the counters with it. -/
theorem Tallied.become (h : Tallied st) (hsend : st.sends[k]? = some send) {stage : SendStage}
    (hsends : st'.sends = st.sends.set k { send with stage := stage })
    (hpackets : st'.world.stats.totalPacketsSent + .ofNat send.stage.packetCounted.toNat =
      st.world.stats.totalPacketsSent + .ofNat stage.packetCounted.toNat)
    (hbytes : st'.world.stats.totalBytesSent +
        .ofNat (send.bytesIf SendStage.bytesCounted) =
      st.world.stats.totalBytesSent +
        .ofNat (CountedSend.bytesIf SendStage.bytesCounted { send with stage := stage }))
    (hsent : ∀ packet, st'.world.sent.count packet +
        (decide (send.stage = .returned .taken ∧ (send.session, send.packet) = packet)).toNat =
      st.world.sent.count packet +
        (decide (stage = .returned .taken ∧ (send.session, send.packet) = packet)).toNat)
    (hdown : ∀ s, st.down s = true → st'.down s = true)
    (hlost : stage.lost = true → st'.down send.session = true) : Tallied st' where
  packets := by
    have hcount := Tally.countP_set_add (fun send : CountedSend => send.stage.packetCounted) hsend
      { send with stage := stage }
    rw [← hsends] at hcount
    rw [h.packets, ← UInt64.ofNat_add, ← hcount, UInt64.ofNat_add] at hpackets
    exact add_right_cancel hpackets
  bytes := by
    have hsum := Tally.sum_map_set_add (CountedSend.bytesIf SendStage.bytesCounted) hsend
      { send with stage := stage }
    rw [← hsends] at hsum
    rw [h.bytes, ← UInt64.ofNat_add, ← hsum, UInt64.ofNat_add] at hbytes
    exact add_right_cancel hbytes
  sent packet := by
    have hcount := Tally.countP_set_add (fun send : CountedSend =>
      decide (send.stage = .returned .taken ∧ (send.session, send.packet) = packet)) hsend
      { send with stage := stage }
    rw [← hsends] at hcount
    change _ = _ + (decide (stage = .returned .taken ∧ (send.session, send.packet) = packet)).toNat
      at hcount
    have hbefore := h.sent packet
    have hafter := hsent packet
    omega
  down other hother hothers := by
    rw [hsends] at hother
    rcases List.mem_or_eq_of_mem_set hother with hold | rfl
    · exact hdown _ (h.down other hold hothers)
    · exact hlost hothers

/-- One that moves no counter and takes nothing. -/
theorem Tallied.move (h : Tallied st) (hsend : st.sends[k]? = some send) {stage : SendStage}
    (hpackets : stage.packetCounted = send.stage.packetCounted)
    (hbytes : stage.bytesCounted = send.stage.bytesCounted)
    (htaken : send.stage ≠ .returned .taken ∧ stage ≠ .returned .taken)
    (hlost : stage.lost = true → st.down send.session = true) :
    Tallied (st.become k send stage) := by
  refine h.become hsend rfl ?_ ?_ (fun packet => ?_) (fun _ hs => hs) hlost
  · rw [hpackets]
    rfl
  · simp only [CountedSend.bytesIf, hbytes]
    rfl
  · simp only [htaken.1, htaken.2, false_and, decide_false]
    rfl

theorem tallied_goOn (h : Tallied st) (hsend : st.sends[k]? = some send) {answer : Bool}
    (hnext : st.goOn k send answer = some st') : Tallied st' := by
  obtain ⟨s, kind, packet, stage⟩ := send
  unfold goOn at hnext
  cases stage with
  | entering =>
    -- nothing is counted here, whichever way it goes
    have hmove : ∀ {stage : SendStage}, stage.packetCounted = false → stage.bytesCounted = false →
        stage ≠ .returned .taken → stage.lost = false →
          Tallied (st.become k ⟨s, kind, packet, .entering⟩ stage) := by
      intro stage hpackets hbytes htaken hlost
      exact h.move hsend hpackets hbytes ⟨by simp, htaken⟩
        fun hs => absurd (hs.symm.trans hlost) (by simp)
    dsimp only at hnext
    split at hnext
    · obtain rfl := Option.some.inj hnext
      exact hmove rfl rfl (by simp) rfl
    · split at hnext
      · obtain rfl := Option.some.inj hnext
        exact hmove rfl rfl (by simp) rfl
      · split at hnext <;> obtain rfl := Option.some.inj hnext <;>
          exact hmove rfl rfl (by simp) rfl
  | addingBytes =>
    obtain rfl := Option.some.inj hnext
    refine h.become hsend rfl rfl ?_ (fun other => ?_) (fun _ hs => hs) (by simp [SendStage.lost])
    · simp [CountedSend.bytesIf, SendStage.bytesCounted, SendCounters.become, addBytes]
    · simp [SendCounters.become, addBytes]
  | countingPacket =>
    obtain rfl := Option.some.inj hnext
    refine h.become hsend rfl ?_ rfl (fun other => ?_) (fun _ hs => hs) (by simp [SendStage.lost])
    · simp [SendStage.packetCounted, SendCounters.become, incPackets]
    · simp [SendCounters.become, incPackets]
  | testing =>
    dsimp only at hnext
    split at hnext
    · rename_i hdown
      obtain rfl := Option.some.inj hnext
      exact h.move hsend rfl rfl (by simp) fun _ => hdown
    · obtain rfl := Option.some.inj hnext
      exact h.move hsend rfl rfl (by simp) (by simp [SendStage.lost])
  | posting =>
    cases answer with
    | true =>
      -- `WSASend` takes the packet
      obtain rfl := Option.some.inj hnext
      refine h.become hsend rfl rfl rfl (fun other => ?_) (fun _ hs => hs)
        (by simp [SendStage.lost])
      simp only [SendCounters.become, take, List.count_append, List.count_singleton]
      by_cases hsame : (s, packet) = other <;> simp [hsame]
    | false =>
      obtain rfl := Option.some.inj hnext
      exact h.move hsend rfl rfl (by simp) (by simp [SendStage.lost])
  | disconnecting =>
    obtain rfl := Option.some.inj hnext
    refine h.become hsend rfl rfl rfl (fun other => ?_) (fun t ht => down_disconnect _ t ht)
      fun _ => ?_
    · simp [SendCounters.become, disconnect, World.disconnect, World.update]
    · change ((st.world.disconnect s).session s).disconnected = true
      rw [World.session_disconnect_self]
  | returned => exact absurd hnext (by simp)

/-- The step lemma. -/
theorem tallied_next (h : Tallied st) (hnext : sendNext st action = some st') : Tallied st' := by
  cases action with
  | call session kind packet =>
    obtain rfl := Option.some.inj hnext
    refine ⟨?_, ?_, fun packet => ?_, fun send hsend hlost => ?_⟩
    · rw [List.countP_append]
      exact h.packets
    · rw [List.map_append, List.sum_append]
      exact h.bytes
    · rw [List.countP_append, List.countP_singleton]
      simpa using h.sent packet
    · rcases List.mem_append.mp hsend with hold | hnew
      · exact h.down send hold hlost
      · rw [List.mem_singleton.mp hnew] at hlost
        exact absurd hlost (by simp [SendStage.lost])
  | goOn k answer =>
    obtain ⟨send, hsend, hgoOn⟩ := Option.bind_eq_some_iff.mp hnext
    exact tallied_goOn h hsend hgoOn
  | disconnect session =>
    obtain rfl := Option.some.inj hnext
    exact ⟨h.packets, h.bytes, h.sent, fun send hsend hlost =>
      down_disconnect _ _ (h.down send hsend hlost)⟩

/-! ## Where no send is midway -/

/-- What was taken is what `WSASend` has, in the order it took it. -/
theorem Tallied.perm (h : Tallied st) : st.world.sent.Perm st.taken := by
  rw [List.perm_iff_count]
  intro packet
  rw [h.sent packet, taken, List.count, List.countP_map, List.countP_filter]
  refine List.countP_congr fun send _ => ?_
  simp [and_comm]

/-- A send that has returned was counted if it was taken or lost. -/
theorem settled_packets (h : st.Settled) :
    (st.sends.countP fun send => send.stage.packetCounted) =
      st.taken.length + st.lost.length := by
  unfold Settled at h
  unfold taken lost
  rw [List.length_map, List.length_map]
  generalize st.sends = sends at h
  induction sends with
  | nil => rfl
  | cons send sends ih =>
    obtain ⟨outcome, houtcome⟩ := h send List.mem_cons_self
    have hrest := ih fun other hother => h other (List.mem_cons_of_mem _ hother)
    simp only [List.countP_cons, List.filter_cons, houtcome, hrest]
    cases outcome <;> simp [SendStage.packetCounted, SendStage.lost] <;> omega

theorem settled_bytes (h : st.Settled) :
    (st.sends.map (CountedSend.bytesIf SendStage.bytesCounted)).sum =
      bytesOf st.taken + bytesOf st.lost := by
  unfold Settled at h
  unfold taken lost bytesOf
  generalize st.sends = sends at h
  induction sends with
  | nil => rfl
  | cons send sends ih =>
    obtain ⟨outcome, houtcome⟩ := h send List.mem_cons_self
    have hrest := ih fun other hother => h other (List.mem_cons_of_mem _ hother)
    simp only [List.map_cons, List.sum_cons, List.filter_cons, CountedSend.bytesIf, houtcome, hrest]
    cases outcome <;> simp [SendStage.bytesCounted, SendStage.lost] <;> omega

end SendCounters

open SendCounters

/-- **A send that nothing comes between** does what `World.countAndPost` says. -/
theorem run_countAndPost (env : Env) {st : SendCounters} {k : ℕ} {send : CountedSend}
    (hsend : st.sends[k]? = some send) (hstage : send.stage = .addingBytes) :
    ∃ (answers : List Bool) (outcome : SendOutcome),
      run sendNext st (answers.map (SendAction.goOn k)) =
        some ⟨st.world.countAndPost env send.session send.packet,
          st.sends.set k { send with stage := .returned outcome }⟩ := by
  obtain ⟨s, kind, packet, stage⟩ := send
  subst hstage
  obtain ⟨hlt, hget⟩ := List.getElem?_eq_some_iff.mp hsend
  by_cases hdown : (st.world.session s).disconnected = true
  · refine ⟨[true, true, true], .dropped, ?_⟩
    simp [run, sendNext, hget, goOn, become, addBytes, incPackets, down, hlt, hdown,
      World.countAndPost, World.postSend, World.countSent]
  · by_cases hfails : env.wsaSendFails s st.world.sent.length = true
    · refine ⟨[true, true, true, false, true], .failed, ?_⟩
      simp [run, sendNext, hget, goOn, become, addBytes, incPackets, down, hlt, hdown,
        hfails, disconnect, World.countAndPost, World.postSend, World.countSent]
    · refine ⟨[true, true, true, true], .taken, ?_⟩
      simp [run, sendNext, hget, goOn, become, addBytes, incPackets, down, hlt, hdown,
        hfails, take, World.countAndPost, World.postSend, World.countSent]

/-- **What the counters count**: in every interleaving of sends and disconnects, whenever no send is
midway, `totalPacketsSent` and `totalBytesSent` are the packets that `WSASend` took and those that
were counted and lost, and the bytes of both, each modulo 2^64; and each packet that was lost was
for a session that is disconnected. -/
theorem counters_of_run {actions : List SendAction} {st : SendCounters}
    (hrun : run sendNext start actions = some st) (hsettled : st.Settled) :
    st.world.stats.totalPacketsSent = .ofNat (st.world.sent.length + st.lost.length) ∧
      st.world.stats.totalBytesSent = .ofNat (bytesOf st.world.sent + bytesOf st.lost) ∧
      st.world.sent.Perm st.taken ∧
      ∀ packet ∈ st.lost, (st.world.session packet.1).disconnected = true := by
  have h : Tallied st :=
    run_preserves (I := Tallied) (fun _ _ _ => tallied_next) tallied_start hrun
  have hperm := h.perm
  have hbytes : bytesOf st.world.sent = bytesOf st.taken := (hperm.map _).sum_eq
  refine ⟨?_, ?_, hperm, fun packet hpacket => ?_⟩
  · rw [h.packets, settled_packets hsettled, hperm.length_eq]
  · rw [h.bytes, settled_bytes hsettled, hbytes]
  · obtain ⟨send, hsend, rfl⟩ := List.mem_map.mp hpacket
    obtain ⟨hmem, hlost⟩ := List.mem_filter.mp hsend
    exact h.down send hmem hlost

/-- Two threads count a packet for one session, and one `WSASend` fails before the other thread
tests the flag again: two packets are counted, and none was taken. -/
theorem counters_twoLost :
    ∃ st, run sendNext start
      [.call 0 .raw [1], .call 0 .shared [2, 3], .goOn 0 true, .goOn 1 true, .goOn 0 true,
        .goOn 1 true, .goOn 1 true, .goOn 0 true, .goOn 0 true, .goOn 0 false, .goOn 0 true,
        .goOn 1 true] = some st ∧
      st.lost = [(0, [1]), (0, [2, 3])] ∧ st.world.sent = [] ∧
      st.world.stats.totalPacketsSent = .ofNat (st.world.sent.length + st.lost.length) ∧
      st.world.stats.totalBytesSent = .ofNat (bytesOf st.world.sent + bytesOf st.lost) := by
  obtain ⟨st, hrun, hlost, hsent, hsettled⟩ :
      ∃ st, run sendNext start
        [.call 0 .raw [1], .call 0 .shared [2, 3], .goOn 0 true, .goOn 1 true, .goOn 0 true,
          .goOn 1 true, .goOn 1 true, .goOn 0 true, .goOn 0 true, .goOn 0 false, .goOn 0 true,
          .goOn 1 true] = some st ∧
        st.lost = [(0, [1]), (0, [2, 3])] ∧ st.world.sent = [] ∧
        st.sends.map CountedSend.stage = [.returned .failed, .returned .dropped] := by
    decide +kernel
  have hall : st.Settled := by
    intro send hsend
    have hmem := List.mem_map_of_mem (f := CountedSend.stage) hsend
    rw [hsettled] at hmem
    simp only [List.mem_cons, List.not_mem_nil, or_false] at hmem
    exact hmem.elim (fun h => ⟨_, h⟩) fun h => ⟨_, h⟩
  obtain ⟨hpackets, hbytes, -⟩ := counters_of_run hrun hall
  exact ⟨st, hrun, hlost, hsent, hpackets, hbytes⟩

end RealtimeServer
