import RealtimeServer.Core.Handlers
import RealtimeServer.Core.Workers

/-!
# Jobs in the order of the stream

What becomes of the jobs that the packets of a session queue, on many workers (`Core/Workers`).
`log` says of each job pushed which packet's handler pushed it (`Origin`), if it was a packet's.

* **`jobs_in_stream_order`**: in every run a session has at most one of an outstanding `WSARecv` and
  a worker that has not come to its `WSARecv`; its packets are dispatched as the reference framing
  of its bytes has them; and a room in the map runs the jobs of their handlers in the order of the
  packets, each once (`RunsInOrder`), those pushed so far at the latest in the next `TickAll`.
* `overlapping_receive`: behind its `WSARecv` a worker is still inside `HandleRecv`, next to the
  receive it has posted; and the rejoin that the callback of a login pushes has no place in this
  order.
-/

namespace RealtimeServer

open Stream Guarded

section

variable {cfg : Config} {handler : UInt16 × Bytes → Option ClientPacket} {maxPacketSize : Int}
  {env : Env} {st st' : Workers} {a : Activity} {k : Nat} {s : SessionRef}

/-! ## The record -/

/-- The call is one that the handler of the packet makes, having started in `srv`. -/
def Call.SentBy (srv : Server) (s : SessionRef) (packet : ClientPacket) : Call → Prop
  | pushJob r job => job.SentBy srv s packet r
  | getOrCreate t _ => ∀ r, (Job.handleEnter t).SentBy srv s packet r
  | findReconnect _ _ | clearRoom _ => False
  | send _ _ => True

theorem sentBy_calls {srv : Server} {packet : ClientPacket} {call : Call}
    (hcall : call ∈ srv.calls s packet) : call.SentBy srv s packet := by
  unfold Server.calls at hcall
  split at hcall
  · split at hcall
    · rename_i hroom
      rw [List.mem_singleton.mp hcall]
      exact ⟨rfl, hroom, rfl⟩
    · exact absurd hcall List.not_mem_nil
  · rename_i roomName
    split at hcall
    · rw [List.mem_singleton.mp hcall]
      trivial
    · rename_i hlogin
      rcases List.mem_append.mp hcall with hcall | hcall
      · split at hcall
        · rename_i hroom
          rw [List.mem_singleton.mp hcall]
          exact ⟨rfl, hroom, roomName, rfl⟩
        · exact absurd hcall List.not_mem_nil
      · rw [List.mem_singleton.mp hcall]
        exact fun r => ⟨rfl, hlogin, roomName, rfl⟩
  · split at hcall
    · rw [List.mem_singleton.mp hcall]
      trivial
    · rename_i hroom
      rw [List.mem_singleton.mp hcall]
      exact ⟨rfl, hroom, rfl⟩
  · split at hcall
    · rename_i hroom
      rw [List.mem_singleton.mp hcall]
      exact ⟨rfl, hroom, rfl⟩
    · exact absurd hcall List.not_mem_nil
  · split at hcall
    · exact absurd hcall List.not_mem_nil
    · rename_i hlogin
      split at hcall
      · exact absurd hcall List.not_mem_nil
      · rename_i hroom
        rw [List.mem_singleton.mp hcall]
        exact ⟨rfl, hlogin, hroom, rfl⟩
  all_goals exact absurd hcall List.not_mem_nil

theorem sentBy_startPacket {srv : Server} {packet : ClientPacket} {call : Call}
    (hcall : call ∈ (srv.startPacket env s cfg packet).2) : call.SentBy srv s packet := by
  unfold Server.startPacket at hcall
  split at hcall
  · exact absurd hcall List.not_mem_nil
  · exact absurd hcall List.not_mem_nil
  · exact absurd hcall List.not_mem_nil
  · exact sentBy_calls hcall

/-- What a call leads to belongs to the same packet. -/
theorem sentBy_perform {srv srv₀ : Server} {packet : ClientPacket} {call : Call}
    (h : call.SentBy srv₀ s packet) :
    ∀ c ∈ (call.perform cfg env srv).2, c.SentBy srv₀ s packet := by
  intro c hc
  cases call with
  | pushJob r job => exact absurd hc List.not_mem_nil
  | getOrCreate t roomName =>
    rw [List.mem_singleton.mp hc]
    exact h (srv.rooms.getOrCreate cfg.maxRoomPlayers roomName).1
  | findReconnect t accountId => exact absurd h id
  | clearRoom t => exact absurd h id
  | send t message => exact absurd hc List.not_mem_nil

/-- What a call of a handler pushes is a job of its packet. -/
theorem Call.SentBy.job {call : Call} {job : Job} {packet : ClientPacket}
    (h : call.SentBy srv s packet) (hpushes : job ∈ call.pushes r) : job.SentBy srv s packet r := by
  cases call with
  | pushJob r' pushed =>
    change job ∈ (if r' = r then [pushed] else []) at hpushes
    by_cases hr : r' = r
    · rw [if_pos hr] at hpushes
      rw [List.mem_singleton.mp hpushes, ← hr]
      exact h
    · rw [if_neg hr] at hpushes
      exact absurd hpushes List.not_mem_nil
  | _ => exact absurd hpushes List.not_mem_nil

/-- The `n`-th packet of the session. -/
def Numbered (handler : UInt16 × Bytes → Option ClientPacket) (st : Workers) (s : SessionRef)
    (n : Nat) (packet : ClientPacket) : Prop :=
  (st.dispatched s)[n]?.bind handler = some packet

/-- The numbers of the packets of `s` that pushed the jobs. -/
def packetsOf (s : SessionRef) (log : List (Job × Origin)) : List Nat :=
  log.filterMap fun e => e.2.bind fun packet => if packet.1 = s then some packet.2 else none

/-- The `i`-th handler is that of the `n`-th packet of `s`, and while it has a call to make the
thread that started it waits. -/
structure Handles (handler : UInt16 × Bytes → Option ClientPacket) (st : Workers) (i : Nat)
    (s : SessionRef) (n : Nat) : Prop where
  started : i < st.threads.midway.length
  packet : ∃ packet srv, Numbered handler st s n packet ∧
    ∀ calls ∈ st.threads.midway[i]?, ∀ call ∈ calls, call.SentBy srv s packet
  waits : ¬ st.Done i → n + 1 = (st.dispatched s).length ∧
    ∃ a ∈ st.activities, a.session = s ∧ ∃ packetSize, a.stage = .handlePacket (some i) packetSize

/-- **The invariant** of the record. -/
structure Tagged (handler : UInt16 × Bytes → Option ClientPacket) (st : Workers) : Prop where
  origins : ∀ i s n, st.origins i = some (s, n) → Handles handler st i s n
  packet : ∀ r job s n, (job, some (s, n)) ∈ st.log r →
    ∃ packet srv, Numbered handler st s n packet ∧ job.SentBy srv s packet r
  order : ∀ r s, (packetsOf s (st.log r)).Pairwise (· ≤ ·)
  pushed : ∀ r, (st.log r).map Prod.fst = st.threads.pushed r

theorem Numbered.lt {n : Nat} {packet : ClientPacket} (h : Numbered handler st s n packet) :
    n < (st.dispatched s).length := by
  obtain ⟨item, hitem, -⟩ := Option.bind_eq_some_iff.mp h
  exact (List.getElem?_eq_some_iff.mp hitem).1

theorem Numbered.mono {n : Nat} {packet : ClientPacket} (h : Numbered handler st s n packet)
    (hgrows : st.dispatched s <+: st'.dispatched s) : Numbered handler st' s n packet := by
  obtain ⟨item, hitem, hhandler⟩ := Option.bind_eq_some_iff.mp h
  refine Option.bind_eq_some_iff.mpr ⟨item, ?_, hhandler⟩
  obtain ⟨more, hmore⟩ := hgrows
  rw [← hmore, List.getElem?_append_left (List.getElem?_eq_some_iff.mp hitem).1]
  exact hitem

theorem mem_packetsOf {n : Nat} {log : List (Job × Origin)} :
    n ∈ packetsOf s log ↔ ∃ job, (job, some (s, n)) ∈ log := by
  unfold packetsOf
  constructor
  · intro h
    obtain ⟨⟨job, origin⟩, he, hn⟩ := List.mem_filterMap.mp h
    obtain ⟨⟨t, m⟩, rfl, hsame⟩ := Option.bind_eq_some_iff.mp hn
    split at hsame
    · rename_i ht
      obtain rfl : t = s := ht
      obtain rfl := Option.some.inj hsame
      exact ⟨job, he⟩
    · exact absurd hsame (by simp)
  · rintro ⟨job, he⟩
    exact List.mem_filterMap.mpr ⟨_, he, by simp⟩

/-- The jobs of one handler have the number of its packet. -/
theorem origin_of_mem_packetsOf {n : Nat} {jobs : List Job} {origin : Origin}
    (h : n ∈ packetsOf s (jobs.map fun job => (job, origin))) : origin = some (s, n) := by
  obtain ⟨job, hjob⟩ := mem_packetsOf.mp h
  obtain ⟨job', -, hsame⟩ := List.mem_map.mp hjob
  exact (Prod.mk.inj hsame).2

theorem packetsOf_append (log log' : List (Job × Origin)) :
    packetsOf s (log ++ log') = packetsOf s log ++ packetsOf s log' :=
  List.filterMap_append

/-- A step of the receive path that pushes nothing: the handlers under way go on waiting for their
calls. -/
theorem tagged_receive (h : Tagged handler st)
    (hmidway : st.threads.midway <+: st'.threads.midway)
    (hpushed : st'.threads.pushed = st.threads.pushed) (hlog : st'.log = st.log)
    (hgrows : ∀ s, st.dispatched s <+: st'.dispatched s)
    (horigins : ∀ i s n, st'.origins i = some (s, n) →
      st.origins i = some (s, n) ∨ Handles handler st' i s n)
    (hstays : ∀ a ∈ st.activities, ∀ i packetSize, a.stage = .handlePacket (some i) packetSize →
      ¬ st.Done i → a ∈ st'.activities ∧ st'.dispatched a.session = st.dispatched a.session) :
    Tagged handler st' := by
  refine ⟨fun i s n horigin => ?_, fun r job s n hjob => ?_, fun r s => ?_, fun r => ?_⟩
  · rcases horigins i s n horigin with hold | hnew
    · obtain ⟨hlt, ⟨packet, srv, hpacket, hcalls⟩, hwaits⟩ := h.origins i s n hold
      have hsame : st'.threads.midway[i]? = st.threads.midway[i]? := by
        obtain ⟨more, hmore⟩ := hmidway
        rw [← hmore, List.getElem?_append_left hlt]
      refine ⟨lt_of_lt_of_le hlt hmidway.length_le, ⟨packet, srv, hpacket.mono (hgrows s), ?_⟩, ?_⟩
      · rw [hsame]
        exact hcalls
      · intro hdone
        have hdone' : ¬ st.Done i := by
          unfold Workers.Done at hdone ⊢
          rwa [hsame] at hdone
        obtain ⟨hlast, a, ha, hsession, packetSize, hstage⟩ := hwaits hdone'
        obtain ⟨ha', hdispatched⟩ := hstays a ha i packetSize hstage hdone'
        rw [hsession] at hdispatched
        rw [hdispatched]
        exact ⟨hlast, a, ha', hsession, packetSize, hstage⟩
    · exact hnew
  · rw [hlog] at hjob
    obtain ⟨packet, srv, hpacket, hsent⟩ := h.packet r job s n hjob
    exact ⟨packet, srv, hpacket.mono (hgrows s), hsent⟩
  · rw [hlog]
    exact h.order r s
  · rw [hlog, hpushed]
    exact h.pushed r

/-- What a set leaves in the list. -/
theorem mem_set_of_ne {l : List Activity} {b a' : Activity} (hk : l[k]? = some a) (hb : b ∈ l)
    (hne : b ≠ a) : b ∈ l.set k a' := by
  obtain ⟨j, hj⟩ := List.mem_iff_getElem?.mp hb
  refine List.mem_of_getElem? (i := j) ?_
  rw [List.getElem?_set_ne, hj]
  rintro rfl
  exact hne (Option.some.inj (hj.symm.trans hk))

/-- A thread elsewhere leaves those in `HandlePacket` where they are. -/
theorem mem_set_between {l : List Activity} {b a' : Activity} {through : Option Nat}
    {packetSize : Int} (hk : l[k]? = some a)
    (hbetween : ∀ through packetSize, a.stage ≠ .handlePacket through packetSize) (hb : b ∈ l)
    (hstage : b.stage = .handlePacket through packetSize) : b ∈ l.set k a' := by
  refine mem_set_of_ne hk hb ?_
  rintro rfl
  exact hbetween through packetSize hstage

/-- While a thread is between two packets, no other one is in `HandlePacket` for its session. -/
theorem Single.session_ne {b : Activity} {through : Option Nat} {packetSize : Int}
    (hone : Single st) (hk : st.activities[k]? = some a) (hstage : a.stage = .tryGetPacket)
    (hb : b ∈ st.activities) (hstage' : b.stage = .handlePacket through packetSize) :
    b.session ≠ a.session := by
  intro hsession
  have hsame : b = a := hone.only hb (List.mem_of_getElem? hk)
    (Activity.busy_of_stage hstage' (by simp) (by simp))
    (Activity.busy_of_stage hstage (by simp) (by simp)) hsession
  rw [hsame, hstage] at hstage'
  exact absurd hstage' (by simp)

/-- A thread outside `HandlePacket` goes on. -/
theorem tagged_become {st₀ : Workers} {b : Activity} {stage : Receiving} (h : Tagged handler st)
    (hk : st.activities[k]? = some a)
    (hbetween : ∀ through packetSize, a.stage ≠ .handlePacket through packetSize)
    (hmidway : st.threads.midway <+: st₀.threads.midway)
    (hpushed : st₀.threads.pushed = st.threads.pushed) (hlog : st₀.log = st.log)
    (hdispatched : st₀.dispatched = st.dispatched) (horigins : st₀.origins = st.origins)
    (hactivities : st₀.activities = st.activities) : Tagged handler (st₀.become k b stage) := by
  refine tagged_receive h hmidway hpushed hlog (fun s => ?_) (fun i s n horigin => Or.inl ?_)
    fun c hc i packetSize hstage _ => ⟨?_, congrFun hdispatched c.session⟩
  · show st.dispatched s <+: st₀.dispatched s
    rw [hdispatched]
  · exact (congrFun horigins i).symm.trans horigin
  · show c ∈ st₀.activities.set k _
    rw [hactivities]
    exact mem_set_between hk hbetween hc hstage

/-- A step of the other threads that pushes nothing leaves the record as it is. -/
theorem log_afterThread {threads : Threads} {action : ThreadAction}
    (hpushed : threads.pushed = st.threads.pushed) :
    (st.afterThread action threads).log = st.log := by
  funext r
  show st.log r ++ ((threads.pushed r).drop (st.threads.pushed r).length).map _ = _
  rw [hpushed, List.drop_length]
  exact List.append_nil _

theorem log_call {threads : Threads} {i : Nat} {call : Call}
    (hpushed : ∀ r, threads.pushed r = st.threads.pushed r ++ call.pushes r) (r : RoomRef) :
    (st.afterThread (.call i) threads).log r =
      st.log r ++ (call.pushes r).map fun job => (job, st.origins i) := by
  show st.log r ++ ((threads.pushed r).drop (st.threads.pushed r).length).map _ = _
  rw [hpushed r, List.drop_left]
  rfl

/-- A handler makes a call: it and the others stay those of their packets. -/
theorem handles_call {threads : Threads} {i j : Nat} {call : Call} {rest : List Call} {n : Nat}
    (h : Handles handler st j s n) (hnow : st.threads.midway[i]? = some (call :: rest))
    (hmidway : threads.midway =
      st.threads.midway.set i ((call.perform cfg env st.threads.srv).2 ++ rest)) :
    Handles handler (st.afterThread (.call i) threads) j s n := by
  have hlen : i < st.threads.midway.length := (List.getElem?_eq_some_iff.mp hnow).1
  obtain ⟨hlt, ⟨packet, srv, hpacket, hcalls⟩, hwaits⟩ := h
  refine ⟨?_, ⟨packet, srv, hpacket, ?_⟩, fun hdone => ?_⟩
  · show j < threads.midway.length
    rw [hmidway, List.length_set]
    exact hlt
  · show ∀ calls ∈ threads.midway[j]?, ∀ call ∈ calls, call.SentBy srv s packet
    rw [hmidway]
    by_cases hj : i = j
    · subst hj
      rw [List.getElem?_set_self hlen]
      intro calls hcalls' c hc
      obtain rfl := Option.some.inj hcalls'
      rcases List.mem_append.mp hc with hc | hc
      · exact sentBy_perform (hcalls _ hnow call List.mem_cons_self) c hc
      · exact hcalls _ hnow c (List.mem_cons_of_mem _ hc)
    · rw [List.getElem?_set_ne hj]
      exact hcalls
  · have hdone' : ¬ st.Done j := by
      intro hnone
      by_cases hj : i = j
      · subst hj
        exact absurd (hnone _ hnow) (by simp)
      · refine hdone ?_
        show ∀ calls ∈ threads.midway[j]?, calls = []
        rw [hmidway, List.getElem?_set_ne hj]
        exact hnone
    obtain ⟨hlast, a, ha, hsession, hstage⟩ := hwaits hdone'
    exact ⟨hlast, a, List.mem_append_left _ ha, hsession, hstage⟩

/-- A handler makes its next call: what it pushes is of the last packet of its session. -/
theorem tagged_call {threads : Threads} {i : Nat} {call : Call} {rest : List Call}
    (h : Tagged handler st) (hnow : st.threads.midway[i]? = some (call :: rest))
    (hmidway : threads.midway =
      st.threads.midway.set i ((call.perform cfg env st.threads.srv).2 ++ rest))
    (hpushed : ∀ r, threads.pushed r = st.threads.pushed r ++ call.pushes r) :
    Tagged handler (st.afterThread (.call i) threads) := by
  have hbusy : ¬ st.Done i := fun hdone => absurd (hdone _ hnow) (by simp)
  refine ⟨fun j s n horigin => handles_call (h.origins j s n horigin) hnow hmidway,
    fun r job s n hjob => ?_, fun r s => ?_, fun r => ?_⟩
  · rw [log_call hpushed] at hjob
    rcases List.mem_append.mp hjob with hjob | hjob
    · exact h.packet r job s n hjob
    · obtain ⟨job', hpushes, hsame⟩ := List.mem_map.mp hjob
      obtain ⟨rfl, horigin⟩ := Prod.mk.inj hsame
      obtain ⟨-, ⟨packet, srv, hpacket, hcalls⟩, -⟩ := h.origins i s n horigin
      exact ⟨packet, srv, hpacket, (hcalls _ hnow call List.mem_cons_self).job hpushes⟩
  · rw [log_call hpushed, packetsOf_append, List.pairwise_append]
    refine ⟨h.order r s, List.pairwise_of_forall_mem_list fun m hm n hn => ?_,
      fun m hm n hn => ?_⟩
    · -- all that the call pushes has the number of its handler
      have hsame := (origin_of_mem_packetsOf hm).symm.trans (origin_of_mem_packetsOf hn)
      exact (Prod.mk.inj (Option.some.inj hsame)).2.le
    · obtain ⟨job, hjob⟩ := mem_packetsOf.mp hm
      obtain ⟨packet, srv, hpacket, -⟩ := h.packet r job s m hjob
      obtain ⟨hlast, -⟩ := (h.origins i s n (origin_of_mem_packetsOf hn)).waits hbusy
      have hlt := hpacket.lt
      omega
  · rw [log_call hpushed, List.map_append, h.pushed r]
    show _ = threads.pushed r
    rw [hpushed r, List.map_map]
    exact congrArg _ (List.map_id _)

theorem prefix_update {β : Type} (f : SessionRef → List β) (s t : SessionRef) (more : List β) :
    f t <+: Function.update f s (f s ++ more) t := by
  by_cases ht : t = s
  · rw [ht, Function.update_self]
    exact List.prefix_append _ _
  · rw [Function.update_of_ne ht]

/-- The handler of a packet that was just dispatched: the packet is the last of its session, and the
thread that started it waits. -/
theorem handles_started {threads : Threads} {origins : Nat → Origin} {packetSize : Int}
    {packet : UInt16 × Bytes} {clientPacket : ClientPacket}
    (hk : st.activities[k]? = some a) (htable : handler packet = some clientPacket)
    (hmidway : threads.midway = st.threads.midway ++
      [(st.threads.srv.startPacket env a.session cfg clientPacket).2]) :
    Handles handler ({ st with
        threads := threads
        dispatched := Function.update st.dispatched a.session (st.dispatched a.session ++ [packet])
        origins := origins }.become k a (.handlePacket (some st.threads.midway.length) packetSize))
      st.threads.midway.length a.session (st.dispatched a.session).length where
  started := by
    show st.threads.midway.length < threads.midway.length
    rw [hmidway, List.length_append]
    exact Nat.lt_succ_self _
  packet := by
    refine ⟨clientPacket, st.threads.srv, ?_, ?_⟩
    · show (Function.update st.dispatched a.session _ a.session)[_]?.bind handler = _
      rw [Function.update_self, List.getElem?_concat_length]
      exact htable
    · show ∀ calls ∈ threads.midway[_]?, _
      rw [hmidway, List.getElem?_concat_length]
      intro calls hcalls call hcall
      obtain rfl := Option.some.inj hcalls
      exact sentBy_startPacket hcall
  waits _ := by
    constructor
    · show _ = (Function.update st.dispatched a.session _ a.session).length
      rw [Function.update_self, List.length_append]
      rfl
    · exact ⟨_, List.mem_set (List.getElem?_eq_some_iff.mp hk).1 _, rfl, packetSize, rfl⟩

theorem tagged_next (hone : Single st) (h : Tagged handler st)
    (hworks : Works cfg handler maxPacketSize env st st') : Tagged handler st' := by
  cases hworks with
  | thread action threads other next state =>
    subst state
    by_cases hcall : ∃ i, action = .call i
    · obtain ⟨i, rfl⟩ := hcall
      cases goes_next next with
      | start calls midway pushed started packet => exact absurd rfl (started i)
      | call i' call rest hsame hnow midway pushed =>
        obtain rfl := ThreadAction.call.inj hsame
        exact tagged_call h hnow midway pushed
      | stand midway pushed started packet => exact absurd rfl (started i)
    · obtain ⟨hmidway, hpushed⟩ := (goes_next next).quiet fun i hi => hcall ⟨i, hi⟩
      exact tagged_receive h hmidway hpushed (log_afterThread hpushed) (fun s => List.prefix_rfl)
        (fun i s n horigin => Or.inl horigin)
        fun b hb i packetSize _ _ => ⟨List.mem_append_left _ hb, rfl⟩
  | receive k a window bytes now stage next =>
    obtain ⟨-, rfl⟩ := of_guard next
    exact tagged_become h now (by rw [stage]; simp) List.prefix_rfl rfl rfl rfl rfl rfl
  | disconnect k a threads stage now busy between next left state =>
    subst state
    obtain ⟨hmidway, hpushed⟩ := (goes_next next).quiet (by simp)
    exact tagged_become h now between hmidway hpushed rfl rfl rfl rfl
  | drained k a now stage state =>
    subst state
    exact tagged_become h now (by rw [stage]; simp) List.prefix_rfl rfl rfl rfl rfl rfl
  | short k a packetSize now stage front parsed state =>
    subst state
    exact tagged_become h now (by rw [stage]; simp) List.prefix_rfl rfl rfl rfl rfl rfl
  | unhandled k a packetSize packet now stage front small parsed table state =>
    subst state
    refine tagged_receive h List.prefix_rfl rfl rfl (fun s => prefix_update _ _ _ _)
      (fun i s n horigin => Or.inl horigin) fun b hb i packetSize' hstage _ => ⟨?_, ?_⟩
    · exact mem_set_between now (by rw [stage]; simp) hb hstage
    · exact Function.update_of_ne (hone.session_ne now stage hb hstage) _ _
  | handled k a packetSize packet clientPacket threads now stage front small parsed table next
      state =>
    subst state
    cases goes_next next with
    | start calls midway pushed started hcalls =>
      rw [hcalls a.session clientPacket rfl] at midway
      refine tagged_receive h ?_ pushed rfl (fun s => prefix_update _ _ _ _)
        (fun i s n horigin => ?_) fun b hb i packetSize' hstage _ => ⟨?_, ?_⟩
      · show st.threads.midway <+: threads.midway
        rw [midway]
        exact List.prefix_append _ _
      · by_cases hi : i = st.threads.midway.length
        · right
          subst hi
          have hself := (Function.update_self _ _ _).symm.trans horigin
          obtain ⟨rfl, rfl⟩ := Prod.mk.inj (Option.some.inj hself)
          exact handles_started now table midway
        · left
          exact (Function.update_of_ne hi _ _).symm.trans horigin
      · exact mem_set_between now (by rw [stage]; simp) hb hstage
      · exact Function.update_of_ne (hone.session_ne now stage hb hstage) _ _
    | call i call rest action hnow midway pushed => exact absurd action (by simp)
    | stand midway pushed started hnot => exact absurd rfl (hnot a.session clientPacket)
  | pop k a through packetSize now stage done state =>
    subst state
    refine tagged_receive h List.prefix_rfl rfl rfl (fun s => List.prefix_rfl)
      (fun i s n horigin => Or.inl horigin) fun b hb i packetSize' hstage hbusy => ⟨?_, rfl⟩
    -- a thread whose handler has a call to make does not pop
    refine mem_set_of_ne now hb ?_
    rintro rfl
    rw [stage] at hstage
    obtain ⟨rfl, -⟩ := Receiving.handlePacket.inj hstage
    exact hbusy (done i rfl)
  | window k a now stage state =>
    subst state
    exact tagged_become h now (by rw [stage]; simp) List.prefix_rfl rfl rfl rfl rfl rfl
  | post k a now stage state =>
    subst state
    refine tagged_receive h List.prefix_rfl rfl rfl (fun s => List.prefix_rfl)
      (fun i s n horigin => Or.inl horigin) fun b hb i packetSize hstage _ => ⟨?_, rfl⟩
    exact List.mem_append_left _ (mem_set_between now (by rw [stage]; simp) hb hstage)
  | leave k a now between state =>
    subst state
    exact tagged_become h now between List.prefix_rfl rfl rfl rfl rfl rfl

/-! ## Runs -/

/-- A step is one of the threads' steps, or leaves them alone. -/
theorem threads_next (hworks : Works cfg handler maxPacketSize env st st') :
    st'.threads = st.threads ∨
      ∃ action, threadNext cfg st.threads (action, env) = some st'.threads := by
  cases hworks with
  | thread action threads other next state => exact Or.inr ⟨action, state ▸ next⟩
  | receive k a window bytes now stage next =>
    obtain ⟨-, rfl⟩ := of_guard next
    exact Or.inl rfl
  | disconnect k a threads stage now busy between next left state =>
    subst state
    exact Or.inr ⟨_, next⟩
  | drained k a now stage state => exact Or.inl (state ▸ rfl)
  | short k a packetSize now stage front parsed state => exact Or.inl (state ▸ rfl)
  | unhandled k a packetSize packet now stage front small parsed table state =>
    exact Or.inl (state ▸ rfl)
  | handled k a packetSize packet clientPacket threads now stage front small parsed table next
      state =>
    subst state
    exact Or.inr ⟨_, next⟩
  | pop k a through packetSize now stage done state => exact Or.inl (state ▸ rfl)
  | window k a now stage state => exact Or.inl (state ▸ rfl)
  | post k a now stage state => exact Or.inl (state ▸ rfl)
  | leave k a now between state => exact Or.inl (state ▸ rfl)

/-- The threads of a run make a run of their own. -/
theorem threads_of_run {steps : List (WorkerAction × Env)}
    (hrun : run (workerNext cfg handler maxPacketSize) st steps = some st') :
    ∃ own, run (threadNext cfg) st.threads own = some st'.threads := by
  induction steps generalizing st with
  | nil =>
    obtain rfl := Option.some.inj hrun
    exact ⟨[], rfl⟩
  | cons step steps ih =>
    obtain ⟨st₁, hnext, hrest⟩ := run_cons_inv hrun
    obtain ⟨own, hown⟩ := ih hrest
    rcases threads_next (works_next hnext) with hsame | ⟨action, hthread⟩
    · exact ⟨own, hsame ▸ hown⟩
    · refine ⟨(action, step.2) :: own, ?_⟩
      rw [run, hthread]
      exact hown

theorem single_empty : Single .empty :=
  ⟨fun _ => Nat.zero_le 1, fun _ ha => absurd ha List.not_mem_nil⟩

theorem streamed_empty (maxPacketSize : Int) : Streamed maxPacketSize .empty :=
  ⟨fun _ ha => absurd ha List.not_mem_nil, fun _ => List.nil_prefix, fun _ _ => ⟨rfl, rfl, rfl⟩⟩

theorem tagged_empty (handler : UInt16 × Bytes → Option ClientPacket) : Tagged handler .empty :=
  ⟨fun i s n h => absurd h (by simp [Workers.empty]),
    fun r job s n hjob => absurd hjob List.not_mem_nil, fun r s => List.Pairwise.nil, fun r => rfl⟩

theorem workers_of_run {steps : List (WorkerAction × Env)}
    (hrun : run (workerNext cfg handler maxPacketSize) .empty steps = some st) :
    Single st ∧ Streamed maxPacketSize st ∧ Tagged handler st := by
  refine run_preserves (I := fun st => Single st ∧ Streamed maxPacketSize st ∧ Tagged handler st)
    (fun st step st' hi hnext => ?_)
    ⟨single_empty, streamed_empty maxPacketSize, tagged_empty handler⟩ hrun
  obtain ⟨hone, hstream, htagged⟩ := hi
  have hworks := @works_next cfg handler maxPacketSize step.2 st st' step.1 hnext
  exact ⟨single_next hone hworks, streamed_next hone hstream hworks,
    tagged_next hone htagged hworks⟩

/-- What is said of the jobs of a room: each job pushed has run once or is still to be run, and none
has overtaken another; those that the handlers of a session's packets pushed are in the order of the
packets; and each is what its packet queues. -/
structure RunsInOrder (handler : UInt16 × Bytes → Option ClientPacket) (st : Workers)
    (r : RoomRef) : Prop where
  once : (st.log r).map Prod.fst = st.threads.executed r ++
    (st.threads.flushed r ++ (st.threads.srv.room r).jobQueue)
  order : ∀ s, (packetsOf s (st.log r)).Pairwise (· ≤ ·)
  packet : ∀ job s n, (job, some (s, n)) ∈ st.log r →
    ∃ packet srv, Numbered handler st s n packet ∧ job.SentBy srv s packet r

/-- **In every interleaving** a session has at most one of an outstanding `WSARecv` and a worker
that has not come to its `WSARecv`; its packets are dispatched as the reference framing of its bytes
has them; and a room in the map runs their jobs in this order, each once, those of now at the latest
in the next `TickAll`. -/
theorem jobs_in_stream_order (cfg : Config) (handler : UInt16 × Bytes → Option ClientPacket)
    (maxPacketSize : Int) {steps : List (WorkerAction × Env)}
    (hrun : run (workerNext cfg handler maxPacketSize) .empty steps = some st) :
    (∀ s, st.links s ≤ 1) ∧
    (∀ s, st.dispatched s <+: referenceFraming maxPacketSize (st.read s)) ∧
    ∀ r, st.threads.srv.rooms.Live r → RunsInOrder handler st r ∧
      ∀ env st₁ after st₂,
        workerNext cfg handler maxPacketSize st (.thread .tickAll, env) = some st₁ →
        run (workerNext cfg handler maxPacketSize) st₁ after = some st₂ → st₂.threads.Idle →
        (st.log r).map Prod.fst <+: st₂.threads.executed r := by
  obtain ⟨hone, hstream, htagged⟩ := workers_of_run hrun
  obtain ⟨before, hbefore⟩ := threads_of_run hrun
  refine ⟨hone.one, hstream.dispatched,
    fun r hlive => ⟨⟨?_, htagged.order r, htagged.packet r⟩, ?_⟩⟩
  · rw [htagged.pushed r]
    exact (conserved_of_run hbefore).2 r
  · intro env st₁ after st₂ htickAll hafter hidle
    obtain ⟨threads, hthread, rfl⟩ := Option.map_eq_some_iff.mp htickAll
    obtain ⟨own, hown⟩ := threads_of_run hafter
    rw [htagged.pushed r]
    exact ticked_all hbefore hthread hown hidle hlive

/-- A table whose handlers take the payload as it is. -/
def plainTable (packet : UInt16 × Bytes) : Option ClientPacket :=
  if packet.1 = PacketID.cLogin.toUInt16 then some (.login (some packet.2))
  else if packet.1 = PacketID.cChat.toUInt16 then some (.chat (some packet.2))
  else if packet.1 = PacketID.cRoomEnter.toUInt16 then some (.roomEnter (some packet.2))
  else if packet.1 = PacketID.cReady.toUInt16 then some .ready
  else none

/-- The `k`-th activity goes on for `n` steps. -/
def goesOn (k n : Nat) : List WorkerAction := List.replicate n (.goOn k true)

/-- The `k`-th activity, a `WSARecv`, completes with one packet; its handler, the `i`-th, makes its
calls, and the worker returns. -/
def takesPacket (k i calls : Nat) (packet : Bytes) : List WorkerAction :=
  [.receive k packet, .goOn k true] ++ List.replicate calls (.thread (.call i)) ++ goesOn k 5

/-- A validation ends, and its callback, the `i`-th handler, makes its calls. -/
def validates (i calls : Nat) (accountId : Bytes) : List WorkerAction :=
  .thread (.authCallback 0 true accountId) :: List.replicate calls (.thread (.call i))

/-- One pass of `TickAll` over one room with so many jobs. -/
def ticksOnce (jobs : Nat) : List WorkerAction :=
  ([.tickAll, .takeJobs] ++ List.replicate jobs .runJob ++ [.endTick] : List ThreadAction).map
    .thread

/-- A session is accepted, logs in and enters room `A`; its accept is the `k`-th activity, its first
handler the `i`-th. -/
def joinsRoom (k i : Nat) (accountId : Bytes) : List WorkerAction :=
  .thread (.accept true) :: goesOn k 3 ++ takesPacket (k + 1) i 0 [1, 0, 1, 0, 116] ++
    validates (i + 1) 2 accountId ++ takesPacket (k + 2) (i + 2) 2 [1, 0, 5, 0, 65] ++ ticksOnce 1

/-- A member sends two chats; the second is cut, and its rest completes on another worker. -/
def cutChats : List WorkerAction :=
  joinsRoom 0 0 [97] ++ [.receive 3 [1, 0, 3, 0, 104, 1, 0], .goOn 3 true, .thread (.call 3)] ++
    goesOn 3 4 ++ [.receive 4 [3, 0, 105], .goOn 3 true, .goOn 4 true, .thread (.call 4)]

/-- All at time `1000`. -/
def atOneTime (steps : List WorkerAction) : List (WorkerAction × Env) :=
  steps.map fun action => (action, .quiet 1000)

theorem jobs_in_stream_order_cutChats :
    ∃ st st₁ st₂,
      run (workerNext ⟨16, 30000, 60000⟩ plainTable 4096) .empty (atOneTime cutChats) = some st ∧
      workerNext ⟨16, 30000, 60000⟩ plainTable 4096 st (.thread .tickAll, .quiet 1000) = some st₁ ∧
      run (workerNext ⟨16, 30000, 60000⟩ plainTable 4096) st₁
        (atOneTime (ticksOnce 2).tail) = some st₂ ∧
      packetsOf 0 (st.log 0) = [1, 2, 3] ∧ (∀ s, st.links s ≤ 1) ∧
      (∀ s, st.dispatched s <+: referenceFraming 4096 (st.read s)) ∧
      RunsInOrder plainTable st 0 ∧ (st.log 0).map Prod.fst <+: st₂.threads.executed 0 := by
  obtain ⟨st, hrun, hlive, hpackets, st₁, htickAll, st₂, hafter, hidle⟩ :
      ∃ st, run (workerNext ⟨16, 30000, 60000⟩ plainTable 4096) .empty (atOneTime cutChats) =
          some st ∧
        st.threads.srv.rooms.Live 0 ∧ packetsOf 0 (st.log 0) = [1, 2, 3] ∧
        ∃ st₁, workerNext ⟨16, 30000, 60000⟩ plainTable 4096 st (.thread .tickAll, .quiet 1000) =
            some st₁ ∧
          ∃ st₂, run (workerNext ⟨16, 30000, 60000⟩ plainTable 4096) st₁
            (atOneTime (ticksOnce 2).tail) = some st₂ ∧ st₂.threads.Idle := by
    decide +kernel
  obtain ⟨hone, hdispatched, hrooms⟩ := jobs_in_stream_order _ _ _ hrun
  obtain ⟨horder, hticked⟩ := hrooms 0 hlive
  exact ⟨st, st₁, st₂, hrun, htickAll, hafter, hpackets, hone, hdispatched, horder,
    hticked _ st₁ _ st₂ htickAll hafter hidle⟩

def Receiving.isOutstanding : Receiving → Bool
  | .outstanding _ => true
  | _ => false

/-- How many of {an outstanding `WSARecv`, a worker inside `HandleRecv`} the session has. -/
def Workers.inside (st : Workers) (s : SessionRef) : Nat :=
  st.activities.countP fun a => a.session = s ∧ a.stage ≠ .returned ∧
    (a.inHandleRecv = true ∨ a.stage.isOutstanding = true)

/-- A member of a running game drops out; a new session logs in, sends the member's token and enters
the room before that token is validated. -/
def rejoinOvertaken : List WorkerAction :=
  joinsRoom 0 0 [97] ++ joinsRoom 4 3 [98] ++ takesPacket 3 6 1 [0, 0, 17, 0] ++
    takesPacket 7 7 1 [0, 0, 17, 0] ++ ticksOnce 2 ++ .fail 8 ::
    List.replicate 2 (.thread (.call 8)) ++ ticksOnce 1 ++ .thread (.accept true) :: goesOn 10 3 ++
    takesPacket 11 9 0 [1, 0, 1, 0, 117] ++ validates 10 2 [99] ++
    takesPacket 12 11 0 [1, 0, 1, 0, 116] ++ takesPacket 13 12 2 [1, 0, 5, 0, 65] ++
    validates 13 3 [97] ++ ticksOnce 2

/-- A worker that has called `WSARecv` is still inside `HandleRecv`, so its session has both. And
the rejoin of a login is pushed by the callback of its validation: the job of the second packet runs
behind that of the third. -/
theorem overlapping_receive :
    (∃ st, run (workerNext ⟨16, 30000, 60000⟩ plainTable 4096) .empty (atOneTime
        (.thread (.accept true) :: goesOn 0 3 ++ .receive 1 [1] :: goesOn 1 3)) = some st ∧
      st.inside 0 = 2 ∧ ⟨0, true, .returning⟩ ∈ st.activities) ∧
    ∃ st, run (workerNext ⟨16, 30000, 60000⟩ plainTable 4096) .empty (atOneTime rejoinOvertaken) =
        some st ∧
      st.dispatched 2 = [(1, [117]), (1, [116]), (5, [65])] ∧ st.threads.srv.rooms.Live 0 ∧
      (st.threads.executed 0).drop 5 = [.handleEnter 2, .handleRejoin 2] := by
  decide +kernel

end

end RealtimeServer
