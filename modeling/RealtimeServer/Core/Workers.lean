import RealtimeServer.Core.HandleRecv
import RealtimeServer.Game.Flush

/-!
# The receive path on many workers

`Core/HandleRecv` follows one session, one receive after the other. Here the receives of all
sessions complete on any worker, at any time: `WorkerThread`, `HandleRecv`, `PostRecv` and the
`PostRecv` of `HandleAcceptCompletion` (`Core/ServerCore.cpp`) one call at a time, next to the steps
of `Threads`. A packet starts its handler in `threads.midway`, and the worker goes on when the
handler is through.

Inputs of the model: `handler`, the table `m_handlers` with the `ParseFromArray` of each handler,
and `maxPacketSize`; at each `CheckRateLimit` and each `WSARecv` the answer. A receive that fails,
or is empty, only starts a `HandleDisconnect`. `read` keeps what the socket has delivered,
`dispatched` every packet given to `HandlePacket`, `log` every job pushed to a room with the packet
whose handler pushed it; no thread reads these.

* `works_next`: what a step can do.
* **`single_next`**: a session keeps at most one of an outstanding `WSARecv` and a thread on its way
  to one, so no two threads have its buffer in their hands.
* **`streamed_next`**: what is dispatched stays a start of the reference framing of the bytes read.

`Core/StreamOrder` has the runs, and the jobs.
-/

namespace RealtimeServer

open Stream Guarded

/-! ## The machine -/

/-- What becomes of a receive. -/
inductive Receiving
  /-- A `WSARecv`, with the length of the window it was given (`wsaBuf.len`). -/
  | outstanding (window : Int)
  /-- A worker in the loop of `HandleRecv`. -/
  | tryGetPacket
  /-- In `HandlePacket`, whose handler, if the packet has one, is the given one of `midway`; then
  it pops the packet. -/
  | handlePacket (handler : Option Nat) (packetSize : Int)
  /-- In `PostRecv`, at `IsDisconnected`. -/
  | postRecv
  /-- In `PostRecv`, at `WSARecv`. -/
  | wsaRecv
  /-- In `HandleDisconnect`, the given one of `midway`. -/
  | handleDisconnect (handler : Nat)
  /-- In `PostRecv`, behind `WSARecv`. -/
  | returning
  | returned
  deriving DecidableEq

/-- A receive of a session: an outstanding `WSARecv`, or a thread. -/
structure Activity where
  session : SessionRef
  /-- The thread is inside `HandleRecv`; it may be inside `HandleAcceptCompletion` instead. -/
  inHandleRecv : Bool
  stage : Receiving
  deriving DecidableEq

/-- It is an outstanding `WSARecv`, or has one still to come. -/
def Activity.Busy (a : Activity) : Prop := a.stage ≠ .returning ∧ a.stage ≠ .returned

instance (a : Activity) : Decidable a.Busy := by
  unfold Activity.Busy; infer_instance

theorem Activity.busy_of_stage {a : Activity} {stage : Receiving} (h : a.stage = stage)
    (hreturning : stage ≠ .returning) (hreturned : stage ≠ .returned) : a.Busy := by
  subst h
  exact ⟨hreturning, hreturned⟩

/-- The packet, by its number in the session's stream, whose handler it is. -/
abbrev Origin := Option (SessionRef × Nat)

/-- The server, its threads, and the receives of its sessions. -/
structure Workers where
  threads : Threads
  activities : List Activity
  recvBuffer : SessionRef → RecvBuffer
  read : SessionRef → Bytes
  dispatched : SessionRef → List (UInt16 × Bytes)
  /-- Whose handler the `i`-th of `midway` is. -/
  origins : Nat → Origin
  log : RoomRef → List (Job × Origin)

/-- What happens next. -/
inductive WorkerAction
  /-- A step of the other threads, or the next call of a handler. -/
  | thread (action : ThreadAction)
  /-- A receive completes. -/
  | receive (k : Nat) (bytes : Bytes)
  /-- It fails, or is empty. -/
  | fail (k : Nat)
  /-- The thread goes on; `answer` is what `CheckRateLimit` says, or whether `WSARecv` is under
  way. -/
  | goOn (k : Nat) (answer : Bool)

/-- The new session of an accept. -/
def ThreadAction.arrivals (srv : Server) : ThreadAction → List Activity
  | .accept true => [⟨srv.nextSession, false, .postRecv⟩]
  | _ => []

/-- Whose handler makes the step. -/
def ThreadAction.origin (origins : Nat → Origin) : ThreadAction → Origin
  | .call i => origins i
  | _ => none

def ThreadAction.isPacket : ThreadAction → Bool
  | .packet _ _ => true
  | _ => false

namespace Workers

def empty : Workers :=
  { threads := .empty
    activities := []
    recvBuffer := fun _ => .new recvBufCapacity
    read := fun _ => []
    dispatched := fun _ => []
    origins := fun _ => none
    log := fun _ => [] }

section

variable (cfg : Config) (handler : UInt16 × Bytes → Option ClientPacket) (maxPacketSize : Int)
  (env : Env) (st : Workers) (k : Nat) (a : Activity)

/-- The thread comes to the next stage. -/
def become (stage : Receiving) : Workers :=
  { st with activities := st.activities.set k { a with stage := stage } }

/-- The handler has no call left to make. -/
def Done (i : Nat) : Prop := ∀ calls ∈ st.threads.midway[i]?, calls = []

instance (i : Nat) : Decidable (st.Done i) := by
  unfold Done; infer_instance

/-- A step of the other threads. -/
def afterThread (action : ThreadAction) (threads : Threads) : Workers :=
  { st with
    threads := threads
    activities := st.activities ++ action.arrivals st.threads.srv
    log := fun r => st.log r ++
      ((threads.pushed r).drop (st.threads.pushed r).length).map fun job =>
        (job, action.origin st.origins) }

/-- `HandleDisconnect`, from inside `HandleRecv` or `PostRecv`. -/
def handleDisconnect : Option Workers :=
  (threadNext cfg st.threads (.disconnect a.session, env)).map fun threads =>
    { st with threads := threads }.become k a (.handleDisconnect st.threads.midway.length)

/-- `HandlePacket`, up to its handler. -/
def handlePacket (packetSize : Int) : Option Workers :=
  match parsePacket ((st.recvBuffer a.session).packetData packetSize) with
  | none => some (st.become k a (.handlePacket none packetSize))
  | some packet =>
    let number := (st.dispatched a.session).length
    let st := { st with
      dispatched := Function.update st.dispatched a.session (st.dispatched a.session ++ [packet]) }
    match handler packet with
    | none => some (st.become k a (.handlePacket none packetSize))
    | some packet =>
      (threadNext cfg st.threads (.packet a.session packet, env)).map fun threads =>
        { st with
          threads := threads
          origins :=
            Function.update st.origins st.threads.midway.length (some (a.session, number)) }.become
          k a (.handlePacket (some st.threads.midway.length) packetSize)

/-- A thread goes on. -/
def goOn (answer : Bool) : Option Workers :=
  match a.stage with
  | .outstanding _ | .returned => none
  | .tryGetPacket =>
    match (st.recvBuffer a.session).tryGetPacket with
    | none => some (st.become k a .postRecv)
    | some packetSize =>
      if maxPacketSize < packetSize ∨ answer = false then st.handleDisconnect cfg env k a
      else st.handlePacket cfg handler env k a packetSize
  | .handlePacket through packetSize =>
    if ∀ i ∈ through, st.Done i then
      some ({ st with
        recvBuffer := Function.update st.recvBuffer a.session
          ((st.recvBuffer a.session).pop packetSize) }.become k a .tryGetPacket)
    else none
  | .postRecv =>
    if st.threads.srv.Down a.session then some (st.become k a .returned)
    else some ({ st with
      recvBuffer := Function.update st.recvBuffer a.session
        (st.recvBuffer a.session).getWriteBufferPtr }.become k a .wsaRecv)
  | .wsaRecv =>
    if answer then
      let posted := st.become k a .returning
      some { posted with activities := posted.activities ++
        [⟨a.session, false, .outstanding (st.recvBuffer a.session).getWriteBufferSize⟩] }
    else st.handleDisconnect cfg env k a
  | .handleDisconnect i => if st.Done i then some (st.become k a .returned) else none
  | .returning => some (st.become k a .returned)

/-- A receive of `bytes` completes on a worker, which counts it in. -/
def receive (window : Int) (bytes : Bytes) : Option Workers :=
  if bytes ≠ [] ∧ (bytes.length : Int) ≤ window then
    some ({ st with
      recvBuffer := Function.update st.recvBuffer a.session
        (((st.recvBuffer a.session).receive bytes).write bytes.length)
      read := Function.update st.read a.session (st.read a.session ++ bytes) }.become k
        { a with inHandleRecv := true } .tryGetPacket)
  else none

/-- A receive completes and is of no use. -/
def fail : Option Workers :=
  (threadNext cfg st.threads (.disconnect a.session, env)).map fun threads =>
    { st with threads := threads }.become k a .returned

end

end Workers

/-- The effect of an action, where it is enabled. -/
def workerAct (cfg : Config) (handler : UInt16 × Bytes → Option ClientPacket)
    (maxPacketSize : Int) (env : Env) (st : Workers) : WorkerAction → Option Workers
  | .thread action =>
    if action.isPacket then none
    else (threadNext cfg st.threads (action, env)).map fun threads =>
      st.afterThread action threads
  | .receive k bytes =>
    match st.activities[k]? with
    | some a =>
      match a.stage with
      | .outstanding window => st.receive k a window bytes
      | _ => none
    | none => none
  | .fail k =>
    match st.activities[k]? with
    | some a =>
      match a.stage with
      | .outstanding _ => st.fail cfg env k a
      | _ => none
    | none => none
  | .goOn k answer =>
    match st.activities[k]? with
    | some a => st.goOn cfg handler maxPacketSize env k a answer
    | none => none

/-- One step: an action in its environment. -/
def workerNext (cfg : Config) (handler : UInt16 × Bytes → Option ClientPacket)
    (maxPacketSize : Int) (st : Workers) (step : WorkerAction × Env) : Option Workers :=
  workerAct cfg handler maxPacketSize step.2 st step.1

section

variable {cfg : Config} {handler : UInt16 × Bytes → Option ClientPacket} {maxPacketSize : Int}
  {env : Env} {st st' : Workers} {a : Activity} {k : Nat} {s : SessionRef}

/-- What a step can do. -/
inductive Works (cfg : Config) (handler : UInt16 × Bytes → Option ClientPacket)
    (maxPacketSize : Int) (env : Env) (st st' : Workers) : Prop
  | thread (action : ThreadAction) (threads : Threads) (other : action.isPacket = false)
      (next : threadNext cfg st.threads (action, env) = some threads)
      (state : st' = st.afterThread action threads)
  | receive (k : Nat) (a : Activity) (window : Int) (bytes : Bytes)
      (now : st.activities[k]? = some a) (stage : a.stage = .outstanding window)
      (next : st.receive k a window bytes = some st')
  /-- `HandleDisconnect`; the thread stays in it, or the receive is over. -/
  | disconnect (k : Nat) (a : Activity) (threads : Threads) (stage : Receiving)
      (now : st.activities[k]? = some a) (busy : a.Busy)
      (between : ∀ through packetSize, a.stage ≠ .handlePacket through packetSize)
      (next : threadNext cfg st.threads (.disconnect a.session, env) = some threads)
      (left : stage = .returned ∨ ∃ i, stage = .handleDisconnect i)
      (state : st' = { st with threads := threads }.become k a stage)
  /-- No complete packet is left. -/
  | drained (k : Nat) (a : Activity) (now : st.activities[k]? = some a)
      (stage : a.stage = .tryGetPacket)
      (state : st' = st.become k a .postRecv)
  /-- `HandlePacket` finds no header. -/
  | short (k : Nat) (a : Activity) (packetSize : Int) (now : st.activities[k]? = some a)
      (stage : a.stage = .tryGetPacket)
      (front : (st.recvBuffer a.session).tryGetPacket = some packetSize)
      (parsed : parsePacket ((st.recvBuffer a.session).packetData packetSize) = none)
      (state : st' = st.become k a (.handlePacket none packetSize))
  /-- It finds no handler. -/
  | unhandled (k : Nat) (a : Activity) (packetSize : Int) (packet : UInt16 × Bytes)
      (now : st.activities[k]? = some a) (stage : a.stage = .tryGetPacket)
      (front : (st.recvBuffer a.session).tryGetPacket = some packetSize)
      (small : packetSize ≤ maxPacketSize)
      (parsed : parsePacket ((st.recvBuffer a.session).packetData packetSize) = some packet)
      (table : handler packet = none)
      (state : st' = ({ st with
        dispatched := Function.update st.dispatched a.session
          (st.dispatched a.session ++ [packet]) }.become k a (.handlePacket none packetSize)))
  /-- Its handler starts. -/
  | handled (k : Nat) (a : Activity) (packetSize : Int) (packet : UInt16 × Bytes)
      (clientPacket : ClientPacket) (threads : Threads) (now : st.activities[k]? = some a)
      (stage : a.stage = .tryGetPacket)
      (front : (st.recvBuffer a.session).tryGetPacket = some packetSize)
      (small : packetSize ≤ maxPacketSize)
      (parsed : parsePacket ((st.recvBuffer a.session).packetData packetSize) = some packet)
      (table : handler packet = some clientPacket)
      (next : threadNext cfg st.threads (.packet a.session clientPacket, env) = some threads)
      (state : st' = ({ st with
        threads := threads
        dispatched := Function.update st.dispatched a.session (st.dispatched a.session ++ [packet])
        origins := Function.update st.origins st.threads.midway.length
          (some (a.session, (st.dispatched a.session).length)) }.become k a
            (.handlePacket (some st.threads.midway.length) packetSize)))
  | pop (k : Nat) (a : Activity) (through : Option Nat) (packetSize : Int)
      (now : st.activities[k]? = some a) (stage : a.stage = .handlePacket through packetSize)
      (done : ∀ i ∈ through, st.Done i)
      (state : st' = ({ st with
        recvBuffer := Function.update st.recvBuffer a.session
          ((st.recvBuffer a.session).pop packetSize) }.become k a .tryGetPacket))
  | window (k : Nat) (a : Activity) (now : st.activities[k]? = some a)
      (stage : a.stage = .postRecv)
      (state : st' = ({ st with
        recvBuffer := Function.update st.recvBuffer a.session
          (st.recvBuffer a.session).getWriteBufferPtr }.become k a .wsaRecv))
  | post (k : Nat) (a : Activity) (now : st.activities[k]? = some a) (stage : a.stage = .wsaRecv)
      (state : st' = { st with
        activities := st.activities.set k { a with stage := .returning } ++
          [⟨a.session, false,
            .outstanding (st.recvBuffer a.session).getWriteBufferSize⟩] })
  | leave (k : Nat) (a : Activity) (now : st.activities[k]? = some a)
      (between : ∀ through packetSize, a.stage ≠ .handlePacket through packetSize)
      (state : st' = st.become k a .returned)

/-- A thread that is not in `HandlePacket` calls `HandleDisconnect`. -/
theorem works_disconnect {k : Nat} {a : Activity} (hk : st.activities[k]? = some a) (hbusy : a.Busy)
    (hbetween : ∀ through packetSize, a.stage ≠ .handlePacket through packetSize)
    (h : st.handleDisconnect cfg env k a = some st') :
    Works cfg handler maxPacketSize env st st' := by
  obtain ⟨threads, hthreads, rfl⟩ := Option.map_eq_some_iff.mp h
  exact .disconnect k a threads _ hk hbusy hbetween hthreads (Or.inr ⟨_, rfl⟩) rfl

/-- A thread has a packet in the buffer, and hands it to its handler. -/
theorem works_handlePacket {k : Nat} {a : Activity} {packetSize : Int}
    (hk : st.activities[k]? = some a) (hstage : a.stage = .tryGetPacket)
    (hpacket : (st.recvBuffer a.session).tryGetPacket = some packetSize)
    (hlimit : packetSize ≤ maxPacketSize)
    (h : st.handlePacket cfg handler env k a packetSize = some st') :
    Works cfg handler maxPacketSize env st st' := by
  unfold Workers.handlePacket at h
  split at h
  · rename_i hparsed
    obtain rfl := Option.some.inj h
    exact .short k a packetSize hk hstage hpacket hparsed rfl
  · rename_i packet hparsed
    simp only at h
    split at h
    · rename_i htable
      obtain rfl := Option.some.inj h
      exact .unhandled k a packetSize packet hk hstage hpacket hlimit hparsed htable rfl
    · rename_i clientPacket htable
      obtain ⟨threads, hthreads, rfl⟩ := Option.map_eq_some_iff.mp h
      exact .handled k a packetSize packet clientPacket threads hk hstage hpacket hlimit hparsed
        htable hthreads rfl

/-- A thread goes on from where it is. -/
theorem works_goOn {k : Nat} {a : Activity} {answer : Bool} (hk : st.activities[k]? = some a)
    (h : st.goOn cfg handler maxPacketSize env k a answer = some st') :
    Works cfg handler maxPacketSize env st st' := by
  unfold Workers.goOn at h
  split at h
  · exact absurd h (by simp)
  · exact absurd h (by simp)
  · rename_i hstage
    split at h
    · obtain rfl := Option.some.inj h
      exact .drained k a hk hstage rfl
    · rename_i packetSize hpacket
      split at h
      · exact works_disconnect hk (Activity.busy_of_stage hstage (by simp) (by simp))
          (by rw [hstage]; simp) h
      · rename_i hsmall
        exact works_handlePacket hk hstage hpacket (not_lt.mp fun hbig => hsmall (Or.inl hbig)) h
  · rename_i through packetSize hstage
    obtain ⟨hdone, rfl⟩ := of_guard h
    exact .pop k a through packetSize hk hstage hdone rfl
  · rename_i hstage
    split at h
    · obtain rfl := Option.some.inj h
      exact .leave k a hk (by rw [hstage]; simp) rfl
    · obtain rfl := Option.some.inj h
      exact .window k a hk hstage rfl
  · rename_i hstage
    split at h
    · obtain rfl := Option.some.inj h
      exact .post k a hk hstage rfl
    · exact works_disconnect hk (Activity.busy_of_stage hstage (by simp) (by simp))
        (by rw [hstage]; simp) h
  · rename_i hstage
    obtain ⟨-, rfl⟩ := of_guard h
    exact .leave k a hk (by rw [hstage]; simp) rfl
  · rename_i hstage
    obtain rfl := Option.some.inj h
    exact .leave k a hk (by rw [hstage]; simp) rfl

theorem works_next {action : WorkerAction}
    (hnext : workerNext cfg handler maxPacketSize st (action, env) = some st') :
    Works cfg handler maxPacketSize env st st' := by
  change workerAct cfg handler maxPacketSize env st action = some st' at hnext
  cases action with
  | thread action =>
    simp only [workerAct] at hnext
    split at hnext
    · exact absurd hnext (by simp)
    · rename_i hpacket
      obtain ⟨threads, hthreads, rfl⟩ := Option.map_eq_some_iff.mp hnext
      exact .thread action threads (Bool.not_eq_true _ ▸ hpacket) hthreads rfl
  | receive k bytes =>
    simp only [workerAct] at hnext
    split at hnext
    · rename_i a hk
      split at hnext
      · rename_i window hstage
        exact .receive k a window bytes hk hstage hnext
      · exact absurd hnext (by simp)
    · exact absurd hnext (by simp)
  | fail k =>
    simp only [workerAct] at hnext
    split at hnext
    · rename_i a hk
      split at hnext
      · rename_i window hstage
        obtain ⟨threads, hthreads, rfl⟩ := Option.map_eq_some_iff.mp hnext
        refine .disconnect k a threads _ hk ?_ ?_ hthreads (Or.inl rfl) rfl
        · exact Activity.busy_of_stage hstage (by simp) (by simp)
        · rw [hstage]
          simp
      · exact absurd hnext (by simp)
    · exact absurd hnext (by simp)
  | goOn k answer =>
    simp only [workerAct] at hnext
    split at hnext
    · rename_i a hk
      exact works_goOn hk hnext
    · exact absurd hnext (by simp)

/-! ## At most one receive -/

/-- How many of {an outstanding `WSARecv`, a thread on its way to one} the session has. -/
def Workers.links (st : Workers) (s : SessionRef) : Nat :=
  st.activities.countP fun a => a.session = s ∧ a.Busy

/-- **The invariant** of the receives. -/
structure Single (st : Workers) : Prop where
  one : ∀ s, st.links s ≤ 1
  accepted : ∀ a ∈ st.activities, a.session < st.threads.srv.nextSession

/-- Two that count are one. -/
theorem Single.only {b : Activity} (h : Single st) (ha : a ∈ st.activities)
    (hb : b ∈ st.activities) (hbusy : a.Busy) (hbusy' : b.Busy) (hsession : a.session = b.session) :
    a = b := by
  have hone := h.one b.session
  unfold Workers.links at hone
  rw [List.countP_eq_length_filter] at hone
  have ha' : a ∈ st.activities.filter fun c => c.session = b.session ∧ c.Busy :=
    List.mem_filter.mpr ⟨ha, decide_eq_true ⟨hsession, hbusy⟩⟩
  have hb' : b ∈ st.activities.filter fun c => c.session = b.session ∧ c.Busy :=
    List.mem_filter.mpr ⟨hb, decide_eq_true ⟨rfl, hbusy'⟩⟩
  obtain ⟨c, hc⟩ := List.length_eq_one_iff.mp
    (le_antisymm hone (List.length_pos_of_mem ha'))
  rw [hc] at ha' hb'
  exact (List.mem_singleton.mp ha').trans (List.mem_singleton.mp hb').symm

/-- A thread that goes on stays one, or counts no more. -/
theorem links_set {a' : Activity} (hk : st.activities[k]? = some a)
    (hsession : a'.session = a.session) (hbusy : a'.Busy → a.Busy) (s : SessionRef) :
    (st.activities.set k a').countP (fun b => b.session = s ∧ b.Busy) ≤ st.links s := by
  obtain ⟨hlen, hget⟩ := List.getElem?_eq_some_iff.mp hk
  unfold Workers.links
  rw [List.countP_set hlen, hget]
  by_cases hs : a.session = s ∧ a.Busy
  · have hpos : 0 < st.activities.countP fun b => b.session = s ∧ b.Busy :=
      List.countP_pos_iff.mpr ⟨a, List.mem_of_getElem? hk, decide_eq_true hs⟩
    rw [if_pos (decide_eq_true hs)]
    split <;> omega
  · have hs' : ¬ (a'.session = s ∧ a'.Busy) := fun h => hs ⟨hsession ▸ h.1, hbusy h.2⟩
    rw [if_neg (by simpa using hs), if_neg (by simpa using hs')]
    omega

/-- A thread that counts and then counts no more. -/
theorem links_set_idle {a' : Activity} (hk : st.activities[k]? = some a) (hbusy : a.Busy)
    (hidle : ¬ a'.Busy) :
    (st.activities.set k a').countP (fun b => b.session = a.session ∧ b.Busy) + 1 =
      st.links a.session := by
  obtain ⟨hlen, hget⟩ := List.getElem?_eq_some_iff.mp hk
  have hpos : 0 < st.activities.countP fun b => b.session = a.session ∧ b.Busy :=
    List.countP_pos_iff.mpr ⟨a, List.mem_of_getElem? hk, decide_eq_true ⟨rfl, hbusy⟩⟩
  unfold Workers.links
  rw [List.countP_set hlen, hget, if_pos (decide_eq_true ⟨rfl, hbusy⟩),
    if_neg (by simp [hidle])]
  omega

theorem single_become {st₀ : Workers} {b : Activity} {stage : Receiving} (h : Single st)
    (hk : st.activities[k]? = some a) (hsession : b.session = a.session)
    (hbusy : Activity.Busy { b with stage := stage } → a.Busy)
    (hactivities : st₀.activities = st.activities)
    (hthreads : st.threads.srv.nextSession ≤ st₀.threads.srv.nextSession) :
    Single (st₀.become k b stage) := by
  have hset : (st₀.become k b stage).activities = st.activities.set k { b with stage := stage } :=
    congrArg (fun l => l.set k { b with stage := stage }) hactivities
  constructor
  · intro s
    unfold Workers.links
    rw [hset]
    exact (@links_set st a k { b with stage := stage } hk hsession hbusy s).trans (h.one s)
  · intro c hc
    rw [hset] at hc
    refine lt_of_lt_of_le ?_ hthreads
    rcases List.mem_or_eq_of_mem_set hc with hc | rfl
    · exact h.accepted c hc
    · exact hsession ▸ h.accepted a (List.mem_of_getElem? hk)

/-- A new one comes where none counts. -/
theorem single_append {b : Activity} {activities : List Activity}
    (hone : ∀ s, activities.countP (fun c => c.session = s ∧ c.Busy) ≤ 1)
    (hnone : ∀ c ∈ activities, c.session = b.session → ¬ c.Busy) (s : SessionRef) :
    (activities ++ [b]).countP (fun c => c.session = s ∧ c.Busy) ≤ 1 := by
  rw [List.countP_append, List.countP_singleton]
  by_cases hs : b.session = s ∧ b.Busy
  · have hzero : activities.countP (fun c => c.session = s ∧ c.Busy) = 0 := by
      rw [List.countP_eq_zero]
      intro c hc hcount
      have hcount := of_decide_eq_true hcount
      exact hnone c hc (hcount.1.trans hs.1.symm) hcount.2
    rw [hzero]
    split <;> omega
  · rw [if_neg (by simpa using hs)]
    exact hone s

/-- Only an accept adds a session. -/
theorem nextSession_thread {th th' : Threads} {action : ThreadAction}
    (hnext : threadNext cfg th (action, env) = some th') :
    th'.srv.nextSession = th.srv.nextSession + (action.arrivals th.srv).length := by
  obtain ⟨th₁, hacts, rfl⟩ := threadNext_acts hnext
  suffices h : th₁.srv.nextSession = th.srv.nextSession + (action.arrivals th.srv).length from h
  cases hacts with
  | accept token => cases token <;> rfl
  | @packet s packet accepted =>
    show (th.srv.startPacket env s cfg packet).1.nextSession = _
    cases packet with
    | login password => exact (handled_packet cfg (.login password) th.srv).nextSession
    | ping payload => exact (handled_packet cfg (.ping payload) th.srv).nextSession
    | roomList => exact (handled_packet cfg .roomList th.srv).nextSession
    | chat message => rfl
    | roomEnter roomName => rfl
    | roomLeave => rfl
    | move position => rfl
    | ready => rfl
  | authCallback valid accountId pending =>
    show (Server.startCallback _ _ valid accountId).1.nextSession = _
    unfold Server.startCallback
    split <;> rfl
  | @disconnect s accepted =>
    show (th.srv.startDisconnect s).1.nextSession = _
    unfold Server.startDisconnect
    split <;> rfl
  | @call i call rest now => cases call <;> rfl
  | tickAll done idle => rfl
  | takeJobs idle snapshot => rfl
  | runJob flushing => rfl
  | endTick flushing => rfl
  | removeIdleRooms => rfl

/-- An accept that the policy grants adds a session, whose receive is yet to come. -/
theorem single_thread {action : ThreadAction} {threads : Threads} (h : Single st)
    (hnext : threadNext cfg st.threads (action, env) = some threads) :
    Single (st.afterThread action threads) := by
  have hsessions := nextSession_thread hnext
  by_cases haccept : action = .accept true
  · subst haccept
    have hnone : ∀ c ∈ st.activities, c.session = st.threads.srv.nextSession → ¬ c.Busy :=
      fun c hc hsame => absurd (h.accepted c hc) (by rw [hsame]; exact lt_irrefl _)
    have hnew : threads.srv.nextSession = st.threads.srv.nextSession + 1 := hsessions
    refine ⟨single_append h.one hnone, fun b hb => ?_⟩
    show b.session < threads.srv.nextSession
    rw [hnew]
    rcases List.mem_append.mp hb with hb | hb
    · exact Nat.lt_succ_of_lt (h.accepted b hb)
    · rw [List.mem_singleton.mp hb]
      exact Nat.lt_succ_self _
  · have hnone : action.arrivals st.threads.srv = [] := by
      unfold ThreadAction.arrivals
      split
      · exact absurd rfl haccept
      · rfl
    have hsame : (st.afterThread action threads).activities = st.activities := by
      show st.activities ++ action.arrivals st.threads.srv = _
      rw [hnone, List.append_nil]
    rw [hnone] at hsessions
    constructor
    · intro s
      unfold Workers.links
      rw [hsame]
      exact h.one s
    · intro b hb
      rw [hsame] at hb
      show b.session < threads.srv.nextSession
      rw [hsessions]
      exact h.accepted b hb

/-- A thread that has posted its `WSARecv` counts no more, so the `WSARecv` may. -/
theorem single_posted {b : Activity} (h : Single st) (hk : st.activities[k]? = some a)
    (hbusy : a.Busy) (hsession : b.session = a.session) :
    Single { st with activities := st.activities.set k { a with stage := .returning } ++ [b] } := by
  have hset : Single (st.become k a .returning) :=
    single_become h hk rfl (fun _ => hbusy) rfl le_rfl
  have hnone : ∀ c ∈ (st.become k a .returning).activities, c.session = b.session → ¬ c.Busy := by
    have hless := @links_set_idle st a k { a with stage := .returning } hk hbusy fun hb => hb.1 rfl
    have hone := h.one a.session
    intro c hc hsame hcount
    have hpos : 0 < (st.activities.set k { a with stage := .returning }).countP
        fun c => c.session = a.session ∧ c.Busy :=
      List.countP_pos_iff.mpr ⟨c, hc, decide_eq_true ⟨hsame.trans hsession, hcount⟩⟩
    omega
  refine ⟨single_append hset.one hnone, fun c hc => ?_⟩
  rcases List.mem_append.mp hc with hc | hc
  · exact hset.accepted c hc
  · rw [List.mem_singleton.mp hc, hsession]
    exact h.accepted a (List.mem_of_getElem? hk)

theorem single_next (h : Single st) (hworks : Works cfg handler maxPacketSize env st st') :
    Single st' := by
  cases hworks with
  | thread action threads other next state =>
    subst state
    exact single_thread h next
  | receive k a window bytes now stage next =>
    obtain ⟨-, rfl⟩ := of_guard next
    exact single_become h now rfl (fun _ => Activity.busy_of_stage stage (by simp) (by simp)) rfl
      le_rfl
  | disconnect k a threads stage now busy between next left state =>
    subst state
    exact single_become h now rfl (fun _ => busy) rfl (nextSession_thread next).ge
  | drained k a now stage state =>
    subst state
    exact single_become h now rfl (fun _ => Activity.busy_of_stage stage (by simp) (by simp)) rfl
      le_rfl
  | short k a packetSize now stage front parsed state =>
    subst state
    exact single_become h now rfl (fun _ => Activity.busy_of_stage stage (by simp) (by simp)) rfl
      le_rfl
  | unhandled k a packetSize packet now stage front small parsed table state =>
    subst state
    exact single_become h now rfl (fun _ => Activity.busy_of_stage stage (by simp) (by simp)) rfl
      le_rfl
  | handled k a packetSize packet clientPacket threads now stage front small parsed table next
      state =>
    subst state
    exact single_become h now rfl (fun _ => Activity.busy_of_stage stage (by simp) (by simp)) rfl
      (nextSession_thread next).ge
  | pop k a through packetSize now stage done state =>
    subst state
    exact single_become h now rfl (fun _ => Activity.busy_of_stage stage (by simp) (by simp)) rfl
      le_rfl
  | window k a now stage state =>
    subst state
    exact single_become h now rfl (fun _ => Activity.busy_of_stage stage (by simp) (by simp)) rfl
      le_rfl
  | post k a now stage state =>
    subst state
    exact single_posted h now (Activity.busy_of_stage stage (by simp) (by simp)) rfl
  | leave k a now between state =>
    subst state
    exact single_become h now rfl (fun hbusy => absurd rfl hbusy.2) rfl le_rfl

/-! ## The stream -/

/-- The bytes of the buffer that were not given to `HandlePacket`. -/
def Receiving.unread (b : RecvBuffer) : Receiving → Bytes
  | .handlePacket _ packetSize => b.pending.drop packetSize.toNat
  | _ => b.pending

/-- What holds of the buffer of a session while a receive of it counts. -/
structure Framed (maxPacketSize : Int) (st : Workers) (a : Activity) : Prop where
  ok : (st.recvBuffer a.session).Ok
  agrees : Agrees (referenceFraming maxPacketSize) (st.dispatched a.session)
    (a.stage.unread (st.recvBuffer a.session)) (st.read a.session)
  window : ∀ window, a.stage = .outstanding window →
    window ≤ (st.recvBuffer a.session).getWriteBufferSize
  packet : ∀ through packetSize, a.stage = .handlePacket through packetSize →
    ∃ n : Nat, packetSize = n ∧ n ≤ (st.recvBuffer a.session).pending.length

/-- **The invariant** of the streams. -/
structure Streamed (maxPacketSize : Int) (st : Workers) : Prop where
  framed : ∀ a ∈ st.activities, a.Busy → Framed maxPacketSize st a
  dispatched : ∀ s, st.dispatched s <+: referenceFraming maxPacketSize (st.read s)
  fresh : ∀ s, st.threads.srv.nextSession ≤ s →
    st.recvBuffer s = .new recvBufCapacity ∧ st.dispatched s = [] ∧ st.read s = []

theorem prefix_of_agrees {out : List (UInt16 × Bytes)} {pend read : Bytes}
    (h : Agrees (referenceFraming maxPacketSize) out pend read) :
    out <+: referenceFraming maxPacketSize read := by
  refine ⟨referenceFraming maxPacketSize pend, ?_⟩
  have hnow := h []
  rwa [List.append_nil, List.append_nil] at hnow

/-- Between two packets all of the buffer is unread. -/
theorem unread_between {stage : Receiving} (b : RecvBuffer)
    (hbetween : ∀ through packetSize, stage ≠ .handlePacket through packetSize) :
    stage.unread b = b.pending := by
  cases stage with
  | handlePacket through packetSize => exact absurd rfl (hbetween through packetSize)
  | _ => rfl

theorem Framed.agrees_between (h : Framed maxPacketSize st a)
    (hbetween : ∀ through packetSize, a.stage ≠ .handlePacket through packetSize) :
    Agrees (referenceFraming maxPacketSize) (st.dispatched a.session)
      (st.recvBuffer a.session).pending (st.read a.session) := by
  have hagrees := h.agrees
  rwa [unread_between _ hbetween] at hagrees

/-- The thread comes to another stage, with this buffer, behind these bytes. -/
theorem Framed.of_buffer {b : RecvBuffer} {bytes : Bytes} {stage : Receiving} (hok : b.Ok)
    (hagrees : Agrees (referenceFraming maxPacketSize) (st.dispatched s) b.pending bytes)
    (hbuffer : st'.recvBuffer s = b) (hread : st'.read s = bytes)
    (hdispatched : st'.dispatched s = st.dispatched s)
    (hbetween : ∀ through packetSize, stage ≠ .handlePacket through packetSize)
    (hposted : ∀ window, stage ≠ .outstanding window) (inHandleRecv : Bool) :
    Framed maxPacketSize st' ⟨s, inHandleRecv, stage⟩ := by
  subst hbuffer hread
  refine ⟨hok, ?_, fun window hstage => absurd hstage (hposted window),
    fun through packetSize hstage => absurd hstage (hbetween through packetSize)⟩
  show Agrees _ (st'.dispatched s) (stage.unread (st'.recvBuffer s)) (st'.read s)
  rwa [unread_between _ hbetween, hdispatched]

theorem Framed.restage {stage : Receiving} (h : Framed maxPacketSize st a)
    (hbetween : ∀ through packetSize, a.stage ≠ .handlePacket through packetSize)
    (hbetween' : ∀ through packetSize, stage ≠ .handlePacket through packetSize)
    (hposted : ∀ window, stage ≠ .outstanding window) (inHandleRecv : Bool) :
    Framed maxPacketSize st ⟨a.session, inHandleRecv, stage⟩ :=
  .of_buffer h.ok (h.agrees_between hbetween) rfl rfl rfl hbetween' hposted inHandleRecv

theorem Framed.of_eq (h : Framed maxPacketSize st a)
    (hbuffer : st'.recvBuffer a.session = st.recvBuffer a.session)
    (hread : st'.read a.session = st.read a.session)
    (hdispatched : st'.dispatched a.session = st.dispatched a.session) :
    Framed maxPacketSize st' a := by
  refine ⟨?_, ?_, ?_, ?_⟩
  · rw [hbuffer]
    exact h.ok
  · rw [hbuffer, hread, hdispatched]
    exact h.agrees
  · rw [hbuffer]
    exact h.window
  · rw [hbuffer]
    exact h.packet

/-- A packet was given to `HandlePacket`. -/
theorem Framed.dispatch {packetSize : Int} {packet : UInt16 × Bytes}
    (h : Framed maxPacketSize st a) (hstage : a.stage = .tryGetPacket)
    (hfront : (st.recvBuffer a.session).tryGetPacket = some packetSize)
    (hsmall : packetSize ≤ maxPacketSize)
    (hparsed : parsePacket ((st.recvBuffer a.session).packetData packetSize) = some packet)
    (hbuffer : st'.recvBuffer a.session = st.recvBuffer a.session)
    (hread : st'.read a.session = st.read a.session)
    (hdispatched : st'.dispatched a.session = st.dispatched a.session ++ [packet])
    (through : Option Nat) (inHandleRecv : Bool) :
    Framed maxPacketSize st' ⟨a.session, inHandleRecv, .handlePacket through packetSize⟩ := by
  rw [RecvBuffer.tryGetPacket_eq h.ok] at hfront
  obtain ⟨n, hn, rfl⟩ := Option.map_eq_some_iff.mp hfront
  rw [parsePacket_packetData h.ok hn] at hparsed
  obtain rfl := Option.some.inj hparsed
  have hagrees := h.agrees
  rw [hstage] at hagrees
  refine ⟨?_, ?_, by simp, fun through' packetSize' hsame => ?_⟩
  · show (st'.recvBuffer a.session).Ok
    rw [hbuffer]
    exact h.ok
  · show Agrees _ (st'.dispatched a.session) ((st'.recvBuffer a.session).pending.drop n)
      (st'.read a.session)
    rw [hbuffer, hread, hdispatched]
    exact agrees_emit hagrees (referenceFraming_frame hn hsmall)
  · obtain ⟨-, rfl⟩ := Receiving.handlePacket.inj hsame
    refine ⟨n, rfl, ?_⟩
    show n ≤ (st'.recvBuffer a.session).pending.length
    rw [hbuffer]
    exact (completeFrame_eq_some.mp hn).2

/-- A step that touches no buffer. -/
theorem streamed_still (h : Streamed maxPacketSize st)
    (hbuffer : st'.recvBuffer = st.recvBuffer) (hread : st'.read = st.read)
    (hdispatched : st'.dispatched = st.dispatched)
    (hthreads : st.threads.srv.nextSession ≤ st'.threads.srv.nextSession)
    (hmem : ∀ b ∈ st'.activities, b.Busy → b ∈ st.activities ∨ Framed maxPacketSize st b) :
    Streamed maxPacketSize st' := by
  refine ⟨fun b hb hbusy => ?_, ?_, ?_⟩
  · have hframed : Framed maxPacketSize st b := by
      rcases hmem b hb hbusy with hb | hframed
      · exact h.framed b hb hbusy
      · exact hframed
    exact hframed.of_eq (by rw [hbuffer]) (by rw [hread]) (by rw [hdispatched])
  · rw [hdispatched, hread]
    exact h.dispatched
  · intro s hs
    rw [hbuffer, hdispatched, hread]
    exact h.fresh s (hthreads.trans hs)

/-- A thread goes on with the buffer of its session: no other one has it in its hands. -/
theorem streamed_become {st₀ : Workers} {b : Activity} {stage : Receiving} (hone : Single st)
    (h : Streamed maxPacketSize st) (hk : st.activities[k]? = some a)
    (hsession : b.session = a.session) (hbusy : a.Busy)
    (hbusy' : Activity.Busy { b with stage := stage })
    (hactivities : st₀.activities = st.activities)
    (hthreads : st.threads.srv.nextSession ≤ st₀.threads.srv.nextSession)
    (hothers : ∀ s, s ≠ a.session → st₀.recvBuffer s = st.recvBuffer s ∧
      st₀.read s = st.read s ∧ st₀.dispatched s = st.dispatched s)
    (hframed : Framed maxPacketSize (st₀.become k b stage) { b with stage := stage }) :
    Streamed maxPacketSize (st₀.become k b stage) := by
  have hset : (st₀.become k b stage).activities = st.activities.set k { b with stage := stage } :=
    congrArg (fun l => l.set k { b with stage := stage }) hactivities
  have hone' : Single (st₀.become k b stage) :=
    single_become hone hk hsession (fun _ => hbusy) hactivities hthreads
  have hlen : k < st.activities.length := (List.getElem?_eq_some_iff.mp hk).1
  have hself : { b with stage := stage } ∈ (st₀.become k b stage).activities := by
    rw [hset]
    exact List.mem_set hlen _
  refine ⟨fun c hc hcount => ?_, fun s => ?_, fun s hs => ?_⟩
  · by_cases hsame : c.session = a.session
    · have hc' : c = { b with stage := stage } :=
        hone'.only hc hself hcount hbusy' (hsame.trans hsession.symm)
      rw [hc']
      exact hframed
    · rw [hset] at hc
      rcases List.mem_or_eq_of_mem_set hc with hc | rfl
      · obtain ⟨hbuffer, hread, hdispatched⟩ := hothers c.session hsame
        exact (h.framed c hc hcount).of_eq hbuffer hread hdispatched
      · exact absurd hsession hsame
  · by_cases hs : s = a.session
    · have hnow := prefix_of_agrees hframed.agrees
      rw [show Activity.session { b with stage := stage } = s from hsession.trans hs.symm] at hnow
      exact hnow
    · obtain ⟨-, hread, hdispatched⟩ := hothers s hs
      show st₀.dispatched s <+: referenceFraming maxPacketSize (st₀.read s)
      rw [hread, hdispatched]
      exact h.dispatched s
  · have hold : st.threads.srv.nextSession ≤ s := hthreads.trans hs
    have hne : s ≠ a.session := by
      rintro rfl
      exact absurd (hone.accepted a (List.mem_of_getElem? hk)) (not_lt.mpr hold)
    obtain ⟨hbuffer, hread, hdispatched⟩ := hothers s hne
    show st₀.recvBuffer s = _ ∧ st₀.dispatched s = [] ∧ st₀.read s = []
    rw [hbuffer, hread, hdispatched]
    exact h.fresh s hold

/-- The buffer of a new session is empty. -/
theorem framed_arrival {action : ThreadAction} {b : Activity} (h : Streamed maxPacketSize st)
    (hb : b ∈ action.arrivals st.threads.srv) : Framed maxPacketSize st b := by
  unfold ThreadAction.arrivals at hb
  split at hb
  · rw [List.mem_singleton.mp hb]
    obtain ⟨hbuffer, hdispatched, hread⟩ := h.fresh st.threads.srv.nextSession le_rfl
    refine .of_buffer (RecvBuffer.ok_new recvBufCapacity) ?_ hbuffer hread rfl (by simp) (by simp)
      false
    rw [hdispatched, RecvBuffer.pending_new]
    exact agrees_start
  · exact absurd hb List.not_mem_nil

/-- A thread hands a packet on, whether there is a handler for it or not. -/
theorem streamed_dispatch {st₀ : Workers} {packetSize : Int} {packet : UInt16 × Bytes}
    {through : Option Nat} (hone : Single st) (h : Streamed maxPacketSize st)
    (hk : st.activities[k]? = some a) (hstage : a.stage = .tryGetPacket)
    (hfront : (st.recvBuffer a.session).tryGetPacket = some packetSize)
    (hsmall : packetSize ≤ maxPacketSize)
    (hparsed : parsePacket ((st.recvBuffer a.session).packetData packetSize) = some packet)
    (hactivities : st₀.activities = st.activities)
    (hthreads : st.threads.srv.nextSession ≤ st₀.threads.srv.nextSession)
    (hbuffer : st₀.recvBuffer = st.recvBuffer) (hread : st₀.read = st.read)
    (hdispatched : st₀.dispatched =
      Function.update st.dispatched a.session (st.dispatched a.session ++ [packet])) :
    Streamed maxPacketSize (st₀.become k a (.handlePacket through packetSize)) := by
  have hbusy : a.Busy := Activity.busy_of_stage hstage (by simp) (by simp)
  have hframed : Framed maxPacketSize st a := h.framed a (List.mem_of_getElem? hk) hbusy
  refine streamed_become hone h hk rfl hbusy ⟨by simp, by simp⟩ hactivities hthreads
    (fun s hs => ?_) ?_
  · rw [hbuffer, hread, hdispatched]
    exact ⟨rfl, rfl, Function.update_of_ne hs _ _⟩
  · refine hframed.dispatch hstage hfront hsmall hparsed ?_ ?_ ?_ through a.inHandleRecv
    · exact congrFun hbuffer a.session
    · exact congrFun hread a.session
    · exact (congrFun hdispatched a.session).trans (Function.update_self _ _ _)

theorem streamed_next (hone : Single st) (h : Streamed maxPacketSize st)
    (hworks : Works cfg handler maxPacketSize env st st') : Streamed maxPacketSize st' := by
  have hframed : ∀ {k a}, st.activities[k]? = some a → a.Busy → Framed maxPacketSize st a :=
    fun hk hbusy => h.framed _ (List.mem_of_getElem? hk) hbusy
  cases hworks with
  | thread action threads other next state =>
    subst state
    refine streamed_still h rfl rfl rfl ?_ fun b hb hbusy => ?_
    · exact (Nat.le_add_right _ _).trans (nextSession_thread next).ge
    · rcases List.mem_append.mp hb with hb | hb
      · exact Or.inl hb
      · exact Or.inr (framed_arrival h hb)
  | receive k a window bytes now stage next =>
    obtain ⟨⟨-, hfit⟩, rfl⟩ := of_guard next
    have hbusy : a.Busy := Activity.busy_of_stage stage (by simp) (by simp)
    have hold := hframed now hbusy
    have hroom : (bytes.length : Int) ≤ (st.recvBuffer a.session).getWriteBufferSize :=
      hfit.trans (hold.window window stage)
    refine streamed_become hone h now rfl hbusy ⟨by simp, by simp⟩ rfl le_rfl (fun s hs => ?_)
      (.of_buffer (RecvBuffer.ok_receive_write hroom hold.ok) ?_ (Function.update_self _ _ _)
        (Function.update_self _ _ _) rfl (by simp) (by simp) true)
    · exact ⟨Function.update_of_ne hs _ _, Function.update_of_ne hs _ _, rfl⟩
    · rw [RecvBuffer.pending_receive_write hroom hold.ok]
      exact agrees_feed (hold.agrees_between (by rw [stage]; simp)) bytes
  | disconnect k a threads stage now busy between next left state =>
    subst state
    refine streamed_still h rfl rfl rfl (nextSession_thread next).ge fun b hb hbusy => ?_
    rcases List.mem_or_eq_of_mem_set hb with hb | rfl
    · exact Or.inl hb
    · rcases left with rfl | ⟨i, rfl⟩
      · exact absurd rfl hbusy.2
      · exact Or.inr ((hframed now busy).restage between (by simp) (by simp) a.inHandleRecv)
  | drained k a now stage state =>
    subst state
    have hbusy : a.Busy := Activity.busy_of_stage stage (by simp) (by simp)
    refine streamed_still h rfl rfl rfl le_rfl fun b hb _ => ?_
    rcases List.mem_or_eq_of_mem_set hb with hb | rfl
    · exact Or.inl hb
    · exact Or.inr ((hframed now hbusy).restage (by rw [stage]; simp) (by simp) (by simp)
        a.inHandleRecv)
  | short k a packetSize now stage front parsed state =>
    have hold := hframed now (Activity.busy_of_stage stage (by simp) (by simp))
    rw [RecvBuffer.tryGetPacket_eq hold.ok] at front
    obtain ⟨n, hn, rfl⟩ := Option.map_eq_some_iff.mp front
    rw [parsePacket_packetData hold.ok hn] at parsed
    exact absurd parsed (by simp)
  | unhandled k a packetSize packet now stage front small parsed table state =>
    subst state
    exact streamed_dispatch hone h now stage front small parsed rfl le_rfl rfl rfl rfl
  | handled k a packetSize packet clientPacket threads now stage front small parsed table next
      state =>
    subst state
    exact streamed_dispatch hone h now stage front small parsed rfl (nextSession_thread next).ge
      rfl rfl rfl
  | pop k a through packetSize now stage done state =>
    subst state
    have hbusy : a.Busy := Activity.busy_of_stage stage (by simp) (by simp)
    have hold := hframed now hbusy
    obtain ⟨n, rfl, hn⟩ := hold.packet through packetSize stage
    refine streamed_become hone h now rfl hbusy ⟨by simp, by simp⟩ rfl le_rfl (fun s hs => ?_)
      (.of_buffer (RecvBuffer.ok_pop hn hold.ok) ?_ (Function.update_self _ _ _) rfl rfl (by simp)
        (by simp) a.inHandleRecv)
    · exact ⟨Function.update_of_ne hs _ _, rfl, rfl⟩
    · have hagrees := hold.agrees
      rw [stage] at hagrees
      rw [RecvBuffer.pending_pop hn hold.ok]
      exact hagrees
  | window k a now stage state =>
    subst state
    have hbusy : a.Busy := Activity.busy_of_stage stage (by simp) (by simp)
    have hold := hframed now hbusy
    refine streamed_become hone h now rfl hbusy ⟨by simp, by simp⟩ rfl le_rfl (fun s hs => ?_)
      (.of_buffer (RecvBuffer.ok_getWriteBufferPtr hold.ok) ?_ (Function.update_self _ _ _) rfl rfl
        (by simp) (by simp) a.inHandleRecv)
    · exact ⟨Function.update_of_ne hs _ _, rfl, rfl⟩
    · rw [RecvBuffer.pending_getWriteBufferPtr hold.ok]
      exact hold.agrees_between (by rw [stage]; simp)
  | post k a now stage state =>
    subst state
    have hold := hframed now (Activity.busy_of_stage stage (by simp) (by simp))
    refine streamed_still h rfl rfl rfl le_rfl fun b hb hbusy => ?_
    rcases List.mem_append.mp hb with hb | hb
    · rcases List.mem_or_eq_of_mem_set hb with hb | rfl
      · exact Or.inl hb
      · exact absurd rfl hbusy.1
    · rw [List.mem_singleton.mp hb]
      right
      have hagrees := hold.agrees
      rw [stage] at hagrees
      refine ⟨hold.ok, hagrees, fun window hstage => ?_, by simp⟩
      exact (Receiving.outstanding.inj hstage).ge
  | leave k a now between state =>
    subst state
    refine streamed_still h rfl rfl rfl le_rfl fun b hb hbusy => ?_
    rcases List.mem_or_eq_of_mem_set hb with hb | rfl
    · exact Or.inl hb
    · exact absurd rfl hbusy.2

end

end RealtimeServer
