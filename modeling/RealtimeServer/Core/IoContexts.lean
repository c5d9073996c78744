import RealtimeServer.Core.ServerSession
import RealtimeServer.Lib.Run
import RealtimeServer.Lib.Tally

/-!
# The contexts of the sends

Model of `SendInternal`, `SendRaw`, `SendShared` and `PostSend` (`Core/ServerSession.cpp`), of
`ObjectPool` (`Utils/ObjectPool.h`) and of the send completions of `WorkerThread`
(`Core/ServerCore.cpp`), one step at a time, any number of them next to each other. A send is
followed from its call to the completion of its `WSASend`. The port reports one completion for a
`WSASend` that is under way, and none for one that failed. A receive and an accept have contexts of
their own, which never come from the pool.

* `ioActs_next`: what a step does with a context.
* **`contexts_conserved`**: a context is in the pool, with one send call, or in flight, once; each
  send that has taken a context gives it back once, or still has it; and one that has it can be
  brought to give it back.
-/

namespace RealtimeServer

open Guarded

/-- `IOContext*`. -/
abbrev ContextRef := ℕ

/-- Which send it is. -/
inductive SendKind
  | internal | raw | shared
  deriving DecidableEq

/-- Where a send is. -/
inductive Sending
  /-- At `IsDisconnected`, with a packet of this size. -/
  | entering (kind : SendKind) (totalSize : ℕ)
  | allocating (kind : SendKind)
  /-- Putting the packet into its context. -/
  | filling (kind : SendKind) (ctx : ContextRef)
  /-- In `PostSend`, at `IsDisconnected`. -/
  | postSend (ctx : ContextRef)
  /-- In `PostSend`, at `WSASend`. -/
  | wsaSend (ctx : ContextRef)
  /-- About to give the context back, and then to disconnect if `WSASend` failed. -/
  | deallocating (ctx : ContextRef) (failed : Bool)
  | disconnecting
  /-- The call has returned; its `WSASend` is under way. -/
  | underWay (ctx : ContextRef)
  /-- A worker has its completion. -/
  | completed (ctx : ContextRef) (success : Bool)
  /-- The worker is about to give the context back. -/
  | completing (ctx : ContextRef)
  | through
  deriving DecidableEq

namespace Sending

/-- The context it has. -/
def context : Sending → Option ContextRef
  | filling _ ctx | postSend ctx | wsaSend ctx | deallocating ctx _ => some ctx
  | underWay ctx | completed ctx _ | completing ctx => some ctx
  | entering .. | allocating _ | disconnecting | through => none

/-- The context is in the hands of the send call. -/
def heldBySend (ctx : ContextRef) : Sending → Bool
  | filling _ c | postSend c | wsaSend c | deallocating c _ => c = ctx
  | _ => false

/-- It is in flight: its `WSASend` is under way, or its completion is being handled. -/
def inFlight (ctx : ContextRef) : Sending → Bool
  | underWay c | completed c _ | completing c => c = ctx
  | _ => false

/-- It has not been to the pool. -/
def early : Sending → Bool
  | entering .. | allocating _ => true
  | _ => false

end Sending

/-- A send. -/
structure SendOp where
  session : SessionRef
  stage : Sending
  deriving DecidableEq

/-- What a send does with the pool. -/
inductive PoolEvent
  | allocate (ctx : ContextRef)
  | deallocate (ctx : ContextRef)
  deriving DecidableEq

/-- `g_ioContextPool`, the sends, and the flags they look at. -/
structure IoContexts where
  /-- `m_pool`. -/
  free : List ContextRef
  /-- How many contexts there are; the next one made has this number. -/
  made : ℕ
  /-- `IOContext::session`. -/
  owner : ContextRef → Option SessionRef
  ops : List SendOp
  disconnected : SessionRef → Bool
  /-- What each send did with the pool; no thread reads it. -/
  log : List (ℕ × PoolEvent)

/-- What happens next. -/
inductive IoAction
  /-- A send is called. -/
  | send (session : SessionRef) (kind : SendKind) (totalSize : ℕ)
  /-- It goes on; `answer` is what `SerializeToArray` returns, whether `WSASend` is under way, or
  whether the completion is a success. -/
  | goOn (k : ℕ) (answer : Bool)
  /-- The session is disconnected by another thread. -/
  | disconnect (session : SessionRef)
  deriving DecidableEq

namespace IoContexts

def start : IoContexts :=
  { free := []
    made := 0
    owner := fun _ => none
    ops := []
    disconnected := fun _ => false
    log := [] }

section

variable (k : ℕ) (op : SendOp) (st : IoContexts)

/-- The send comes to here. -/
def become (stage : Sending) : IoContexts :=
  { st with ops := st.ops.set k { op with stage := stage } }

/-- `Disconnect`. -/
def disconnect (session : SessionRef) : IoContexts :=
  { st with disconnected := Function.update st.disconnected session true }

/-- `ObjectPool::Allocate`: `Reset`, or the constructor, makes the session the owner. -/
def allocate (kind : SendKind) : IoContexts :=
  let (ctx, free, made) := match st.free with
    | [] => (st.made, [], st.made + 1)
    | ctx :: free => (ctx, free, st.made)
  { st.become k op (.filling kind ctx) with
    free := free
    made := made
    owner := Function.update st.owner ctx (some op.session)
    log := st.log ++ [(k, .allocate ctx)] }

/-- `ObjectPool::Deallocate`. -/
def deallocate (ctx : ContextRef) (stage : Sending) : IoContexts :=
  { st.become k op stage with
    free := st.free ++ [ctx]
    log := st.log ++ [(k, .deallocate ctx)] }

/-- A send goes on. -/
def goOn (answer : Bool) : Option IoContexts :=
  match op.stage with
  | .entering kind totalSize =>
    if st.disconnected op.session then some (st.become k op .through)
    else if kind ≠ .shared ∧ maxBufSize < totalSize then some (st.become k op .through)
    else some (st.become k op (.allocating kind))
  | .allocating kind => some (st.allocate k op kind)
  | .filling kind ctx =>
    if kind = .internal ∧ answer = false then some (st.become k op (.deallocating ctx false))
    else some (st.become k op (.postSend ctx))
  | .postSend ctx =>
    if st.disconnected op.session then some (st.become k op (.deallocating ctx false))
    else some (st.become k op (.wsaSend ctx))
  | .wsaSend ctx =>
    if answer then some (st.become k op (.underWay ctx))
    else some (st.become k op (.deallocating ctx true))
  | .deallocating ctx failed =>
    some (st.deallocate k op ctx (if failed then .disconnecting else .through))
  | .disconnecting => some ((st.disconnect op.session).become k op .through)
  | .underWay ctx => some (st.become k op (.completed ctx answer))
  | .completed ctx success =>
    let st := if success then st else st.disconnect op.session
    some (st.become k op (.completing ctx))
  | .completing ctx => some (st.deallocate k op ctx .through)
  | .through => none

end

end IoContexts

/-- One step. -/
def ioNext (st : IoContexts) : IoAction → Option IoContexts
  | .send session kind totalSize =>
    some { st with ops := st.ops ++ [⟨session, .entering kind totalSize⟩] }
  | .goOn k answer => (st.ops[k]?).bind fun op => st.goOn k op answer
  | .disconnect session => some (st.disconnect session)

/-! ## What a step does with a context -/

/-- What a step does to the pool and to the sends. -/
inductive IoActs (st st' : IoContexts) : Prop
  /-- A send is called. -/
  | called (op : SendOp) (early : op.stage.early = true) (ops : st'.ops = st.ops ++ [op])
      (free : st'.free = st.free) (made : st'.made = st.made) (log : st'.log = st.log)
      (owner : st'.owner = st.owner)
  /-- One goes on with what it has, or nobody does. -/
  | moved (k : ℕ) (op : SendOp) (stage : Sending) (thread : st.ops[k]? = some op)
      (context : stage.context = op.stage.context)
      (early : stage.early = true → op.stage.early = true)
      (ops : st'.ops = st.ops.set k { op with stage := stage })
      (free : st'.free = st.free) (made : st'.made = st.made) (log : st'.log = st.log)
      (owner : st'.owner = st.owner)
  | stood (ops : st'.ops = st.ops) (free : st'.free = st.free) (made : st'.made = st.made)
      (log : st'.log = st.log) (owner : st'.owner = st.owner)
  /-- It takes a context that was free, or a new one. -/
  | allocated (k : ℕ) (op : SendOp) (stage : Sending) (ctx : ContextRef)
      (thread : st.ops[k]? = some op) (none : op.stage.context = none)
      (early : op.stage.early = true) (context : stage.context = some ctx)
      (late : stage.early = false) (ops : st'.ops = st.ops.set k { op with stage := stage })
      (pool : (st.free = ctx :: st'.free ∧ st'.made = st.made) ∨
        (st.free = [] ∧ st'.free = [] ∧ ctx = st.made ∧ st'.made = st.made + 1))
      (log : st'.log = st.log ++ [(k, .allocate ctx)])
      (owner : st'.owner = Function.update st.owner ctx (some op.session))
  /-- It gives its context back. -/
  | deallocated (k : ℕ) (op : SendOp) (stage : Sending) (ctx : ContextRef)
      (thread : st.ops[k]? = some op) (context : op.stage.context = some ctx)
      (none : stage.context = none) (late : stage.early = false)
      (ops : st'.ops = st.ops.set k { op with stage := stage })
      (free : st'.free = st.free ++ [ctx]) (made : st'.made = st.made)
      (log : st'.log = st.log ++ [(k, .deallocate ctx)]) (owner : st'.owner = st.owner)

section

variable {st st' : IoContexts} {action : IoAction}

theorem ioActs_allocate {k : ℕ} {op : SendOp} {kind : SendKind} (hop : st.ops[k]? = some op)
    (hstage : op.stage = .allocating kind) : IoActs st (st.allocate k op kind) := by
  have hnone : op.stage.context = none := by
    rw [hstage]
    rfl
  have hearly : op.stage.early = true := by
    rw [hstage]
    rfl
  cases hfree : st.free with
  | nil =>
    refine .allocated k op (.filling kind st.made) st.made hop hnone hearly rfl rfl ?_ ?_ ?_ ?_
    · simp [IoContexts.allocate, hfree, IoContexts.become]
    · exact Or.inr (by simp [IoContexts.allocate, hfree])
    · simp [IoContexts.allocate, hfree]
    · simp [IoContexts.allocate, hfree]
  | cons ctx free =>
    refine .allocated k op (.filling kind ctx) ctx hop hnone hearly rfl rfl ?_ ?_ ?_ ?_
    · simp [IoContexts.allocate, hfree, IoContexts.become]
    · exact Or.inl (by simp [IoContexts.allocate, hfree])
    · simp [IoContexts.allocate, hfree]
    · simp [IoContexts.allocate, hfree]

theorem ioActs_become {k : ℕ} {op : SendOp} {stage : Sending} (hop : st.ops[k]? = some op)
    (hcontext : stage.context = op.stage.context)
    (hearly : stage.early = true → op.stage.early = true) : IoActs st (st.become k op stage) :=
  .moved k op stage hop hcontext hearly rfl rfl rfl rfl rfl

theorem ioActs_deallocate {k : ℕ} {op : SendOp} {ctx : ContextRef} {stage : Sending}
    (hop : st.ops[k]? = some op) (hcontext : op.stage.context = some ctx)
    (hnone : stage.context = none) (hlate : stage.early = false) :
    IoActs st (st.deallocate k op ctx stage) :=
  .deallocated k op stage ctx hop hcontext hnone hlate rfl rfl rfl rfl rfl

theorem ioActs_goOn {k : ℕ} {op : SendOp} {answer : Bool} (hop : st.ops[k]? = some op)
    (h : st.goOn k op answer = some st') : IoActs st st' := by
  obtain ⟨session, stage⟩ := op
  cases stage with
  | entering kind totalSize =>
    change (if st.disconnected session then _ else _) = some st' at h
    split at h
    · exact Option.some.inj h ▸ ioActs_become hop rfl fun _ => rfl
    · split at h
      · exact Option.some.inj h ▸ ioActs_become hop rfl fun _ => rfl
      · exact Option.some.inj h ▸ ioActs_become hop rfl fun _ => rfl
  | allocating kind => exact Option.some.inj h ▸ ioActs_allocate hop rfl
  | filling kind ctx =>
    change (if kind = .internal ∧ answer = false then _ else _) = some st' at h
    split at h
    · exact Option.some.inj h ▸ ioActs_become hop rfl id
    · exact Option.some.inj h ▸ ioActs_become hop rfl id
  | postSend ctx =>
    change (if st.disconnected session then _ else _) = some st' at h
    split at h
    · exact Option.some.inj h ▸ ioActs_become hop rfl id
    · exact Option.some.inj h ▸ ioActs_become hop rfl id
  | wsaSend ctx =>
    change (if answer then _ else _) = some st' at h
    split at h
    · exact Option.some.inj h ▸ ioActs_become hop rfl id
    · exact Option.some.inj h ▸ ioActs_become hop rfl id
  | deallocating ctx failed =>
    refine Option.some.inj h ▸ ioActs_deallocate hop rfl ?_ ?_
    · cases failed <;> rfl
    · cases failed <;> rfl
  | disconnecting =>
    obtain rfl := Option.some.inj h
    exact .moved k _ .through hop rfl (fun hearly => absurd hearly (by decide)) rfl rfl rfl rfl rfl
  | underWay ctx => exact Option.some.inj h ▸ ioActs_become hop rfl id
  | completed ctx success =>
    obtain rfl := Option.some.inj h
    cases success with
    | false => exact .moved k _ (.completing ctx) hop rfl id rfl rfl rfl rfl rfl
    | true => exact .moved k _ (.completing ctx) hop rfl id rfl rfl rfl rfl rfl
  | completing ctx => exact Option.some.inj h ▸ ioActs_deallocate hop rfl rfl rfl
  | through => exact absurd h (by simp [IoContexts.goOn])

/-- **What a step does with a context.** -/
theorem ioActs_next (h : ioNext st action = some st') : IoActs st st' := by
  cases action with
  | send session kind totalSize =>
    obtain rfl := Option.some.inj h
    exact .called ⟨session, .entering kind totalSize⟩ rfl rfl rfl rfl rfl rfl
  | goOn k answer =>
    obtain ⟨op, hop, hgoes⟩ := Option.bind_eq_some_iff.mp h
    exact ioActs_goOn hop hgoes
  | disconnect session =>
    obtain rfl := Option.some.inj h
    exact .stood rfl rfl rfl rfl rfl

/-! ## Every context is in one place -/

/-- The send has this context. -/
def SendOp.has (ctx : ContextRef) (op : SendOp) : Bool := op.stage.context = some ctx

/-- A context is with its one send call, or in flight, or it has none. -/
theorem has_eq (ctx : ContextRef) (op : SendOp) :
    (op.has ctx).toNat = (op.stage.heldBySend ctx).toNat + (op.stage.inFlight ctx).toNat := by
  obtain ⟨session, stage⟩ := op
  cases stage <;> simp [SendOp.has, Sending.context, Sending.heldBySend, Sending.inFlight]

theorem countP_has (ctx : ContextRef) (ops : List SendOp) :
    ops.countP (SendOp.has ctx) = ops.countP (fun op => op.stage.heldBySend ctx) +
      ops.countP (fun op => op.stage.inFlight ctx) := by
  induction ops with
  | nil => rfl
  | cons op ops ih =>
    have hop := has_eq ctx op
    simp only [List.countP_cons, ← Tally.toNat_eq_ite]
    omega

/-- **The invariant of a context**: one that was made is in the pool, or with one send. -/
def OnePlace (st : IoContexts) (ctx : ContextRef) : Prop :=
  st.free.count ctx + st.ops.countP (SendOp.has ctx) = if ctx < st.made then 1 else 0

theorem Sending.context_of_early {stage : Sending} (h : stage.early = true) :
    stage.context = none := by
  cases stage <;> first | rfl | exact absurd h (by simp [Sending.early])

theorem SendOp.has_of_context {ctx c : ContextRef} {op : SendOp} (h : op.stage.context = some c) :
    op.has ctx = decide (c = ctx) := by
  unfold SendOp.has
  rw [h]
  simp

theorem SendOp.has_of_none {ctx : ContextRef} {op : SendOp} (h : op.stage.context = none) :
    op.has ctx = false := by
  unfold SendOp.has
  rw [h]
  rfl

/-- The pool hands out a context it has, or one more is made. -/
theorem count_allocated {c ctx : ContextRef}
    (h : (st.free = c :: st'.free ∧ st'.made = st.made) ∨
      (st.free = [] ∧ st'.free = [] ∧ c = st.made ∧ st'.made = st.made + 1)) :
    st'.free.count ctx + (decide (c = ctx)).toNat + (if ctx < st.made then 1 else 0) =
      st.free.count ctx + (if ctx < st'.made then 1 else 0) := by
  rcases h with ⟨hfree, hmade⟩ | ⟨hnone, hfree, rfl, hmade⟩
  · rw [hfree, hmade, List.count_cons, Tally.toNat_eq_ite]
    simp only [decide_eq_true_eq, beq_iff_eq]
  · have hnew : ∀ m n : ℕ, 0 + (if m = n then 1 else 0) + (if n < m then 1 else 0) =
        0 + if n < m + 1 then 1 else 0 := by
      intro m n
      split_ifs <;> omega
    rw [hnone, hfree, hmade, List.count_nil, Tally.toNat_eq_ite]
    simp only [decide_eq_true_eq]
    exact hnew st.made ctx

theorem onePlace_next {ctx : ContextRef} (h : OnePlace st ctx)
    (hnext : ioNext st action = some st') : OnePlace st' ctx := by
  unfold OnePlace at h ⊢
  cases ioActs_next hnext with
  | called op early ops free made log owner =>
    rw [ops, free, made, List.countP_append, List.countP_singleton,
      SendOp.has_of_none (Sending.context_of_early early)]
    exact h
  | stood ops free made log owner =>
    rw [ops, free, made]
    exact h
  | moved k op stage thread context early ops free made log owner =>
    have hcount := Tally.countP_set_add (SendOp.has ctx) thread { op with stage := stage }
    have hsame : SendOp.has ctx { op with stage := stage } = op.has ctx := by
      unfold SendOp.has
      rw [context]
    rw [hsame] at hcount
    rw [ops, free, made, Nat.add_right_cancel hcount]
    exact h
  | allocated k op stage c thread none early context late ops pool log owner =>
    have hcount := Tally.countP_set_add (SendOp.has ctx) thread { op with stage := stage }
    have hhas : SendOp.has ctx { op with stage := stage } = decide (c = ctx) :=
      SendOp.has_of_context context
    rw [SendOp.has_of_none none, hhas] at hcount
    have hpool := @count_allocated _ _ _ ctx pool
    rw [ops]
    simp only [Bool.toNat_false] at hcount
    omega
  | deallocated k op stage c thread context none late ops free made log owner =>
    have hcount := Tally.countP_set_add (SendOp.has ctx) thread { op with stage := stage }
    have hhas : SendOp.has ctx { op with stage := stage } = false := SendOp.has_of_none none
    rw [SendOp.has_of_context context, hhas] at hcount
    rw [ops, free, made, List.count_append, List.count_singleton]
    by_cases hc : c = ctx
    · subst hc
      simp only [decide_true, Bool.toNat_true, Bool.toNat_false] at hcount
      simp only [beq_self_eq_true, if_true]
      omega
    · simp only [hc, decide_false, Bool.toNat_false] at hcount
      simp only [beq_iff_eq, hc, if_false]
      omega

/-! ## What a send takes it gives back -/

/-- The `k`-th send, if it has been called, has this property. -/
def SomeOp (p : SendOp → Bool) (ops : List SendOp) (k : ℕ) : Bool := (ops[k]?).any p

theorem someOp_set {p : SendOp → Bool} {ops : List SendOp} {j k : ℕ} {old new : SendOp}
    (hold : ops[j]? = some old) :
    SomeOp p (ops.set j new) k = if k = j then p new else SomeOp p ops k := by
  obtain ⟨hj, -⟩ := List.getElem?_eq_some_iff.mp hold
  unfold SomeOp
  by_cases hk : k = j
  · subst hk
    rw [if_pos rfl, List.getElem?_set_self hj]
    rfl
  · rw [if_neg hk, List.getElem?_set_ne (Ne.symm hk)]

theorem someOp_append {p : SendOp → Bool} {ops : List SendOp} {k : ℕ} {op : SendOp}
    (hop : p op = false) : SomeOp p (ops ++ [op]) k = SomeOp p ops k := by
  unfold SomeOp
  rw [List.getElem?_append]
  split
  · rfl
  · rename_i hlen
    rw [List.getElem?_eq_none (not_lt.mp hlen)]
    cases k - ops.length with
    | zero => exact hop
    | succ n => rfl

theorem someOp_of_get {p : SendOp → Bool} {ops : List SendOp} {k : ℕ} {op : SendOp}
    (hop : ops[k]? = some op) : SomeOp p ops k = p op := by
  unfold SomeOp
  rw [hop]
  rfl

/-- It takes a context. -/
def PoolEvent.takes : PoolEvent → Bool
  | allocate _ => true
  | deallocate _ => false

/-- **The invariant of a send**: it takes one context, once it is past its tests, and gives back
what it has taken or still has it. -/
structure Returns (st : IoContexts) (k : ℕ) : Prop where
  given : ∀ ctx, st.log.count (k, .deallocate ctx) + (SomeOp (SendOp.has ctx) st.ops k).toNat =
    st.log.count (k, .allocate ctx)
  once : st.log.countP (fun entry => entry.1 = k ∧ entry.2.takes) ≤
    (SomeOp (fun op => !op.stage.early) st.ops k).toNat

/-- A step of another send. -/
theorem returns_other {j k : ℕ} {op new : SendOp} {events : List (ℕ × PoolEvent)}
    (h : Returns st k) (hk : k ≠ j) (thread : st.ops[j]? = some op)
    (ops : st'.ops = st.ops.set j new) (log : st'.log = st.log ++ events)
    (hevents : ∀ entry ∈ events, entry.1 = j) : Returns st' k := by
  have hcount : ∀ event, events.count (k, event) = 0 := by
    intro event
    exact List.count_eq_zero.mpr fun hmem => hk (hevents _ hmem)
  have htakes : events.countP (fun entry => entry.1 = k ∧ entry.2.takes) = 0 := by
    refine List.countP_eq_zero.mpr fun entry hmem hentry => ?_
    exact hk ((of_decide_eq_true hentry).1.symm.trans (hevents entry hmem))
  constructor
  · intro ctx
    rw [ops, log, someOp_set thread, if_neg hk, List.count_append, List.count_append, hcount,
      hcount]
    exact h.given ctx
  · rw [ops, log, someOp_set thread, if_neg hk, List.countP_append, htakes]
    exact h.once

theorem returns_next {k : ℕ} (h : Returns st k) (hnext : ioNext st action = some st') :
    Returns st' k := by
  cases ioActs_next hnext with
  | called op early ops free made log owner =>
    refine ⟨fun ctx => ?_, ?_⟩
    · rw [ops, log, someOp_append (SendOp.has_of_none (Sending.context_of_early early))]
      exact h.given ctx
    · rw [ops, log, someOp_append (by simp [early])]
      exact h.once
  | stood ops free made log owner =>
    refine ⟨fun ctx => ?_, ?_⟩
    · rw [ops, log]
      exact h.given ctx
    · rw [ops, log]
      exact h.once
  | moved j op stage thread context early ops free made log owner =>
    by_cases hk : k = j
    · subst hk
      refine ⟨fun ctx => ?_, ?_⟩
      · have hgiven := h.given ctx
        have hsame : SendOp.has ctx { op with stage := stage } = SendOp.has ctx op := by
          unfold SendOp.has
          rw [context]
        rw [someOp_of_get thread] at hgiven
        rw [ops, log, someOp_set thread, if_pos rfl, hsame]
        exact hgiven
      · have honce := h.once
        rw [someOp_of_get thread] at honce
        rw [ops, log, someOp_set thread, if_pos rfl]
        refine honce.trans ?_
        cases hearly : stage.early with
        | true => simp [early hearly]
        | false => exact Bool.toNat_le _
    · exact returns_other h hk thread ops (log.trans (List.append_nil _).symm) (by simp)
  | allocated j op stage c thread none early context late ops pool log owner =>
    by_cases hk : k = j
    · subst hk
      refine ⟨fun ctx => ?_, ?_⟩
      · have hgiven := h.given ctx
        rw [someOp_of_get thread, SendOp.has_of_none none] at hgiven
        have hhas : SendOp.has ctx { op with stage := stage } = decide (c = ctx) :=
          SendOp.has_of_context context
        rw [ops, log, someOp_set thread, if_pos rfl, List.count_append, List.count_append, hhas,
          List.count_singleton, List.count_singleton]
        by_cases hc : c = ctx
        · subst hc
          simpa using hgiven
        · simpa [hc] using hgiven
      · have honce := h.once
        rw [someOp_of_get thread, early] at honce
        rw [ops, log, someOp_set thread, if_pos rfl, List.countP_append]
        simp only [late, Bool.not_true, Bool.toNat_false, Bool.not_false, Bool.toNat_true] at *
        rw [Nat.le_zero.mp honce]
        simp [PoolEvent.takes]
    · exact returns_other h hk thread ops log (by simp)
  | deallocated j op stage c thread context none late ops free made log owner =>
    by_cases hk : k = j
    · subst hk
      refine ⟨fun ctx => ?_, ?_⟩
      · have hgiven := h.given ctx
        rw [someOp_of_get thread, SendOp.has_of_context context] at hgiven
        have hhas : SendOp.has ctx { op with stage := stage } = false := SendOp.has_of_none none
        rw [ops, log, someOp_set thread, if_pos rfl, List.count_append, List.count_append, hhas,
          List.count_singleton, List.count_singleton]
        by_cases hc : c = ctx
        · subst hc
          simpa using hgiven
        · simpa [hc] using hgiven
      · rw [ops, log, someOp_set thread, if_pos rfl, List.countP_append]
        have honce := h.once.trans (Bool.toNat_le _)
        simpa [late, PoolEvent.takes] using honce
    · exact returns_other h hk thread ops log (by simp)

/-! ## A send that has a context can go on -/

/-- How far a send is from giving its context back. -/
def Sending.rest : Sending → ℕ
  | filling .. => 6
  | postSend _ => 5
  | wsaSend _ => 4
  | underWay _ => 3
  | completed .. => 2
  | completing _ | deallocating .. => 1
  | _ => 0

/-- A step brings a send closer to giving its context back, or there. -/
theorem goes_on {k : ℕ} {op : SendOp} {ctx : ContextRef} (hop : st.ops[k]? = some op)
    (hctx : op.stage.context = some ctx) :
    ∃ st', ioNext st (.goOn k true) = some st' ∧ (ctx ∈ st'.free ∨
      ∃ op', st'.ops[k]? = some op' ∧ op'.stage.context = some ctx ∧
        op'.stage.rest < op.stage.rest) := by
  obtain ⟨hk, -⟩ := List.getElem?_eq_some_iff.mp hop
  obtain ⟨session, stage⟩ := op
  have hgoes : ∀ stage' : Sending, stage'.context = some ctx → stage'.rest < stage.rest →
      st.goOn k ⟨session, stage⟩ true = some (st.become k ⟨session, stage⟩ stage') →
      ∃ st', ioNext st (.goOn k true) = some st' ∧ (ctx ∈ st'.free ∨
        ∃ op', st'.ops[k]? = some op' ∧ op'.stage.context = some ctx ∧
          op'.stage.rest < stage.rest) := by
    intro stage' hcontext hrest hstep
    refine ⟨_, (congrArg (Option.bind · _) hop).trans hstep, Or.inr ⟨⟨session, stage'⟩, ?_,
      hcontext, hrest⟩⟩
    exact List.getElem?_set_self hk
  have hgives : ∀ stage', st.goOn k ⟨session, stage⟩ true =
      some (st.deallocate k ⟨session, stage⟩ ctx stage') →
      ∃ st', ioNext st (.goOn k true) = some st' ∧ (ctx ∈ st'.free ∨
        ∃ op', st'.ops[k]? = some op' ∧ op'.stage.context = some ctx ∧
          op'.stage.rest < stage.rest) := by
    intro stage' hstep
    refine ⟨_, (congrArg (Option.bind · _) hop).trans hstep, Or.inl ?_⟩
    exact List.mem_append_right _ (List.mem_singleton_self ctx)
  cases stage with
  | filling kind c =>
    obtain rfl := Option.some.inj hctx
    exact hgoes (.postSend c) rfl (by simp [Sending.rest]) (by simp [IoContexts.goOn])
  | postSend c =>
    obtain rfl := Option.some.inj hctx
    cases hdown : st.disconnected session with
    | true =>
      exact hgoes (.deallocating c false) rfl (by simp [Sending.rest])
        (by simp [IoContexts.goOn, hdown])
    | false =>
      exact hgoes (.wsaSend c) rfl (by simp [Sending.rest]) (by simp [IoContexts.goOn, hdown])
  | wsaSend c =>
    obtain rfl := Option.some.inj hctx
    exact hgoes (.underWay c) rfl (by simp [Sending.rest]) (by simp [IoContexts.goOn])
  | deallocating c failed =>
    obtain rfl := Option.some.inj hctx
    exact hgives _ rfl
  | underWay c =>
    obtain rfl := Option.some.inj hctx
    exact hgoes (.completed c true) rfl (by simp [Sending.rest]) rfl
  | completed c success =>
    obtain rfl := Option.some.inj hctx
    cases success with
    | true => exact hgoes (.completing c) rfl (by simp [Sending.rest]) rfl
    | false =>
      refine ⟨_, congrArg (Option.bind · _) hop, Or.inr ⟨⟨session, .completing c⟩, ?_, rfl, ?_⟩⟩
      · exact List.getElem?_set_self hk
      · simp [Sending.rest]
  | completing c =>
    obtain rfl := Option.some.inj hctx
    exact hgives _ rfl
  | _ => exact absurd hctx (by simp [Sending.context])

theorem comes_back {k : ℕ} {op : SendOp} {ctx : ContextRef} (hop : st.ops[k]? = some op)
    (hctx : op.stage.context = some ctx) :
    ∃ more st', run ioNext st more = some st' ∧ ctx ∈ st'.free := by
  generalize hn : op.stage.rest = n
  induction n using Nat.strong_induction_on generalizing st op with
  | _ n ih =>
    obtain ⟨st', hnext, hfree | ⟨op', hop', hctx', hrest⟩⟩ := goes_on hop hctx
    · refine ⟨[.goOn k true], st', ?_, hfree⟩
      rw [run, hnext]
      rfl
    · obtain ⟨more, st'', hrun, hfree⟩ := ih op'.stage.rest (hn ▸ hrest) hop' hctx' rfl
      refine ⟨.goOn k true :: more, st'', ?_, hfree⟩
      rw [run, hnext]
      exact hrun

/-! ## Runs -/

/-- **Every context in one place, and given back once**: in every run of sends on any sessions, with
any failures and disconnects,
* a context that was made is in the pool, held by a send call, or in flight: in one of them, once;
* a send takes at most one context, and gives every context back as often as it has taken it, but
  for the one it still has;
* and a send that has a context can be brought to give it back. -/
theorem contexts_conserved {steps : List IoAction}
    (hrun : run ioNext .start steps = some st) :
    (∀ ctx, st.free.count ctx + st.ops.countP (fun op => op.stage.heldBySend ctx) +
        st.ops.countP (fun op => op.stage.inFlight ctx) = if ctx < st.made then 1 else 0) ∧
      (∀ k, st.log.countP (fun entry => entry.1 = k ∧ entry.2.takes) ≤ 1 ∧
        ∀ ctx, st.log.count (k, .deallocate ctx) + (SomeOp (SendOp.has ctx) st.ops k).toNat =
          st.log.count (k, .allocate ctx)) ∧
      ∀ (k : ℕ) op ctx, st.ops[k]? = some op → op.stage.context = some ctx →
        ∃ more st', run ioNext st more = some st' ∧ ctx ∈ st'.free := by
  refine ⟨fun ctx => ?_, fun k => ?_, fun k op ctx hop hctx => comes_back hop hctx⟩
  · have hstart : OnePlace .start ctx := by simp [OnePlace, IoContexts.start]
    have hplaced : OnePlace st ctx := run_preserves (I := fun st => OnePlace st ctx)
      (fun _ _ _ h hnext => onePlace_next h hnext) hstart hrun
    unfold OnePlace at hplaced
    rw [countP_has, ← Nat.add_assoc] at hplaced
    exact hplaced
  · have hreturns : Returns st k := by
      refine run_preserves (I := fun st => Returns st k)
        (fun _ _ _ h hnext => returns_next h hnext) ⟨fun ctx => rfl, Nat.zero_le _⟩ hrun
    exact ⟨hreturns.once.trans (Bool.toNat_le _), hreturns.given⟩

/-- Two sends, of which one fails at its completion; then a third, to which the context comes. -/
def threeSends : List IoAction :=
  ([[.send 0 .raw 9, .send 1 .internal 20], List.replicate 5 (.goOn 0 true),
    List.replicate 5 (.goOn 1 true),
    [.goOn 0 false, .goOn 0 true, .goOn 0 true, .send 1 .shared 30],
    List.replicate 2 (.goOn 2 true)] : List (List IoAction)).flatten

theorem contexts_threeSends :
    ∃ st, run ioNext .start threeSends = some st ∧ st.made = 2 ∧
      st.free.count 0 + st.ops.countP (fun op => op.stage.heldBySend 0) +
        st.ops.countP (fun op => op.stage.inFlight 0) = 1 := by
  obtain ⟨st, hrun, hmade⟩ : ∃ st, run ioNext .start threeSends = some st ∧ st.made = 2 := by
    decide +kernel
  refine ⟨st, hrun, hmade, ((contexts_conserved hrun).1 0).trans ?_⟩
  rw [hmade]
  rfl

end

end RealtimeServer
