import RealtimeServer.Core.IoContexts
import RealtimeServer.Core.Steps

/-!
# Who holds a session

Model of the strong references to a session: `Init`, `IOContext` and `~ServerSession`
(`Core/ServerSession.h`, `Core/ServerSession.cpp`) over the server, and over the contexts of its
sends. A session is held by `SessionManager`, by the rooms it is a member of, by the queued jobs and
the auth callbacks that captured it, by its own receive context, and by the contexts of sends that
were made for it, in flight or in the pool. It is destroyed once nobody holds it. A thread's own
`shared_ptr` does not outlive the step.

* `held_next`: what a step keeps.
* **`recvContext_kept`**: `m_recvContext` holds its session, and only the session frees it; no
  session is ever destroyed.
-/

namespace RealtimeServer

open Guarded Unordered

/-- A session that was constructed and went through `Init`. -/
inductive SessionObject
  | accepted (s : SessionRef)
  /-- Refused by the connection policy. -/
  | refused (n : ℕ)
  /-- `CreateIoCompletionPort` failed. -/
  | unbound (n : ℕ)
  deriving DecidableEq

/-- What has a `shared_ptr` to a session. -/
inductive Holder
  | sessionManager
  | member (r : RoomRef)
  | queuedJob (r : RoomRef) (job : Job)
  | authCallback (token : Bytes)
  /-- The `m_recvContext` of this session. -/
  | recvContext (x : SessionObject)
  /-- A context made for sends. -/
  | sendContext (ctx : ContextRef)
  deriving DecidableEq

/-- The server, the contexts of its sends, and the sessions as objects. -/
structure Holding where
  server : Server
  io : IoContexts
  /-- The sessions that went through `Init`. -/
  initialised : List SessionObject
  /-- Each `m_recvContext` there is: the session it belongs to, and the one it names. -/
  recvContexts : List (SessionObject × SessionObject)
  /-- The sessions with a receive under way. -/
  receiving : List SessionRef
  /-- The sessions whose destructor has run. -/
  destroyed : List SessionObject

/-- What happens next. -/
inductive HoldAction
  /-- A step of the server. -/
  | server (step : Action × Env)
  /-- `HandleAcceptCompletion` gets no port for the new session's socket. -/
  | portFails
  /-- A send is called, or goes on. -/
  | io (action : IoAction)
  | postRecv (s : SessionRef)
  | recvCompletes (s : SessionRef)
  /-- `~ServerSession`. -/
  | destroy (x : SessionObject)

namespace Holding

def start : Holding :=
  { server := .empty
    io := .start
    initialised := []
    recvContexts := []
    receiving := []
    destroyed := [] }

section

variable (st : Holding)

/-- The references in the map of sessions. -/
def registered : List (Holder × SessionObject) :=
  st.server.sessionManager.sessions.values.map fun s => (.sessionManager, .accepted s)

/-- Those of a room: its members, and the jobs it has queued. -/
def inRoom (r : RoomRef) : List (Holder × SessionObject) :=
  let members : List (Holder × SessionObject) :=
    (st.server.room r).members.elems.map fun s => (.member r, .accepted s)
  let queued : List (Holder × SessionObject) :=
    (st.server.room r).jobQueue.filterMap fun job =>
      job.session.map fun s => (.queuedJob r job, .accepted s)
  members ++ queued

/-- Those of all rooms. -/
def inRooms : List (Holder × SessionObject) := st.server.rooms.rooms.values.flatMap st.inRoom

/-- Those the callbacks of the logins captured. -/
def inCallbacks : List (Holder × SessionObject) :=
  st.server.auth.map fun e => (.authCallback e.2, .accepted e.1)

/-- Those of the contexts of the receives. -/
def inReceives : List (Holder × SessionObject) :=
  st.recvContexts.map fun e => (.recvContext e.1, e.2)

/-- Those of the contexts of the sends. -/
def inSends : List (Holder × SessionObject) :=
  (List.range st.io.made).filterMap fun ctx =>
    (st.io.owner ctx).map fun s => (.sendContext ctx, .accepted s)

/-- Every strong reference there is, with what has it. -/
def references : List (Holder × SessionObject) :=
  st.registered ++ st.inRooms ++ st.inCallbacks ++ st.inReceives ++ st.inSends

/-- What holds a session. -/
def holders (x : SessionObject) : List Holder :=
  (st.references.filter fun e => e.2 = x).map Prod.fst

/-- `Init`: the session makes its receive context, which names it. -/
def init (x : SessionObject) : Holding :=
  { st with
    initialised := st.initialised ++ [x]
    recvContexts := st.recvContexts ++ [(x, x)] }

/-- `~ServerSession`: `delete m_recvContext`. -/
def destroy (x : SessionObject) : Holding :=
  { st with
    recvContexts := st.recvContexts.filter fun e => e.1 ≠ x
    destroyed := st.destroyed ++ [x] }

/-- The contexts, with the flags as `IsDisconnected` reads them. -/
def seen : IoContexts :=
  { st.io with disconnected := fun s => (st.server.world.session s).disconnected }

/-- What a send that goes on does to the server: `Disconnect` where `WSASend` failed, and
`HandleDisconnect` where its completion is a failure. -/
def disconnects (op : SendOp) : Server :=
  match op.stage with
  | .disconnecting => { st.server with world := st.server.world.disconnect op.session }
  | .completed _ false => st.server.handleDisconnect op.session
  | _ => st.server

end

end Holding

/-- One step. The session of an accept goes through `Init` before it is let in or refused; `destroy`
is enabled once nothing holds the session. -/
def holdNext (cfg : Config) (st : Holding) : HoldAction → Option Holding
  | .server step =>
    (next cfg st.server step).map fun srv =>
      let st' := { st with server := srv }
      match step.1 with
      | .accept true => st'.init (.accepted st.server.nextSession)
      | .accept false => st'.init (.refused st.initialised.length)
      | _ => st'
  | .portFails => some (st.init (.unbound st.initialised.length))
  | .io (.send session kind totalSize) =>
    if session < st.server.nextSession then
      (ioNext st.seen (.send session kind totalSize)).map fun io => { st with io := io }
    else none
  | .io (.goOn k answer) =>
    (st.io.ops[k]?).bind fun op =>
      (ioNext st.seen (.goOn k answer)).map fun io =>
        { st with io := io, server := st.disconnects op }
  | .io (.disconnect _) => none
  | .postRecv s =>
    if s < st.server.nextSession ∧ ¬ st.server.Down s then
      some { st with receiving := s :: st.receiving }
    else none
  | .recvCompletes s =>
    if s ∈ st.receiving then some { st with receiving := st.receiving.erase s } else none
  | .destroy x =>
    if x ∈ st.initialised ∧ x ∉ st.destroyed ∧ st.holders x = [] then some (st.destroy x) else none

/-! ## What is left of a session -/

/-- The session is disconnected. -/
def Holding.Disconnected (st : Holding) : SessionObject → Prop
  | .accepted s => st.server.Down s
  | .refused _ => True
  | .unbound _ => False

instance (st : Holding) (x : SessionObject) : Decidable (st.Disconnected x) := by
  cases x <;> unfold Holding.Disconnected <;> infer_instance

/-- A send for the session has a context in its hands, or in flight. -/
def Holding.Sends (st : Holding) (x : SessionObject) : Prop :=
  ∃ op ∈ st.io.ops, .accepted op.session = x ∧ op.stage.context ≠ none

instance (st : Holding) (x : SessionObject) : Decidable (st.Sends x) := by
  unfold Holding.Sends
  infer_instance

/-- The holder is a context. -/
def Holder.isContext : Holder → Bool
  | recvContext _ | sendContext _ => true
  | sessionManager | member _ | queuedJob .. | authCallback _ => false

/-- The session is disconnected; neither `SessionManager`, nor a room, nor a queued job or callback
has it; and it has no I/O outstanding. -/
structure Abandoned (st : Holding) (x : SessionObject) : Prop where
  disconnected : st.Disconnected x
  dropped : ∀ holder ∈ st.holders x, holder.isContext = true
  receiving : ∀ s ∈ st.receiving, .accepted s ≠ x
  sending : ¬ st.Sends x

theorem abandoned_iff (st : Holding) (x : SessionObject) : Abandoned st x ↔ st.Disconnected x ∧
    (∀ holder ∈ st.holders x, holder.isContext = true) ∧
      (∀ s ∈ st.receiving, .accepted s ≠ x) ∧ ¬ st.Sends x := by
  constructor
  · rintro ⟨hdown, hdropped, hreceiving, hsending⟩
    exact ⟨hdown, hdropped, hreceiving, hsending⟩
  · rintro ⟨hdown, hdropped, hreceiving, hsending⟩
    exact ⟨hdown, hdropped, hreceiving, hsending⟩

instance (st : Holding) (x : SessionObject) : Decidable (Abandoned st x) :=
  decidable_of_iff _ (abandoned_iff st x).symm

section

variable {cfg : Config} {st st' : Holding} {x : SessionObject}

theorem mem_holders {holder : Holder} : holder ∈ st.holders x ↔ (holder, x) ∈ st.references := by
  unfold Holding.holders
  rw [List.mem_map]
  constructor
  · rintro ⟨⟨holder, y⟩, hmem, rfl⟩
    obtain ⟨hmem, hy⟩ := List.mem_filter.mp hmem
    rw [← of_decide_eq_true hy]
    exact hmem
  · intro hmem
    exact ⟨_, List.mem_filter.mpr ⟨hmem, decide_eq_true rfl⟩, rfl⟩

theorem recvContext_mem {y : SessionObject} :
    .recvContext y ∈ st.holders x ↔ (y, x) ∈ st.recvContexts := by
  rw [mem_holders]
  simp [Holding.references, Holding.registered, Holding.inRooms, Holding.inRoom,
    Holding.inCallbacks, Holding.inReceives, Holding.inSends]

theorem sendContext_mem {ctx : ContextRef} : .sendContext ctx ∈ st.holders x ↔
    ctx < st.io.made ∧ ∃ s, st.io.owner ctx = some s ∧ .accepted s = x := by
  rw [mem_holders]
  simp [Holding.references, Holding.registered, Holding.inRooms, Holding.inRoom,
    Holding.inCallbacks, Holding.inReceives, Holding.inSends]

/-! ## What a step keeps -/

/-- A context is the send's that has it. -/
def Owned (io : IoContexts) : Prop :=
  ∀ op ∈ io.ops, ∀ ctx, op.stage.context = some ctx → io.owner ctx = some op.session

/-- **The invariant of the references.** -/
structure Held (st : Holding) : Prop where
  /-- A receive context names the session it belongs to. -/
  own : ∀ e ∈ st.recvContexts, e.1 = e.2
  kept : ∀ x ∈ st.initialised, (x, x) ∈ st.recvContexts
  destroyed : st.destroyed = []
  placed : ∀ ctx, OnePlace st.io ctx
  owned : Owned st.io

/-- Nobody has a context that comes from the pool. -/
theorem unheld_of_pool {io io' : IoContexts} {ctx : ContextRef} (hplaced : OnePlace io ctx)
    (hpool : (io.free = ctx :: io'.free ∧ io'.made = io.made) ∨
      (io.free = [] ∧ io'.free = [] ∧ ctx = io.made ∧ io'.made = io.made + 1)) :
    ∀ op ∈ io.ops, op.stage.context ≠ some ctx := by
  intro op hop hctx
  have hhas : 0 < io.ops.countP (SendOp.has ctx) :=
    List.countP_pos_iff.mpr ⟨op, hop, decide_eq_true hctx⟩
  unfold OnePlace at hplaced
  rcases hpool with ⟨hfree, -⟩ | ⟨-, -, rfl, -⟩
  · rw [hfree, List.count_cons_self] at hplaced
    split at hplaced <;> omega
  · rw [if_neg (Nat.lt_irrefl _)] at hplaced
    omega

theorem owned_next {io io' : IoContexts} {action : IoAction} (hplaced : ∀ ctx, OnePlace io ctx)
    (h : Owned io) (hnext : ioNext io action = some io') : Owned io' := by
  unfold Owned at *
  cases ioActs_next hnext with
  | called op early ops free made log owner =>
    rw [ops, owner]
    intro op' hop' ctx hctx
    rcases List.mem_append.mp hop' with hold | hnew
    · exact h op' hold ctx hctx
    · rw [List.mem_singleton.mp hnew, Sending.context_of_early early] at hctx
      exact absurd hctx (by simp)
  | stood ops free made log owner =>
    rw [ops, owner]
    exact h
  | moved k op stage thread context early ops free made log owner =>
    rw [ops, owner]
    intro op' hop' ctx hctx
    rcases List.mem_or_eq_of_mem_set hop' with hold | rfl
    · exact h op' hold ctx hctx
    · exact h op (List.mem_of_getElem? thread) ctx (context ▸ hctx)
  | allocated k op stage c thread none early context late ops pool log owner =>
    have hunheld := unheld_of_pool (hplaced c) pool
    rw [ops, owner]
    intro op' hop' ctx hctx
    rcases List.mem_or_eq_of_mem_set hop' with hold | rfl
    · have hne : ctx ≠ c := fun heq => hunheld op' hold (heq ▸ hctx)
      rw [Function.update_of_ne hne]
      exact h op' hold ctx hctx
    · obtain rfl := Option.some.inj (context.symm.trans hctx)
      exact Function.update_self ..
  | deallocated k op stage c thread context none late ops free made log owner =>
    rw [ops, owner]
    intro op' hop' ctx hctx
    rcases List.mem_or_eq_of_mem_set hop' with hold | rfl
    · exact h op' hold ctx hctx
    · exact absurd (none.symm.trans hctx) (by simp)

theorem held_start : Held .start where
  own := fun _ h => absurd h List.not_mem_nil
  kept := fun _ h => absurd h List.not_mem_nil
  destroyed := rfl
  placed := fun ctx => by simp [OnePlace, Holding.start, IoContexts.start]
  owned := fun _ h => absurd h List.not_mem_nil

theorem held_init (h : Held st) (y : SessionObject) : Held (st.init y) where
  own := by
    intro e he
    rcases List.mem_append.mp he with hold | hnew
    · exact h.own e hold
    · rw [List.mem_singleton.mp hnew]
  kept := by
    intro x hx
    rcases List.mem_append.mp hx with hold | hnew
    · exact List.mem_append_left _ (h.kept x hold)
    · rw [List.mem_singleton.mp hnew]
      exact List.mem_append_right _ (List.mem_singleton_self _)
  destroyed := h.destroyed
  placed := h.placed
  owned := h.owned

theorem held_server (h : Held st) (srv : Server) : Held { st with server := srv } :=
  ⟨h.own, h.kept, h.destroyed, h.placed, h.owned⟩

theorem held_io (h : Held st) {action : IoAction} {io : IoContexts} (srv : Server)
    (hnext : ioNext st.seen action = some io) : Held { st with io := io, server := srv } where
  own := h.own
  kept := h.kept
  destroyed := h.destroyed
  placed := by
    intro ctx
    have hplaced : OnePlace st.seen ctx := h.placed ctx
    exact onePlace_next hplaced hnext
  owned := by
    have hplaced : ∀ ctx, OnePlace st.seen ctx := h.placed
    exact owned_next hplaced h.owned hnext

theorem held_next {action : HoldAction} (h : Held st) (hnext : holdNext cfg st action = some st') :
    Held st' := by
  cases action with
  | server step =>
    obtain ⟨srv, -, rfl⟩ := Option.map_eq_some_iff.mp hnext
    have hsrv := held_server h srv
    split
    · exact held_init hsrv _
    · exact held_init hsrv _
    · exact hsrv
  | portFails =>
    obtain rfl := Option.some.inj hnext
    exact held_init h _
  | io action =>
    cases action with
    | send session kind totalSize =>
      obtain ⟨-, hnext⟩ := Option.ite_none_right_eq_some.mp hnext
      obtain ⟨io, hio, rfl⟩ := Option.map_eq_some_iff.mp hnext
      exact held_io h st.server hio
    | goOn k answer =>
      obtain ⟨op, -, hnext⟩ := Option.bind_eq_some_iff.mp hnext
      obtain ⟨io, hio, rfl⟩ := Option.map_eq_some_iff.mp hnext
      exact held_io h _ hio
    | disconnect session => exact absurd hnext (by simp [holdNext])
  | postRecv s =>
    obtain ⟨-, rfl⟩ := of_guard hnext
    exact ⟨h.own, h.kept, h.destroyed, h.placed, h.owned⟩
  | recvCompletes s =>
    obtain ⟨-, rfl⟩ := of_guard hnext
    exact ⟨h.own, h.kept, h.destroyed, h.placed, h.owned⟩
  | destroy x =>
    -- It never comes to this: the session's own receive context holds it.
    obtain ⟨⟨hx, -, hnone⟩, -⟩ := of_guard hnext
    exact absurd (hnone ▸ recvContext_mem.mpr (h.kept x hx)) List.not_mem_nil

/-! ## Runs -/

/-- **A session holds itself**: in every run, a session that went through `Init` is held by its own
receive context, so that it is never destroyed and never frees it. Of a session that is disconnected
and that nobody else has, with no I/O outstanding, that context is left, and the contexts in the
pool that were last made for it. -/
theorem recvContext_kept {actions : List HoldAction}
    (hrun : run (holdNext cfg) .start actions = some st) (hx : x ∈ st.initialised) :
    .recvContext x ∈ st.holders x ∧ (x, x) ∈ st.recvContexts ∧ x ∉ st.destroyed ∧
      holdNext cfg st (.destroy x) = none ∧
      (Abandoned st x → ∀ holder ∈ st.holders x, holder = .recvContext x ∨
        ∃ ctx ∈ st.io.free, holder = .sendContext ctx) := by
  have hheld : Held st := run_preserves (fun _ _ _ h hnext => held_next h hnext) held_start hrun
  have hrecv := recvContext_mem.mpr (hheld.kept x hx)
  refine ⟨hrecv, hheld.kept x hx, ?_, ?_, fun habandoned holder hholder => ?_⟩
  · rw [hheld.destroyed]
    exact List.not_mem_nil
  · refine if_neg ?_
    rintro ⟨-, -, hnone⟩
    exact absurd (hnone ▸ hrecv) List.not_mem_nil
  · have hcontext := habandoned.dropped holder hholder
    cases holder with
    | recvContext y =>
      have hy : y = x := hheld.own _ (recvContext_mem.mp hholder)
      exact Or.inl (congrArg _ hy)
    | sendContext ctx =>
      obtain ⟨hmade, s, howner, rfl⟩ := sendContext_mem.mp hholder
      refine Or.inr ⟨ctx, ?_, rfl⟩
      by_contra hfree
      have hplaced := hheld.placed ctx
      unfold OnePlace at hplaced
      rw [List.count_eq_zero_of_not_mem hfree, if_pos hmade, Nat.zero_add] at hplaced
      obtain ⟨op, hop, hhas⟩ := List.countP_pos_iff.mp (hplaced ▸ Nat.one_pos)
      have hctx : op.stage.context = some ctx := of_decide_eq_true hhas
      have hsession := Option.some.inj ((hheld.owned op hop ctx hctx).symm.trans howner)
      refine habandoned.sending ⟨op, hop, congrArg _ hsession, ?_⟩
      rw [hctx]
      exact Option.some_ne_none ctx
    | sessionManager => exact absurd hcontext (by simp [Holder.isContext])
    | member r => exact absurd hcontext (by simp [Holder.isContext])
    | queuedJob r job => exact absurd hcontext (by simp [Holder.isContext])
    | authCallback token => exact absurd hcontext (by simp [Holder.isContext])

/-- A client connects, logs in, enters a room, gets one packet, and closes its connection. -/
def oneVisit : List HoldAction :=
  ([[.server (.accept true, .quiet 1000), .postRecv 0, .recvCompletes 0,
      .server (.packet 0 (.login (some [116])), .quiet 1000), .postRecv 0,
      .server (.authCallback 0 true [97], .quiet 1000), .io (.send 0 .internal 12)],
    List.replicate 8 (.io (.goOn 0 true)),
    [.recvCompletes 0, .server (.packet 0 (.roomEnter (some [65])), .quiet 1000), .postRecv 0,
      .server (.job 0, .quiet 1000), .recvCompletes 0, .server (.disconnect 0, .quiet 1000),
      .server (.job 0, .quiet 1000)]] : List (List HoldAction)).flatten

theorem recvContext_oneVisit :
    ∃ st, run (holdNext ⟨16, 30000, 60000⟩) .start oneVisit = some st ∧
      (.accepted 0, .accepted 0) ∈ st.recvContexts ∧ .accepted 0 ∉ st.destroyed := by
  obtain ⟨st, hrun, hx⟩ : ∃ st, run (holdNext ⟨16, 30000, 60000⟩) .start oneVisit = some st ∧
      .accepted 0 ∈ st.initialised := by decide +kernel
  have hkept := recvContext_kept hrun hx
  exact ⟨st, hrun, hkept.2.1, hkept.2.2.1⟩

/-- Nobody needs the session, and it is still there. -/
theorem session_leaked :
    ∃ st, run (holdNext ⟨16, 30000, 60000⟩) .start oneVisit = some st ∧
      Abandoned st (.accepted 0) ∧
      st.holders (.accepted 0) = [.recvContext (.accepted 0), .sendContext 0] ∧
      holdNext ⟨16, 30000, 60000⟩ st (.destroy (.accepted 0)) = none := by
  have hrun : ∃ st, run (holdNext ⟨16, 30000, 60000⟩) .start oneVisit = some st ∧
      Abandoned st (.accepted 0) ∧
      st.holders (.accepted 0) = [.recvContext (.accepted 0), .sendContext 0] := by
    decide +kernel
  obtain ⟨st, hrun, habandoned, hholders⟩ := hrun
  refine ⟨st, hrun, habandoned, hholders, if_neg ?_⟩
  rw [hholders]
  simp

end

end RealtimeServer
