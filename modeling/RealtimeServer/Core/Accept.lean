import Mathlib.Data.List.Range
import RealtimeServer.Lib.Run

/-!
# Accepting connections

Model of `ServerCore::PostAccept` and `ServerCore::HandleAcceptCompletion` (`Core/ServerCore.cpp`)
on the threads that run them: the one that calls `Start`, and the workers. One step is one call that
may fail, with its answer, or a worker taking the completion of an `AcceptEx` out of the port. What
the accept path does to the sessions is in `Server.handleAccept`.

A handler hands over with the `AcceptEx` at its end, behind which it only returns; so that call ends
its link of the chain and begins the next.

* `links_le_run`: the number of links never grows.
* **`accept_chain`**: there always is one as long as no `PostAccept` fails, and only then: its error
  exits, unlike those of `HandleAcceptCompletion`, post no other accept (`chain_broken`), and
  nothing later does (`broken_run`).
* `sockets_accounted`: every socket is in the accept path, closed, or a session's.
-/

namespace RealtimeServer

open Guarded

/-- A socket that `WSASocket(accept)` has made. -/
abbrev Socket := Nat

/-- Where a thread is in the accept path: at which call. -/
inductive AcceptCall
  /-- `WSASocket` in `PostAccept`. -/
  | wsaSocket
  /-- `AcceptEx` in `PostAccept`. -/
  | acceptEx (acceptSocket : Socket)
  /-- The entry of `HandleAcceptCompletion`. -/
  | completion (clientSocket : Socket) (success : Bool)
  /-- `CreateIoCompletionPort` in `HandleAcceptCompletion`. -/
  | createIoCompletionPort (clientSocket : Socket)
  /-- `ConsumeGlobalConnectionToken` in `HandleAcceptCompletion`. -/
  | consumeToken (clientSocket : Socket)
  /-- `PostRecv` in `HandleAcceptCompletion`. -/
  | postRecv (clientSocket : Socket)
  deriving DecidableEq

/-- The accept path of the server. -/
structure Acceptor where
  /-- `m_running`. -/
  running : Bool
  threads : List AcceptCall
  /-- The sockets of the `AcceptEx` calls whose completion no worker has taken. -/
  outstanding : List Socket
  nextSocket : Socket
  closed : List Socket
  sessions : List Socket

namespace Acceptor

/-- `Start`, at its `PostAccept`. -/
def started : Acceptor :=
  { running := true, threads := [.wsaSocket], outstanding := [], nextSocket := 0
    closed := [], sessions := [] }

variable (st : Acceptor) (i : Nat)

/-- The thread goes on to `PostAccept`. -/
def postAccept : Acceptor := { st with threads := st.threads.set i .wsaSocket }

/-- The thread goes on to another call. -/
def goOn (call : AcceptCall) : Acceptor := { st with threads := st.threads.set i call }

/-- The thread returns from the accept path. -/
def leave : Acceptor := { st with threads := st.threads.eraseIdx i }

/-- `closesocket`. -/
def closesocket (s : Socket) : Acceptor := { st with closed := st.closed ++ [s] }

/-- What thread `i` does behind the answer to the call it is at. -/
def advance (answer : Bool) : AcceptCall → Acceptor
  | .wsaSocket =>
    if answer then { st.goOn i (.acceptEx st.nextSocket) with nextSocket := st.nextSocket + 1 }
    else st.leave i
  | .acceptEx acceptSocket =>
    if answer then { st.leave i with outstanding := st.outstanding ++ [acceptSocket] }
    else (st.closesocket acceptSocket).leave i
  | .completion clientSocket success =>
    if success then st.goOn i (.createIoCompletionPort clientSocket)
    else (st.closesocket clientSocket).postAccept i
  | .createIoCompletionPort clientSocket =>
    if answer then st.goOn i (.consumeToken clientSocket)
    else (st.closesocket clientSocket).postAccept i
  | .consumeToken clientSocket =>
    if answer then st.goOn i (.postRecv clientSocket)
    else (st.closesocket clientSocket).postAccept i
  | .postRecv clientSocket =>
    { st with sessions := st.sessions ++ [clientSocket] }.postAccept i

/-- What the accept chain consists of: threads in the accept path, and accepts posted. -/
def links : Nat := st.threads.length + st.outstanding.length

end Acceptor

/-- What happens next in the accept path. -/
inductive AcceptAction
  /-- The call that thread `i` is at is made, and answers; where it cannot fail, whatever. -/
  | advance (i : Nat) (answer : Bool)
  /-- A worker takes the completion of the `k`-th outstanding `AcceptEx`. -/
  | complete (k : Nat) (success : Bool)
  /-- `Stop`. -/
  | stop
  deriving DecidableEq

/-- One step of the accept path. -/
def acceptNext (st : Acceptor) : AcceptAction → Option Acceptor
  | .advance i answer => (st.threads[i]?).map (st.advance i answer)
  | .complete k success =>
    (st.outstanding[k]?).map fun clientSocket =>
      { st with
        outstanding := st.outstanding.eraseIdx k
        threads := st.threads ++ [.completion clientSocket success] }
  | .stop => some { st with running := false }

/-- The call is one of `PostAccept`. -/
def AcceptCall.InPost : AcceptCall → Prop
  | wsaSocket | acceptEx _ => True
  | completion .. | createIoCompletionPort _ | consumeToken _ | postRecv _ => False

instance : DecidablePred AcceptCall.InPost
  | .wsaSocket | .acceptEx _ => .isTrue trivial
  | .completion .. | .createIoCompletionPort _ | .consumeToken _ | .postRecv _ => .isFalse id

/-- The step fails a call of `PostAccept`. -/
def FailsPost (st : Acceptor) (a : AcceptAction) : Prop :=
  match a with
  | .advance i false => ∃ call ∈ st.threads[i]?, call.InPost
  | _ => False

instance (st : Acceptor) (a : AcceptAction) : Decidable (FailsPost st a) := by
  unfold FailsPost
  split <;> infer_instance

/-- While the server runs, no `PostAccept` fails. -/
def Posts (st : Acceptor) (a : AcceptAction) : Prop := st.running = true → ¬ FailsPost st a

instance (st : Acceptor) (a : AcceptAction) : Decidable (Posts st a) := by
  unfold Posts; infer_instance

section

variable {st st' : Acceptor} {a : AcceptAction} {i k : Nat} {call : AcceptCall}
  {steps : List AcceptAction}

/-! ## One link -/

@[simp] theorem links_postAccept : (st.postAccept i).links = st.links := by
  simp [Acceptor.links, Acceptor.postAccept]

@[simp] theorem links_goOn : (st.goOn i call).links = st.links := by
  simp [Acceptor.links, Acceptor.goOn]

theorem links_leave (h : st.threads[i]? = some call) : (st.leave i).links + 1 = st.links := by
  obtain ⟨hi, -⟩ := List.getElem?_eq_some_iff.mp h
  unfold Acceptor.links Acceptor.leave
  simp only [List.length_eraseIdx_of_lt hi]
  omega

/-- **One step** keeps the number of links, or fails a call of `PostAccept` and takes one away. -/
theorem links_next (h : acceptNext st a = some st') :
    (¬ FailsPost st a ∧ st'.links = st.links) ∨ (FailsPost st a ∧ st'.links + 1 = st.links) := by
  cases a with
  | stop =>
    obtain rfl := Option.some.inj h
    exact Or.inl ⟨id, rfl⟩
  | complete k success =>
    obtain ⟨clientSocket, hk, rfl⟩ := Option.map_eq_some_iff.mp h
    obtain ⟨hlt, -⟩ := List.getElem?_eq_some_iff.mp hk
    refine Or.inl ⟨id, ?_⟩
    unfold Acceptor.links
    simp only [List.length_append, List.length_singleton, List.length_eraseIdx_of_lt hlt]
    omega
  | advance i answer =>
    obtain ⟨call, hi, rfl⟩ := Option.map_eq_some_iff.mp h
    have hfails : FailsPost st (.advance i answer) ↔
        answer = false ∧ call.InPost := by
      cases answer with
      | true => simp [FailsPost]
      | false => simp [FailsPost, hi]
    rw [hfails]
    cases call with
    | wsaSocket =>
      cases answer with
      | true => exact Or.inl ⟨by simp, links_goOn⟩
      | false => exact Or.inr ⟨⟨rfl, trivial⟩, links_leave hi⟩
    | acceptEx s =>
      have hleave := links_leave hi
      cases answer with
      | true =>
        refine Or.inl ⟨by simp, ?_⟩
        rw [← hleave]
        simp [Acceptor.advance, Acceptor.links, Acceptor.leave]
        omega
      | false => exact Or.inr ⟨⟨rfl, trivial⟩, hleave⟩
    | completion s success =>
      refine Or.inl ⟨fun hfails => hfails.2, ?_⟩
      cases success with
      | true => exact links_goOn
      | false => exact @links_postAccept (st.closesocket s) i
    | createIoCompletionPort s =>
      refine Or.inl ⟨fun hfails => hfails.2, ?_⟩
      cases answer with
      | true => exact links_goOn
      | false => exact @links_postAccept (st.closesocket s) i
    | consumeToken s =>
      refine Or.inl ⟨fun hfails => hfails.2, ?_⟩
      cases answer with
      | true => exact links_goOn
      | false => exact @links_postAccept (st.closesocket s) i
    | postRecv s => exact Or.inl ⟨fun hfails => hfails.2, links_postAccept⟩

/-- Only `Stop` ends `m_running`. -/
theorem running_next (h : acceptNext st a = some st') (ha : a ≠ .stop) :
    st'.running = st.running := by
  cases a with
  | stop => exact absurd rfl ha
  | complete k success =>
    obtain ⟨clientSocket, -, rfl⟩ := Option.map_eq_some_iff.mp h
    rfl
  | advance i answer =>
    obtain ⟨call, -, rfl⟩ := Option.map_eq_some_iff.mp h
    cases call with
    | wsaSocket => cases answer <;> rfl
    | acceptEx s => cases answer <;> rfl
    | completion s success => cases success <;> rfl
    | createIoCompletionPort s => cases answer <;> rfl
    | consumeToken s => cases answer <;> rfl
    | postRecv s => rfl

theorem links_le_next (h : acceptNext st a = some st') : st'.links ≤ st.links := by
  rcases links_next h with ⟨-, hsame⟩ | ⟨-, hless⟩
  · exact hsame.le
  · omega

/-- The number of links never grows. -/
theorem links_le_run (hrun : run acceptNext st steps = some st') : st'.links ≤ st.links :=
  run_preserves (I := fun st' => st'.links ≤ st.links)
    (fun _ _ _ hle h => (links_le_next h).trans hle) (le_refl _) hrun

/-- A step of a server that has its link while it runs keeps it so exactly if it fails no
`PostAccept`. -/
theorem link_kept_iff (hlink : st.running = true → st.links = 1)
    (h : acceptNext st a = some st') : (st'.running = true → st'.links = 1) ↔ Posts st a := by
  constructor
  · intro hkept hrunning hfails
    have hstop : a ≠ .stop := by
      rintro rfl
      exact hfails
    have hone := hlink hrunning
    have hone' := hkept ((running_next h hstop).trans hrunning)
    rcases links_next h with ⟨hnot, -⟩ | ⟨-, hless⟩
    · exact hnot hfails
    · omega
  · intro hposts hrunning'
    have hstop : a ≠ .stop := by
      rintro rfl
      obtain rfl := Option.some.inj h
      exact absurd hrunning' (by simp)
    have hrunning := (running_next h hstop).symm.trans hrunning'
    rcases links_next h with ⟨-, hsame⟩ | ⟨hfails, -⟩
    · rw [hsame, hlink hrunning]
    · exact absurd hfails (hposts hrunning)

/-- **The accept chain**: in every run there is one link at most, and there is one in every state in
which the server runs exactly if no `PostAccept` fails while it does. -/
theorem accept_chain (hrun : run acceptNext .started steps = some st) :
    (∀ before st, before <+: steps → run acceptNext .started before = some st → st.links ≤ 1) ∧
      ((∀ before st, before <+: steps → run acceptNext .started before = some st →
        st.running = true → st.links = 1) ↔ Along acceptNext Posts .started steps) := by
  refine ⟨fun before st _ hbefore => links_le_run hbefore, ?_⟩
  exact kept_iff_along (fun _ => rfl) (fun _ _ _ _ _ hlink hnext => link_kept_iff hlink hnext) hrun

/-- Three clients connect: the first one's `AcceptEx` completes with an error, the second one's
socket does not get into the port, and the third one is over the policy's limit. -/
def threeRefused : List AcceptAction :=
  [.advance 0 true, .advance 0 true, .complete 0 false, .advance 0 true,
    .advance 0 true, .advance 0 true, .complete 0 true, .advance 0 true, .advance 0 false,
    .advance 0 true, .advance 0 true, .complete 0 true, .advance 0 true, .advance 0 true,
    .advance 0 false, .advance 0 true, .advance 0 true]

/-- The server goes on accepting. -/
theorem accept_chain_threeRefused :
    ∃ st, run acceptNext .started threeRefused = some st ∧ st.closed = [0, 1, 2] ∧
      st.running = true ∧ st.links = 1 := by
  obtain ⟨st, hrun, hclosed, hrunning⟩ : ∃ st, run acceptNext .started threeRefused = some st ∧
      st.closed = [0, 1, 2] ∧ st.running = true := by decide
  exact ⟨st, hrun, hclosed, hrunning,
    (accept_chain hrun).2.mpr (by decide) threeRefused st List.prefix_rfl hrun hrunning⟩

/-- A client is let in, and the `WSASocket` for the next one fails. -/
def socketFails : List AcceptAction :=
  [.advance 0 true, .advance 0 true, .complete 0 true, .advance 0 true, .advance 0 true,
    .advance 0 true, .advance 0 true, .advance 0 false]

/-- The server runs, and accepts no one. -/
theorem chain_broken :
    ∃ st, run acceptNext .started socketFails = some st ∧ st.running = true ∧
      st.sessions = [0] ∧ st.threads = [] ∧ st.outstanding = [] := by
  decide

/-- Whatever happens then, it will not accept again. -/
theorem broken_run (hnone : st.links = 0) (hrun : run acceptNext st steps = some st') :
    st'.links = 0 := Nat.le_zero.mp ((links_le_run hrun).trans hnone.le)

/-! ## Sockets -/

/-- The socket a thread in the accept path has. -/
def AcceptCall.socket : AcceptCall → Option Socket
  | wsaSocket => none
  | acceptEx s | completion s _ | createIoCompletionPort s | consumeToken s | postRecv s => some s

/-- The sockets of the accept path. -/
def Acceptor.held (st : Acceptor) : List Socket :=
  st.threads.filterMap AcceptCall.socket ++ st.outstanding

/-- Every socket made is in the accept path, closed, or a session's, and only one of these. -/
def SocketsAccounted (st : Acceptor) : Prop :=
  (st.held ++ (st.closed ++ st.sessions)).Perm (List.range st.nextSocket)

theorem only_thread (hle : st.links ≤ 1) (h : st.threads[i]? = some call) :
    i = 0 ∧ st.threads = [call] ∧ st.outstanding = [] := by
  obtain ⟨hi, hcall⟩ := List.getElem?_eq_some_iff.mp h
  unfold Acceptor.links at hle
  have hone : st.threads.length = 1 := by omega
  have hnone : st.outstanding.length = 0 := by omega
  obtain ⟨call', hthreads⟩ := List.length_eq_one_iff.mp hone
  obtain rfl : i = 0 := by omega
  refine ⟨rfl, ?_, List.length_eq_zero_iff.mp hnone⟩
  simp only [hthreads, List.getElem_cons_zero] at hcall
  rw [hthreads, hcall]

theorem only_outstanding {s : Socket} (hle : st.links ≤ 1) (h : st.outstanding[k]? = some s) :
    k = 0 ∧ st.outstanding = [s] ∧ st.threads = [] := by
  obtain ⟨hk, hs⟩ := List.getElem?_eq_some_iff.mp h
  unfold Acceptor.links at hle
  have hone : st.outstanding.length = 1 := by omega
  have hnone : st.threads.length = 0 := by omega
  obtain ⟨s', houtstanding⟩ := List.length_eq_one_iff.mp hone
  obtain rfl : k = 0 := by omega
  refine ⟨rfl, ?_, List.length_eq_zero_iff.mp hnone⟩
  simp only [houtstanding, List.getElem_cons_zero] at hs
  rw [houtstanding, hs]

theorem held_thread (hthreads : st.threads = [call]) (houtstanding : st.outstanding = []) :
    st.held = call.socket.toList := by
  unfold Acceptor.held
  rw [hthreads, houtstanding]
  cases call <;> rfl

theorem held_outstanding {s : Socket} (hthreads : st.threads = [])
    (houtstanding : st.outstanding = [s]) : st.held = [s] := by
  unfold Acceptor.held
  rw [hthreads, houtstanding]
  rfl

/-- A socket that a thread of the accept path closes. -/
theorem perm_closed {s : Socket} {closed sessions sockets : List Socket}
    (h : (s :: (closed ++ sessions)).Perm sockets) : (closed ++ [s] ++ sessions).Perm sockets := by
  rw [List.append_assoc]
  exact List.perm_middle.trans h

/-- A socket that it gives to a session. -/
theorem perm_admitted {s : Socket} {closed sessions sockets : List Socket}
    (h : (s :: (closed ++ sessions)).Perm sockets) :
    (closed ++ (sessions ++ [s])).Perm sockets := by
  rw [← List.append_assoc]
  exact (List.perm_append_singleton s _).trans h

theorem held_goOn {call' : AcceptCall} (hthreads : st.threads = [call])
    (houtstanding : st.outstanding = []) : (st.goOn 0 call').held = call'.socket.toList := by
  refine held_thread ?_ houtstanding
  show st.threads.set 0 call' = [call']
  rw [hthreads]
  rfl

/-- The thread goes on with the socket it has. -/
theorem accounted_goOn {call' : AcceptCall} (hthreads : st.threads = [call])
    (houtstanding : st.outstanding = []) (hsame : call'.socket = call.socket)
    (hall : SocketsAccounted st) : SocketsAccounted (st.goOn 0 call') := by
  unfold SocketsAccounted at hall ⊢
  rw [held_thread hthreads houtstanding] at hall
  rw [held_goOn hthreads houtstanding, hsame]
  exact hall

/-- The thread returns, without a socket. -/
theorem held_leave (hthreads : st.threads = [call]) (houtstanding : st.outstanding = []) :
    (st.leave 0).held = [] := by
  unfold Acceptor.held Acceptor.leave
  rw [hthreads, houtstanding]
  rfl

/-- The thread closes its socket and goes on to `PostAccept`. -/
theorem accounted_closes {s : Socket} (hthreads : st.threads = [call])
    (houtstanding : st.outstanding = [])
    (hall : (s :: (st.closed ++ st.sessions)).Perm (List.range st.nextSocket)) :
    SocketsAccounted ((st.closesocket s).postAccept 0) := by
  have hheld : ((st.closesocket s).postAccept 0).held = [] :=
    @held_goOn (st.closesocket s) call .wsaSocket hthreads houtstanding
  unfold SocketsAccounted
  rw [hheld]
  exact perm_closed hall

theorem socketsAccounted_next (hle : st.links ≤ 1) (hall : SocketsAccounted st)
    (h : acceptNext st a = some st') : SocketsAccounted st' := by
  cases a with
  | stop =>
    obtain rfl := Option.some.inj h
    exact hall
  | complete k success =>
    obtain ⟨s, hk, rfl⟩ := Option.map_eq_some_iff.mp h
    obtain ⟨rfl, houtstanding, hthreads⟩ := only_outstanding hle hk
    unfold SocketsAccounted at hall ⊢
    rw [held_outstanding hthreads houtstanding] at hall
    have hheld := @held_thread
      { st with outstanding := st.outstanding.eraseIdx 0
                threads := st.threads ++ [.completion s success] }
      (.completion s success) (by rw [hthreads]; rfl) (by rw [houtstanding]; rfl)
    rw [hheld]
    exact hall
  | advance i answer =>
    obtain ⟨call, hi, rfl⟩ := Option.map_eq_some_iff.mp h
    obtain ⟨rfl, hthreads, houtstanding⟩ := only_thread hle hi
    have hhas := hall
    unfold SocketsAccounted at hhas
    rw [held_thread hthreads houtstanding] at hhas
    cases call with
    | wsaSocket =>
      cases answer with
      | true =>
        have hheld : (st.goOn 0 (.acceptEx st.nextSocket)).held = [st.nextSocket] :=
          held_goOn hthreads houtstanding
        show ((st.goOn 0 (.acceptEx st.nextSocket)).held ++ (st.closed ++ st.sessions)).Perm
          (List.range (st.nextSocket + 1))
        rw [hheld, List.range_succ]
        exact (List.Perm.cons _ hhas).trans (List.perm_append_singleton _ _).symm
      | false =>
        show ((st.leave 0).held ++ (st.closed ++ st.sessions)).Perm _
        rw [held_leave hthreads houtstanding]
        exact hhas
    | acceptEx s =>
      cases answer with
      | true =>
        unfold SocketsAccounted
        rw [@held_outstanding (st.advance 0 true (.acceptEx s)) s
          (by show st.threads.eraseIdx 0 = []; rw [hthreads]; rfl)
          (by show st.outstanding ++ [s] = [s]; rw [houtstanding]; rfl)]
        exact hhas
      | false =>
        show (((st.closesocket s).leave 0).held ++ (st.closed ++ [s] ++ st.sessions)).Perm _
        rw [@held_leave (st.closesocket s) _ hthreads houtstanding]
        exact perm_closed hhas
    | completion s success =>
      cases success with
      | true => exact accounted_goOn hthreads houtstanding rfl hall
      | false => exact accounted_closes hthreads houtstanding hhas
    | createIoCompletionPort s =>
      cases answer with
      | true => exact accounted_goOn hthreads houtstanding rfl hall
      | false => exact accounted_closes hthreads houtstanding hhas
    | consumeToken s =>
      cases answer with
      | true => exact accounted_goOn hthreads houtstanding rfl hall
      | false => exact accounted_closes hthreads houtstanding hhas
    | postRecv s =>
      have hheld : ({ st with sessions := st.sessions ++ [s] }.postAccept 0).held = [] :=
        @held_goOn { st with sessions := st.sessions ++ [s] } (.postRecv s) .wsaSocket hthreads
          houtstanding
      show (({ st with sessions := st.sessions ++ [s] }.postAccept 0).held ++
        (st.closed ++ (st.sessions ++ [s]))).Perm _
      rw [hheld]
      exact perm_admitted hhas

/-- **No socket is lost**: in every run, what `WSASocket` has made is in the accept path, closed, or
given to a session. -/
theorem sockets_accounted (hrun : run acceptNext .started steps = some st) :
    SocketsAccounted st := by
  have hstart : SocketsAccounted .started := List.Perm.refl _
  have hend : st.links ≤ 1 ∧ SocketsAccounted st :=
    run_preserves (I := fun st => st.links ≤ 1 ∧ SocketsAccounted st)
      (fun _ _ _ hi h => ⟨(links_le_next h).trans hi.1, socketsAccounted_next hi.1 hi.2 h⟩)
      ⟨le_refl 1, hstart⟩ hrun
  exact hend.2

end

end RealtimeServer
