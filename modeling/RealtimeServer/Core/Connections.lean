import Mathlib.Data.UInt
import RealtimeServer.Core.Steps
import RealtimeServer.Lib.Tally

/-!
# The connection records

A connection is on record in three places: the flag `m_disconnected` of its session, the map of
`SessionManager`, and the counter `currentConnections`. `HandleAcceptCompletion`, `HandleDisconnect`
and `PostSend` write them one after the other, on any number of threads at once. Here each write is
a step of its own, and the handlers of all sessions interleave.

A receive that fails, is empty, or brings a packet the limits refuse, and a heartbeat timeout, start
a `HandleDisconnect`; a receive that is handled leads to sends. A send comes in two steps, the test
of `PostSend` and the `WSASend` behind it. What `HandleDisconnect` does to the room afterwards is in
`Server.handleDisconnect`: `run_accept` and `run_disconnect` say that the handlers of `Core/Server`
are these stages run without a pause.

* **`records_agree`**: in every run whose steps meet `Accounted`, whenever no accept and no
  disconnect is midway, the map holds exactly the admitted sessions that are not disconnected, and
  the counter is its size. `Accounted` asks that a failed `WSASend` finds the flag set already, and
  that the policy refuses no session that is already disconnected.
* `record_leaked`: without it a failed `WSASend` sets the flag first, and then no `HandleDisconnect`
  gets past its `Disconnect()`: the session stays in the map and in the count for good.
-/

namespace RealtimeServer

open Unordered Guarded

/-- Where the `HandleAcceptCompletion` of a session is, from `Add` on. -/
inductive Accepting
  /-- Before `ConsumeGlobalConnectionToken`. -/
  | added
  /-- The policy refused the session; before `Disconnect`. -/
  | refused
  /-- Before `Remove`. -/
  | removing
  /-- Over, the session refused. -/
  | dropped
  /-- A token was left; before the counters. -/
  | counting
  /-- Over, the session admitted. -/
  | admitted
  deriving DecidableEq

/-- Where the `HandleDisconnect` of a session is that got past `Disconnect()`. -/
inductive Closing
  /-- There is none. -/
  | idle
  /-- Before `STATS_DEC(currentConnections)`. -/
  | counting
  /-- Before `Remove`. -/
  | removing
  /-- Behind `Remove`. -/
  | done
  deriving DecidableEq

/-- The sessions and their records, and where their handlers are. -/
structure Connections where
  world : World
  nextSession : SessionRef
  sessionManager : SessionManager
  accepting : SessionRef → Accepting
  closing : SessionRef → Closing
  /-- The calls of `PostSend` behind their test of the flag. -/
  posting : List SessionRef

namespace Connections

/-- The server as it starts. -/
def empty : Connections :=
  { world := Server.empty.world
    nextSession := 0
    sessionManager := Server.empty.sessionManager
    accepting := fun _ => .added
    closing := fun _ => .idle
    posting := [] }

/-- `IsDisconnected()`. -/
def Down (c : Connections) (s : SessionRef) : Prop := (c.world.session s).disconnected = true

instance (c : Connections) (s : SessionRef) : Decidable (c.Down s) := by
  unfold Down; infer_instance

section

variable (s : SessionRef) (c : Connections)

/-- A new session, and `Add`. -/
def add : Connections :=
  let s := c.nextSession
  { c with
    world := c.world.update s fun _ =>
      { ServerSession.new with sessionId := c.sessionManager.nextSessionId }
    nextSession := s + 1
    sessionManager := c.sessionManager.add s
    accepting := Function.update c.accepting s .added
    closing := Function.update c.closing s .idle }

/-- `ConsumeGlobalConnectionToken`, and `STATS_INC(totalPolicyConnectionRejections)`. -/
def consumeToken (token : Bool) : Connections :=
  if token then { c with accepting := Function.update c.accepting s .counting }
  else
    { c with
      world := { c.world with stats :=
        { c.world.stats with totalPolicyConnectionRejections :=
            c.world.stats.totalPolicyConnectionRejections + 1 } }
      accepting := Function.update c.accepting s .refused }

/-- `Disconnect` of a refused session. -/
def reject : Connections :=
  { c with
    world := c.world.disconnect s
    accepting := Function.update c.accepting s .removing }

/-- `Remove` of a refused session. -/
def drop : Connections :=
  { c with
    sessionManager := c.sessionManager.remove (c.world.session s).sessionId
    accepting := Function.update c.accepting s .dropped }

/-- `STATS_INC(totalConnections)`, `STATS_INC(currentConnections)`. -/
def countIn : Connections :=
  { c with
    world := Server.countIn c.world
    accepting := Function.update c.accepting s .admitted }

/-- A `Disconnect()` that returns true. -/
def close : Connections :=
  { c with
    world := c.world.disconnect s
    closing := Function.update c.closing s .counting }

/-- `HandleDisconnect` up to its first return. -/
def disconnect : Connections := if c.Down s then c else c.close s

/-- `STATS_DEC(currentConnections)`. -/
def countOut : Connections :=
  { c with
    world := Server.countOut c.world
    closing := Function.update c.closing s .removing }

/-- The `Remove` of `HandleDisconnect`. -/
def remove : Connections :=
  { c with
    sessionManager := c.sessionManager.remove (c.world.session s).sessionId
    closing := Function.update c.closing s .done }

/-- The test of `PostSend`. -/
def post : Connections := if c.Down s then c else { c with posting := c.posting ++ [s] }

/-- The `WSASend` of `PostSend` to `s`, the `i`-th under way, and the `Disconnect` if it fails. -/
def wsaSend (i : Nat) (fails : Bool) : Connections :=
  { c with
    world := if fails then c.world.disconnect s else c.world
    posting := c.posting.eraseIdx i }

end

end Connections

/-- What happens next to the records. -/
inductive RecordAction
  | add
  | consumeToken (s : SessionRef) (token : Bool)
  | reject (s : SessionRef)
  | drop (s : SessionRef)
  | countIn (s : SessionRef)
  | disconnect (s : SessionRef)
  | countOut (s : SessionRef)
  | remove (s : SessionRef)
  | post (s : SessionRef)
  | wsaSend (i : Nat) (fails : Bool)

/-- The next write, where the handler it belongs to has come to it. -/
def recordNext (c : Connections) : RecordAction → Option Connections
  | .add => some c.add
  | .consumeToken s token =>
    if s < c.nextSession ∧ c.accepting s = .added then some (c.consumeToken s token) else none
  | .reject s => if s < c.nextSession ∧ c.accepting s = .refused then some (c.reject s) else none
  | .drop s => if s < c.nextSession ∧ c.accepting s = .removing then some (c.drop s) else none
  | .countIn s => if s < c.nextSession ∧ c.accepting s = .counting then some (c.countIn s) else none
  | .disconnect s => if s < c.nextSession then some (c.disconnect s) else none
  | .countOut s => if s < c.nextSession ∧ c.closing s = .counting then some (c.countOut s) else none
  | .remove s => if s < c.nextSession ∧ c.closing s = .removing then some (c.remove s) else none
  -- a session is sent something only once its first receive is posted
  | .post s => if s < c.nextSession ∧ c.accepting s = .admitted then some (c.post s) else none
  | .wsaSend i fails =>
    match c.posting[i]? with
    | none => none
    | some s => some (c.wsaSend s i fails)

namespace Connections

variable {c c' : Connections} {s : SessionRef}

/-! ## The invariant -/

/-- The session is in the map: `Add` has been called for it, and no `Remove`. -/
def Listed (c : Connections) (s : SessionRef) : Prop :=
  s < c.nextSession ∧ c.accepting s ≠ .dropped ∧ c.closing s ≠ .done

instance (c : Connections) (s : SessionRef) : Decidable (c.Listed s) := by
  unfold Listed; infer_instance

/-- A number of sessions, as the counter has it. -/
def count : ℕ →+ UInt64 where
  toFun := UInt64.ofNat
  map_zero' := rfl
  map_add' := UInt64.ofNat_add

/-- What the session has contributed to `currentConnections`. -/
def share (c : Connections) (s : SessionRef) : UInt64 :=
  (if c.accepting s = .admitted then 1 else 0) -
    (if c.closing s = .removing ∨ c.closing s = .done then 1 else 0)

/-- The policy has disconnected the session. -/
def Rejected (c : Connections) (s : SessionRef) : Prop :=
  c.accepting s = .removing ∨ c.accepting s = .dropped

/-- **The invariant**: flag, map and counter follow from where the handlers are. -/
structure Records (c : Connections) : Prop where
  nextSessionId : c.sessionManager.nextSessionId = c.nextSession + 1
  sessionId : ∀ s < c.nextSession, (c.world.session s).sessionId = s + 1
  /-- The flag of a session was set by the handler that takes it off the records. -/
  down : ∀ s < c.nextSession, c.Down s ↔ c.closing s ≠ .idle ∨ c.Rejected s
  /-- No session is taken off the records twice. -/
  once : ∀ s < c.nextSession, c.Rejected s → c.closing s = .idle
  sessions : ∀ id s, c.sessionManager.sessions.lookup id = some s ↔ c.Listed s ∧ id = s + 1
  count : c.world.stats.currentConnections = Tally.total c.nextSession c.share

theorem records_empty : Records empty where
  nextSessionId := rfl
  sessionId s hs := absurd hs (Nat.not_lt_zero s)
  down s hs := absurd hs (Nat.not_lt_zero s)
  once s hs := absurd hs (Nat.not_lt_zero s)
  sessions id s := by
    refine ⟨fun h => absurd h (by simp [empty, Server.empty]), fun h => ?_⟩
    exact absurd h.1.1 (Nat.not_lt_zero s)
  count := (Tally.total_zero _).symm

/-- Only the handlers of `s` move, and they leave its id alone. -/
structure Moves (s : SessionRef) (c c' : Connections) : Prop where
  nextSession : c'.nextSession = c.nextSession
  nextSessionId : c'.sessionManager.nextSessionId = c.sessionManager.nextSessionId
  sessionId : ∀ t, (c'.world.session t).sessionId = (c.world.session t).sessionId
  down : ∀ t, t ≠ s → (c'.Down t ↔ c.Down t)
  accepting : ∀ t, t ≠ s → c'.accepting t = c.accepting t
  closing : ∀ t, t ≠ s → c'.closing t = c.closing t

theorem Moves.share (h : Moves s c c') {t : SessionRef} (ht : t ≠ s) : c'.share t = c.share t := by
  unfold Connections.share
  rw [h.accepting t ht, h.closing t ht]

theorem Moves.listed (h : Moves s c c') {t : SessionRef} (ht : t ≠ s) :
    c'.Listed t ↔ c.Listed t := by
  unfold Listed
  rw [h.nextSession, h.accepting t ht, h.closing t ht]

theorem Moves.rejected (h : Moves s c c') {t : SessionRef} (ht : t ≠ s) :
    c'.Rejected t ↔ c.Rejected t := by
  unfold Rejected
  rw [h.accepting t ht]

/-- The invariant is kept when `s` keeps its part of it, and stays in the map or leaves it. -/
theorem Records.of_moves (h : Records c) (hs : s < c.nextSession) (hmoves : Moves s c c')
    (hdown : c'.Down s ↔ c'.closing s ≠ .idle ∨ c'.Rejected s)
    (honce : c'.Rejected s → c'.closing s = .idle)
    (hsessions : (c'.sessionManager.sessions = c.sessionManager.sessions ∧
        (c'.Listed s ↔ c.Listed s)) ∨
      (c'.sessionManager.sessions = c.sessionManager.sessions.erase (s + 1) ∧ ¬ c'.Listed s))
    (hcount : c'.world.stats.currentConnections =
      c.world.stats.currentConnections + (c'.share s - c.share s)) : Records c' where
  nextSessionId := by rw [hmoves.nextSessionId, hmoves.nextSession, h.nextSessionId]
  sessionId t ht := by
    rw [hmoves.nextSession] at ht
    rw [hmoves.sessionId, h.sessionId t ht]
  down t ht := by
    rw [hmoves.nextSession] at ht
    by_cases hts : t = s
    · rw [hts, hdown]
    · rw [hmoves.down t hts, hmoves.closing t hts, hmoves.rejected hts, h.down t ht]
  once t ht := by
    rw [hmoves.nextSession] at ht
    by_cases hts : t = s
    · rw [hts]
      exact honce
    · rw [hmoves.closing t hts, hmoves.rejected hts]
      exact h.once t ht
  sessions id t := by
    rcases hsessions with ⟨hsame, hlisted⟩ | ⟨herase, hunlisted⟩
    · rw [hsame, h.sessions]
      by_cases hts : t = s
      · rw [hts, hlisted]
      · rw [hmoves.listed hts]
    · rw [herase, Map.lookup_erase_iff, h.sessions]
      by_cases hts : t = s
      · subst hts
        refine ⟨fun h => absurd h.2.2 h.1, fun h => absurd h.1 hunlisted⟩
      · rw [hmoves.listed hts]
        refine ⟨fun h => h.2, fun h => ⟨fun hid => ?_, h⟩⟩
        exact hts (Nat.succ.inj (h.2.symm.trans hid))
  count := by
    rw [hcount, h.count, hmoves.nextSession]
    exact (Tally.total_change hs fun t ht => hmoves.share ht).symm

/-! ## One step -/

theorem sessionId_disconnect (w : World) (s t : SessionRef) :
    ((w.disconnect s).session t).sessionId = (w.session t).sessionId := by
  by_cases h : t = s
  · subst h; rw [World.session_disconnect_self]
  · rw [World.session_disconnect_ne h]

theorem down_disconnect_self (w : World) (s : SessionRef) :
    ((w.disconnect s).session s).disconnected = true := by
  rw [World.session_disconnect_self]

theorem down_disconnect_ne (w : World) {t : SessionRef} (h : t ≠ s) :
    ((w.disconnect s).session t).disconnected = true ↔ (w.session t).disconnected = true := by
  rw [World.session_disconnect_ne h]

/-- A disconnected session is not changed by another `Disconnect`. -/
theorem disconnect_eq {w : World} (h : (w.session s).disconnected = true) : w.disconnect s = w := by
  have hsame : ServerSession.mk true (w.session s).sessionId (w.session s).accountId
      (w.session s).room = w.session s := by rw [← h]
  unfold World.disconnect World.update
  simp only [hsame, Function.update_eq_self]

@[simp] theorem session_add_self : c.add.world.session c.nextSession =
    { ServerSession.new with sessionId := c.sessionManager.nextSessionId } :=
  Function.update_self _ _ _

theorem session_add_ne (h : s ≠ c.nextSession) : c.add.world.session s = c.world.session s :=
  Function.update_of_ne h _ _

@[simp] theorem accepting_add_self : c.add.accepting c.nextSession = .added :=
  Function.update_self _ _ _

theorem accepting_add_ne (h : s ≠ c.nextSession) : c.add.accepting s = c.accepting s :=
  Function.update_of_ne h _ _

@[simp] theorem closing_add_self : c.add.closing c.nextSession = .idle :=
  Function.update_self _ _ _

theorem closing_add_ne (h : s ≠ c.nextSession) : c.add.closing s = c.closing s :=
  Function.update_of_ne h _ _

/-- The sessions behind an `Add` are the new one and those before. -/
theorem lt_of_add (h : s < c.add.nextSession) (hne : s ≠ c.nextSession) : s < c.nextSession :=
  lt_of_le_of_ne (Nat.le_of_lt_succ h) hne

theorem share_add_self : c.add.share c.nextSession = 0 := by
  unfold share
  rw [accepting_add_self, closing_add_self]
  simp

theorem share_add_ne (h : s ≠ c.nextSession) : c.add.share s = c.share s := by
  unfold share
  rw [accepting_add_ne h, closing_add_ne h]

theorem records_add (h : Records c) : Records c.add where
  nextSessionId := congrArg (· + 1) h.nextSessionId
  sessionId t ht := by
    by_cases hts : t = c.nextSession
    · rw [hts, session_add_self, ← h.nextSessionId]
    · rw [session_add_ne hts, h.sessionId t (lt_of_add ht hts)]
  down t ht := by
    unfold Down Rejected
    by_cases hts : t = c.nextSession
    · rw [hts, session_add_self, accepting_add_self, closing_add_self]
      simp [ServerSession.new]
    · rw [session_add_ne hts, accepting_add_ne hts, closing_add_ne hts]
      exact h.down t (lt_of_add ht hts)
  once t ht := by
    unfold Rejected
    by_cases hts : t = c.nextSession
    · rw [hts, closing_add_self]
      exact fun _ => rfl
    · rw [accepting_add_ne hts, closing_add_ne hts]
      exact h.once t (lt_of_add ht hts)
  sessions id t := by
    have hinsert : c.add.sessionManager.sessions.lookup id = some t ↔
        (id = c.nextSession + 1 ∧ t = c.nextSession) ∨
          (id ≠ c.nextSession + 1 ∧ c.Listed t ∧ id = t + 1) := by
      rw [← h.sessions, ← h.nextSessionId]
      exact Map.lookup_insert_iff
    rw [hinsert]
    unfold Listed
    by_cases hts : t = c.nextSession
    · subst hts
      have hlt : c.nextSession < c.add.nextSession := Nat.lt_succ_self _
      simp [hlt]
    · rw [accepting_add_ne hts, closing_add_ne hts]
      constructor
      · rintro (⟨-, rfl⟩ | ⟨-, ⟨hlt, hlisted⟩, hid⟩)
        · exact absurd rfl hts
        · exact ⟨⟨Nat.lt_succ_of_lt hlt, hlisted⟩, hid⟩
      · rintro ⟨⟨hlt, hlisted⟩, hid⟩
        refine Or.inr ⟨fun h => hts ?_, ⟨lt_of_add hlt hts, hlisted⟩, hid⟩
        exact Nat.succ.inj (hid.symm.trans h)
  count := by
    have hjoin : Tally.total c.add.nextSession c.add.share =
        Tally.total c.nextSession c.share + c.add.share c.nextSession :=
      Tally.total_join fun t ht => share_add_ne (ne_of_lt ht)
    rw [hjoin, share_add_self, add_zero]
    exact h.count

theorem records_consumeToken (h : Records c) (hs : s < c.nextSession)
    (hat : c.accepting s = .added) (token : Bool) : Records (c.consumeToken s token) := by
  have hto : ∃ stage, (c.consumeToken s token).accepting = Function.update c.accepting s stage ∧
      (stage = .counting ∨ stage = .refused) := by
    unfold consumeToken
    cases token
    · exact ⟨_, rfl, Or.inr rfl⟩
    · exact ⟨_, rfl, Or.inl rfl⟩
  obtain ⟨stage, haccepting, hstage⟩ := hto
  have hsession : (c.consumeToken s token).world.session = c.world.session := by
    unfold consumeToken
    cases token <;> rfl
  have hclosing : (c.consumeToken s token).closing = c.closing := by
    unfold consumeToken
    cases token <;> rfl
  have hself : (c.consumeToken s token).accepting s = stage := by
    rw [haccepting, Function.update_self]
  have hmoves : Moves s c (c.consumeToken s token) := by
    refine ⟨?_, ?_, fun t => by rw [hsession], fun t _ => by unfold Down; rw [hsession],
      fun t ht => by rw [haccepting, Function.update_of_ne ht], fun t _ => by rw [hclosing]⟩
    · unfold consumeToken
      cases token <;> rfl
    · unfold consumeToken
      cases token <;> rfl
  have hnot : ¬ (c.consumeToken s token).Rejected s ∧ ¬ c.Rejected s := by
    unfold Rejected
    rw [hself, hat]
    rcases hstage with rfl | rfl <;> simp
  refine h.of_moves hs hmoves ?_ (fun hrejected => absurd hrejected hnot.1) (Or.inl ⟨?_, ?_⟩) ?_
  · have hdown := h.down s hs
    unfold Down at hdown ⊢
    rw [hsession, hclosing, hdown]
    simp [hnot]
  · unfold consumeToken
    cases token <;> rfl
  · unfold Listed
    rw [hmoves.nextSession, hclosing, hself, hat]
    rcases hstage with rfl | rfl <;> simp
  · have hshare : (c.consumeToken s token).share s = c.share s := by
      unfold share
      rw [hclosing, hself, hat]
      rcases hstage with rfl | rfl <;> rfl
    rw [hshare, sub_self, add_zero]
    unfold consumeToken
    cases token <;> rfl

theorem records_reject (h : Records c) (hs : s < c.nextSession) (hat : c.accepting s = .refused)
    (hup : ¬ c.Down s) : Records (c.reject s) := by
  have hself : (c.reject s).accepting s = .removing := Function.update_self _ _ _
  have hmoves : Moves s c (c.reject s) :=
    ⟨rfl, rfl, sessionId_disconnect _ _, fun t ht => down_disconnect_ne _ ht,
      fun t ht => Function.update_of_ne ht _ _, fun _ _ => rfl⟩
  have hidle : c.closing s = .idle := by
    by_contra hclosing
    exact hup ((h.down s hs).mpr (Or.inl hclosing))
  refine h.of_moves hs hmoves ?_ (fun _ => hidle) (Or.inl ⟨rfl, ?_⟩) ?_
  · exact iff_of_true (down_disconnect_self _ _) (Or.inr (Or.inl hself))
  · unfold Listed
    rw [hmoves.nextSession, hself, hat]
    simp [reject]
  · have hshare : (c.reject s).share s = c.share s := by
      unfold share
      rw [hself, hat]
      rfl
    rw [hshare, sub_self, add_zero]
    rfl

theorem records_drop (h : Records c) (hs : s < c.nextSession) (hat : c.accepting s = .removing) :
    Records (c.drop s) := by
  have hself : (c.drop s).accepting s = .dropped := Function.update_self _ _ _
  have hmoves : Moves s c (c.drop s) :=
    ⟨rfl, rfl, fun _ => rfl, fun _ _ => Iff.rfl, fun t ht => Function.update_of_ne ht _ _,
      fun _ _ => rfl⟩
  refine h.of_moves hs hmoves ?_ (fun _ => h.once s hs (Or.inl hat)) (Or.inr ⟨?_, ?_⟩) ?_
  · exact iff_of_true ((h.down s hs).mpr (Or.inr (Or.inl hat))) (Or.inr (Or.inr hself))
  · show c.sessionManager.sessions.erase (c.world.session s).sessionId = _
    rw [h.sessionId s hs]
  · exact fun hlisted => hlisted.2.1 hself
  · have hshare : (c.drop s).share s = c.share s := by
      unfold share
      rw [hself, hat]
      rfl
    rw [hshare, sub_self, add_zero]
    rfl

theorem records_countIn (h : Records c) (hs : s < c.nextSession) (hat : c.accepting s = .counting) :
    Records (c.countIn s) := by
  have hself : (c.countIn s).accepting s = .admitted := Function.update_self _ _ _
  have hmoves : Moves s c (c.countIn s) :=
    ⟨rfl, rfl, fun _ => rfl, fun _ _ => Iff.rfl, fun t ht => Function.update_of_ne ht _ _,
      fun _ _ => rfl⟩
  have hnot : ¬ (c.countIn s).Rejected s ∧ ¬ c.Rejected s := by
    unfold Rejected
    rw [hself, hat]
    simp
  refine h.of_moves hs hmoves ?_ (fun hrejected => absurd hrejected hnot.1) (Or.inl ⟨rfl, ?_⟩) ?_
  · have hdown := h.down s hs
    simp only [hnot, or_false] at hdown ⊢
    exact hdown
  · unfold Listed
    rw [hmoves.nextSession, hself, hat]
    simp [countIn]
  · have hshare : (c.countIn s).share s = c.share s + 1 := by
      unfold share
      rw [hself, hat]
      simp only [if_true, reduceCtorEq, if_false]
      show (1 : UInt64) - (if c.closing s = .removing ∨ c.closing s = .done then 1 else 0) = _
      abel
    rw [hshare, add_sub_cancel_left]
    rfl

theorem records_close (h : Records c) (hs : s < c.nextSession) (hup : ¬ c.Down s) :
    Records (c.close s) := by
  have hself : (c.close s).closing s = .counting := Function.update_self _ _ _
  have hmoves : Moves s c (c.close s) :=
    ⟨rfl, rfl, sessionId_disconnect _ _, fun t ht => down_disconnect_ne _ ht, fun _ _ => rfl,
      fun t ht => Function.update_of_ne ht _ _⟩
  have hidle : c.closing s = .idle := by
    by_contra hclosing
    exact hup ((h.down s hs).mpr (Or.inl hclosing))
  have hnot : ¬ c.Rejected s := fun hrejected => hup ((h.down s hs).mpr (Or.inr hrejected))
  refine h.of_moves hs hmoves ?_ (fun hrejected => absurd hrejected hnot) (Or.inl ⟨rfl, ?_⟩) ?_
  · refine iff_of_true (down_disconnect_self _ _) (Or.inl ?_)
    rw [hself]
    simp
  · unfold Listed
    rw [hmoves.nextSession, hself, hidle]
    simp [close]
  · have hshare : (c.close s).share s = c.share s := by
      unfold share
      rw [hself, hidle, show (c.close s).accepting = c.accepting from rfl]
      rfl
    rw [hshare, sub_self, add_zero]
    rfl

theorem records_disconnect (h : Records c) (hs : s < c.nextSession) :
    Records (c.disconnect s) := by
  unfold disconnect
  split
  · exact h
  · rename_i hup
    exact records_close h hs hup

theorem records_countOut (h : Records c) (hs : s < c.nextSession)
    (hat : c.closing s = .counting) : Records (c.countOut s) := by
  have hself : (c.countOut s).closing s = .removing := Function.update_self _ _ _
  have hmoves : Moves s c (c.countOut s) :=
    ⟨rfl, rfl, fun _ => rfl, fun _ _ => Iff.rfl, fun _ _ => rfl,
      fun t ht => Function.update_of_ne ht _ _⟩
  have hdown : c.Down s := (h.down s hs).mpr (Or.inl (by rw [hat]; simp))
  refine h.of_moves hs hmoves ?_ ?_ (Or.inl ⟨rfl, ?_⟩) ?_
  · refine iff_of_true hdown (Or.inl ?_)
    rw [hself]
    simp
  · intro hrejected
    have hidle := h.once s hs hrejected
    rw [hat] at hidle
    exact absurd hidle (by simp)
  · unfold Listed
    rw [hmoves.nextSession, hself, hat]
    simp [countOut]
  · have hshare : (c.countOut s).share s = c.share s - 1 := by
      unfold share
      rw [hself, hat, show (c.countOut s).accepting = c.accepting from rfl]
      simp
    have hcount : (c.countOut s).world.stats.currentConnections =
        c.world.stats.currentConnections - 1 := rfl
    rw [hshare, hcount]
    abel

theorem records_remove (h : Records c) (hs : s < c.nextSession)
    (hat : c.closing s = .removing) : Records (c.remove s) := by
  have hself : (c.remove s).closing s = .done := Function.update_self _ _ _
  have hmoves : Moves s c (c.remove s) :=
    ⟨rfl, rfl, fun _ => rfl, fun _ _ => Iff.rfl, fun _ _ => rfl,
      fun t ht => Function.update_of_ne ht _ _⟩
  have hdown : c.Down s := (h.down s hs).mpr (Or.inl (by rw [hat]; simp))
  refine h.of_moves hs hmoves ?_ ?_ (Or.inr ⟨?_, ?_⟩) ?_
  · refine iff_of_true hdown (Or.inl ?_)
    rw [hself]
    simp
  · intro hrejected
    have hidle := h.once s hs hrejected
    rw [hat] at hidle
    exact absurd hidle (by simp)
  · show c.sessionManager.sessions.erase (c.world.session s).sessionId = _
    rw [h.sessionId s hs]
  · exact fun hlisted => hlisted.2.2 hself
  · have hshare : (c.remove s).share s = c.share s := by
      unfold share
      rw [hself, hat, show (c.remove s).accepting = c.accepting from rfl]
      rfl
    rw [hshare, sub_self, add_zero]
    rfl

/-- The sends under way are on no record. -/
theorem Records.of_posting (h : Records c) (posting : List SessionRef) :
    Records { c with posting := posting } :=
  ⟨h.nextSessionId, h.sessionId, h.down, h.once, h.sessions, h.count⟩

theorem records_post (h : Records c) : Records (c.post s) := by
  unfold post
  split
  · exact h
  · exact h.of_posting _

theorem records_wsaSend {i : Nat} {fails : Bool} (h : Records c)
    (hdown : fails = true → c.Down s) : Records (c.wsaSend s i fails) := by
  have hworld : (if fails then c.world.disconnect s else c.world) = c.world := by
    cases fails with
    | false => rfl
    | true => exact disconnect_eq (hdown rfl)
  unfold wsaSend
  rw [hworld]
  exact h.of_posting _

/-! ## Runs -/

/-- Whoever sets the flag takes the session off the records: a failed `WSASend` finds the flag set
already, and the policy refuses no session whose flag is set. -/
def Accounted (c : Connections) : RecordAction → Prop
  | .wsaSend i true => ∀ s ∈ c.posting[i]?, c.Down s
  | .reject s => ¬ c.Down s
  | _ => True

instance (c : Connections) (a : RecordAction) : Decidable (c.Accounted a) := by
  unfold Accounted
  split <;> infer_instance

/-- No accept and no disconnect is midway. -/
def Quiescent (c : Connections) : Prop :=
  ∀ s < c.nextSession, (c.accepting s = .dropped ∨ c.accepting s = .admitted) ∧
    (c.closing s = .idle ∨ c.closing s = .done)

instance (c : Connections) : Decidable c.Quiescent := by
  unfold Quiescent; infer_instance

/-- The session was accepted and the policy let it in. -/
def Admitted (c : Connections) (s : SessionRef) : Prop :=
  s < c.nextSession ∧ c.accepting s = .admitted

instance (c : Connections) (s : SessionRef) : Decidable (c.Admitted s) := by
  unfold Admitted; infer_instance

theorem records_next {a : RecordAction} (h : Records c) (hc : c.Accounted a)
    (hnext : recordNext c a = some c') : Records c' := by
  cases a with
  | add =>
    obtain rfl := Option.some.inj hnext
    exact records_add h
  | consumeToken s token =>
    obtain ⟨⟨hs, hat⟩, rfl⟩ := of_guard hnext
    exact records_consumeToken h hs hat token
  | reject s =>
    obtain ⟨⟨hs, hat⟩, rfl⟩ := of_guard hnext
    exact records_reject h hs hat hc
  | drop s =>
    obtain ⟨⟨hs, hat⟩, rfl⟩ := of_guard hnext
    exact records_drop h hs hat
  | countIn s =>
    obtain ⟨⟨hs, hat⟩, rfl⟩ := of_guard hnext
    exact records_countIn h hs hat
  | disconnect s =>
    obtain ⟨hs, rfl⟩ := of_guard hnext
    exact records_disconnect h hs
  | countOut s =>
    obtain ⟨⟨hs, hat⟩, rfl⟩ := of_guard hnext
    exact records_countOut h hs hat
  | remove s =>
    obtain ⟨⟨hs, hat⟩, rfl⟩ := of_guard hnext
    exact records_remove h hs hat
  | post s =>
    obtain ⟨-, rfl⟩ := of_guard hnext
    exact records_post h
  | wsaSend i fails =>
    simp only [recordNext] at hnext
    split at hnext
    · exact absurd hnext (by simp)
    · rename_i s hposting
      obtain rfl := Option.some.inj hnext
      refine records_wsaSend h fun hfails => ?_
      subst hfails
      exact hc s hposting

/-- In a quiescent state the map holds the sessions that are admitted and connected. -/
theorem Records.listed_iff (h : Records c) (hq : c.Quiescent) :
    c.Listed s ↔ c.Admitted s ∧ ¬ c.Down s := by
  unfold Listed Admitted
  constructor
  · rintro ⟨hs, hdropped, hdone⟩
    have hadmitted : c.accepting s = .admitted := (hq s hs).1.resolve_left hdropped
    have hidle : c.closing s = .idle := (hq s hs).2.resolve_right hdone
    refine ⟨⟨hs, hadmitted⟩, fun hdown => ?_⟩
    rcases (h.down s hs).mp hdown with hclosing | hrejected
    · exact hclosing hidle
    · unfold Rejected at hrejected
      rw [hadmitted] at hrejected
      exact absurd hrejected (by simp)
  · rintro ⟨⟨hs, hadmitted⟩, hup⟩
    refine ⟨hs, by rw [hadmitted]; simp, fun hdone => hup ?_⟩
    exact (h.down s hs).mpr (Or.inl (by rw [hdone]; simp))

/-- In a quiescent state a session counts for one if it is in the map, and for nothing else. -/
theorem Records.share_eq (h : Records c) (hq : c.Quiescent) (hs : s < c.nextSession) :
    c.share s = if c.Listed s then 1 else 0 := by
  unfold share Listed
  rcases hq s hs with ⟨hdropped | hadmitted, hidle | hdone⟩
  · simp [hdropped, hidle]
  · have hidle := h.once s hs (Or.inr hdropped)
    rw [hdone] at hidle
    exact absurd hidle (by simp)
  · simp [hs, hadmitted, hidle]
  · simp [hadmitted, hdone]

/-- **The records agree**: in every run whose steps meet `Accounted`, in every state where no accept
and no disconnect is midway, the map of `SessionManager` holds, under its id, each admitted session
that is not disconnected, and no other; and `currentConnections` is the size of the map. -/
theorem records_agree {steps : List RecordAction} (hrun : run recordNext empty steps = some c)
    (hc : Along recordNext Accounted empty steps) (hq : c.Quiescent) :
    (∀ id s, c.sessionManager.sessions.lookup id = some s ↔
      (c.Admitted s ∧ ¬ c.Down s) ∧ id = (c.world.session s).sessionId) ∧
    c.world.stats.currentConnections = UInt64.ofNat c.sessionManager.sessions.size := by
  have h : Records c :=
    run_invariant (I := Records) (fun c a c' hi hc h => records_next hi hc h) records_empty hc hrun
  constructor
  · intro id s
    rw [h.sessions, h.listed_iff hq]
    refine and_congr_right fun hlisted => ?_
    rw [h.sessionId s hlisted.1.1]
  · have hsize : c.sessionManager.sessions.size =
        ((Finset.range c.nextSession).filter c.Listed).card := by
      refine Map.size_eq_card Nat.succ_injective ?_
      intro id s
      rw [h.sessions, Finset.mem_filter, Finset.mem_range]
      exact and_congr_left fun _ => ⟨fun hlisted => ⟨hlisted.1, hlisted⟩, fun h => h.2⟩
    rw [h.count, hsize]
    exact Tally.total_of_counted count c.Listed fun s hs => h.share_eq hq hs

/-- Three sessions come and one is refused. While the first one's `HandleDisconnect` is under way, a
send to it fails. -/
def racedSend : List RecordAction :=
  [.add, .consumeToken 0 true, .countIn 0, .add, .consumeToken 1 false, .reject 1, .add, .drop 1,
    .consumeToken 2 true, .post 0, .countIn 2, .disconnect 0, .wsaSend 0 true, .countOut 0,
    .remove 0]

theorem records_agree_racedSend :
    ∃ c, run recordNext empty racedSend = some c ∧
      (∀ id s, c.sessionManager.sessions.lookup id = some s ↔
        (c.Admitted s ∧ ¬ c.Down s) ∧ id = (c.world.session s).sessionId) ∧
      c.world.stats.currentConnections = UInt64.ofNat c.sessionManager.sessions.size := by
  obtain ⟨c, hrun, hq⟩ : ∃ c, run recordNext empty racedSend = some c ∧ c.Quiescent := by decide
  exact ⟨c, hrun, records_agree hrun (by decide) hq⟩

/-- A send to a connected session fails, and its `HandleDisconnect` comes too late. A session times
out before the policy refuses it, and the counter underflows. -/
theorem record_leaked :
    (∃ c, run recordNext empty
        [.add, .consumeToken 0 true, .countIn 0, .post 0, .wsaSend 0 true, .disconnect 0] = some c ∧
      c.Quiescent ∧ c.Down 0 ∧ c.sessionManager.sessions.lookup 1 = some 0 ∧
      c.world.stats.currentConnections = 1) ∧
    (∃ c, run recordNext empty
        [.add, .disconnect 0, .countOut 0, .remove 0, .consumeToken 0 false, .reject 0,
          .drop 0] = some c ∧
      c.Quiescent ∧ c.sessionManager.sessions.size = 0 ∧
      c.world.stats.currentConnections = 18446744073709551615) := by
  decide

/-! ## The handlers without a pause -/

/-- `c` and `srv` have the same records, with every session admitted. -/
structure Shows (c : Connections) (srv : Server) : Prop where
  nextSession : c.nextSession = srv.nextSession
  sessionManager : c.sessionManager = srv.sessionManager
  currentConnections : c.world.stats.currentConnections = srv.world.stats.currentConnections
  down : ∀ s, c.Down s ↔ srv.Down s
  sessionId : ∀ s, (c.world.session s).sessionId = (srv.world.session s).sessionId
  admitted : ∀ s < c.nextSession, c.accepting s = .admitted

/-- An accept that the policy grants. -/
theorem run_accept {srv : Server} (h : c.Shows srv) :
    ∃ c', run recordNext c [.add, .consumeToken srv.nextSession true, .countIn srv.nextSession] =
      some c' ∧ c'.Shows (srv.handleAccept true) := by
  rw [← h.nextSession]
  have hadd : recordNext c .add = some c.add := rfl
  have hnext : c.nextSession < c.add.nextSession := Nat.lt_succ_self _
  have htoken : recordNext c.add (.consumeToken c.nextSession true) =
      some (c.add.consumeToken c.nextSession true) := if_pos ⟨hnext, accepting_add_self⟩
  have hcountIn : recordNext (c.add.consumeToken c.nextSession true) (.countIn c.nextSession) =
      some ((c.add.consumeToken c.nextSession true).countIn c.nextSession) :=
    if_pos ⟨hnext, Function.update_self _ _ _⟩
  refine ⟨(c.add.consumeToken c.nextSession true).countIn c.nextSession, ?_, ?_⟩
  · simp only [run, hadd, htoken, hcountIn, Option.bind_some]
  -- the session both sides create
  have hnew : c.add.world.session c.nextSession =
      (srv.handleAccept true).world.session c.nextSession := by
    rw [session_add_self, h.sessionManager, h.nextSession]
    unfold Server.handleAccept World.update Server.countIn
    simp only [if_true, Function.update_self]
  have hold : ∀ s, s ≠ c.nextSession →
      (srv.handleAccept true).world.session s = srv.world.session s := by
    intro s hs
    rw [h.nextSession] at hs
    unfold Server.handleAccept World.update Server.countIn
    simp only [if_true, Function.update_of_ne hs]
  constructor
  · exact congrArg (· + 1) h.nextSession
  · exact congrArg₂ (fun s m => SessionManager.add s m) h.nextSession h.sessionManager
  · exact congrArg (· + 1) h.currentConnections
  · intro s
    show (c.add.world.session s).disconnected = true ↔ _
    by_cases hs : s = c.nextSession
    · rw [hs, hnew]
      rfl
    · rw [session_add_ne hs]
      unfold Server.Down
      rw [hold s hs]
      exact h.down s
  · intro s
    show (c.add.world.session s).sessionId = _
    by_cases hs : s = c.nextSession
    · rw [hs, hnew]
    · rw [session_add_ne hs, hold s hs]
      exact h.sessionId s
  · intro s hs
    by_cases hts : s = c.nextSession
    · rw [hts]
      exact Function.update_self _ _ _
    · have hsame : ((c.add.consumeToken c.nextSession true).countIn c.nextSession).accepting s =
          c.add.accepting s :=
        (Function.update_of_ne hts _ _).trans (Function.update_of_ne hts _ _)
      rw [hsame, accepting_add_ne hts]
      exact h.admitted s (lt_of_add hs hts)

theorem sessionManager_disconnect {srv : Server} (h : ¬ srv.Down s) :
    (srv.handleDisconnect s).sessionManager =
      srv.sessionManager.remove (srv.world.session s).sessionId := by
  unfold Server.Down at h
  unfold Server.handleDisconnect
  rw [if_neg h]
  simp only
  split <;> rfl

theorem currentConnections_disconnect {srv : Server} (h : ¬ srv.Down s) :
    (srv.handleDisconnect s).world.stats.currentConnections =
      srv.world.stats.currentConnections - 1 := by
  unfold Server.Down at h
  unfold Server.handleDisconnect
  rw [if_neg h]
  simp only
  split <;> rfl

/-- A `HandleDisconnect`: nothing if the session is disconnected, its three writes if not. -/
theorem run_disconnect {srv : Server} (h : c.Shows srv) (hs : s < srv.nextSession) :
    ∃ c', run recordNext c (if srv.Down s then [.disconnect s]
        else [.disconnect s, .countOut s, .remove s]) = some c' ∧
      c'.Shows (srv.handleDisconnect s) := by
  rw [← h.nextSession] at hs
  have hstep : recordNext c (.disconnect s) = some (c.disconnect s) := if_pos hs
  by_cases hdown : srv.Down s
  · have hsame : c.disconnect s = c := if_pos ((h.down s).mpr hdown)
    refine ⟨c, ?_, ?_⟩
    · rw [if_pos hdown]
      simp only [run, hstep, hsame, Option.bind_some]
    · unfold Server.Down at hdown
      unfold Server.handleDisconnect
      rw [if_pos hdown]
      exact h
  · have hclose : c.disconnect s = c.close s := if_neg fun hc => hdown ((h.down s).mp hc)
    have hcount : recordNext (c.close s) (.countOut s) = some ((c.close s).countOut s) :=
      if_pos ⟨hs, Function.update_self _ _ _⟩
    have hremove : recordNext ((c.close s).countOut s) (.remove s) =
        some (((c.close s).countOut s).remove s) := if_pos ⟨hs, Function.update_self _ _ _⟩
    refine ⟨((c.close s).countOut s).remove s, ?_, ?_⟩
    · rw [if_neg hdown]
      simp only [run, hstep, hclose, hcount, hremove, Option.bind_some]
    · have hid : (((c.close s).countOut s).world.session s).sessionId =
          (srv.world.session s).sessionId := (sessionId_disconnect _ _ _).trans (h.sessionId s)
      refine ⟨h.nextSession.trans nextSession_disconnect.symm, ?_, ?_, fun t => ?_, fun t => ?_,
        h.admitted⟩
      · rw [sessionManager_disconnect hdown, ← hid, ← h.sessionManager]
        rfl
      · rw [currentConnections_disconnect hdown, ← h.currentConnections]
        rfl
      · show ((c.world.disconnect s).session t).disconnected = true ↔
          ((srv.handleDisconnect s).world.session t).disconnected = true
        by_cases hts : t = s
        · rw [hts, session_disconnect_self hdown, World.session_disconnect_self]
        · rw [session_disconnect_ne hts, World.session_disconnect_ne hts]
          exact h.down t
      · refine (sessionId_disconnect _ _ _).trans ((h.sessionId t).trans ?_)
        by_cases hts : t = s
        · rw [hts, session_disconnect_self hdown]
        · rw [session_disconnect_ne hts]

end Connections

end RealtimeServer
