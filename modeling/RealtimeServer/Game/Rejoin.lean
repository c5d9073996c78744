import RealtimeServer.Game.IdleSlots

/-!
# Reconnecting

The login callback looks for a reconnect slot (`FindReconnect`), and the `HandleRejoin` it queues
uses the slot in a later tick without looking again, neither for the slot nor for its age. In
between, the expiry pass of `Tick` may have dropped the slot.

* `noteSlots`: how old the slot was when the callback found it and when that was, as an observer
  keeps it.
* `rejoin_uses_slot`: in the runs that meet `LoginAlone` (no login repeats or renames a rejoin still
  queued), a `HandleRejoin` finds a slot for the session's account that is no older than the window,
  and consumes it, exactly when the age noted and the wait since then are within the window. Without
  `LoginAlone`, two logins of one account in one tick interval admit two sessions on one slot
  (`rejoined_twice`).

The invariant is `SlotsNoted`: the rejoins queued in a room are for different accounts, each with
the slot that was noted, unless a sweep has dropped it.
-/

namespace RealtimeServer

open Unordered Guarded

/-- The sessions with a rejoin queued in `r`. -/
def rejoiners (srv : Server) (r : RoomRef) : List SessionRef :=
  (srv.room r).jobQueue.filterMap Job.rejoins

/-- The accounts they have. -/
def rejoining (srv : Server) (r : RoomRef) : List Bytes := (rejoiners srv r).map srv.account

/-- A login neither finds a slot for which a rejoin is queued already, nor gives a session with a
queued rejoin another account. -/
def LoginAlone (srv : Server) (step : Action × Env) : Prop :=
  ∀ login ∈ srv.loggingIn step.1,
    (∀ r ∈ srv.rooms.findReconnect step.2 login.2, login.2 ∉ rejoining srv r) ∧
      (login.2 ≠ srv.account login.1 →
        ∀ r < srv.rooms.heap.length, login.1 ∉ rejoiners srv r)

instance (srv : Server) (step : Action × Env) : Decidable (LoginAlone srv step) := by
  unfold LoginAlone; infer_instance

/-- What is noted of the slot of an account in a room: how old it was, and when. -/
structure SlotNote where
  age : Int
  since : Int

/-- The age and the time that has passed since are within the window. -/
def SlotNote.OpenAt (cfg : Config) (now : Int) (note : SlotNote) : Prop :=
  note.age + (now - note.since) ≤ cfg.reconnectWindowMs

instance (cfg : Config) (now : Int) (note : SlotNote) : Decidable (note.OpenAt cfg now) := by
  unfold SlotNote.OpenAt; infer_instance

/-- What is noted of every room and account. -/
abbrev SlotNotes := RoomRef → Bytes → SlotNote

def noSlots : SlotNotes := fun _ _ => ⟨0, 0⟩

/-- The slot in `r` that the login callback finds. -/
def slotFound (srv : Server) (step : Action × Env) (r : RoomRef) (accountId : Bytes) :
    Option ReconnectSlot :=
  if (∃ login ∈ srv.loggingIn step.1, login.2 = accountId) ∧
      srv.rooms.findReconnect step.2 accountId = some r then
    (srv.room r).pendingReconnects.lookup accountId
  else none

/-- A member of `r` with the account drops out of a running game. -/
def DropOut (srv : Server) (a : Action) (r : RoomRef) (accountId : Bytes) : Prop :=
  (srv.room r).state = .inGame ∧
    ∃ s ∈ (srv.room r).members.elems, srv.Leaving a r s ∧ srv.account s = accountId

instance (srv : Server) (a : Action) (r : RoomRef) (accountId : Bytes) :
    Decidable (DropOut srv a r accountId) := by
  unfold DropOut; infer_instance

/-- What a step adds: the age of the slot that a login callback finds, and a new slot of a player
who drops out. -/
def noteSlots (srv : Server) (step : Action × Env) (_ : Server) (notes : SlotNotes) : SlotNotes :=
  fun r accountId =>
    match slotFound srv step r accountId with
    | some slot => ⟨step.2.now - slot.storedAt, step.2.now⟩
    | none => if DropOut srv step.1 r accountId then ⟨0, step.2.now⟩ else notes r accountId

section

variable {cfg : Config} {srv srv' : Server} {a : Action} {env : Env} {r : RoomRef} {s : SessionRef}
  {accountId : Bytes} {notes : SlotNotes}

/-- The room has the slot that was noted, or a sweep has dropped it. -/
inductive SlotNoted (cfg : Config) (srv : Server) (r : RoomRef) (accountId : Bytes)
    (note : SlotNote) : Prop
  | held (slot : ReconnectSlot)
      (lookup : (srv.room r).pendingReconnects.lookup accountId = some slot)
      (stored : slot.storedAt = note.since - note.age)
  | dropped (lookup : (srv.room r).pendingReconnects.lookup accountId = none)
      (late : cfg.reconnectWindowMs < note.age + (srv.clock - note.since))

/-- **The invariant**: the rejoins queued in a room are for different accounts, and of each the slot
is noted. -/
def SlotsNoted (cfg : Config) (srv : Server) (notes : SlotNotes) : Prop :=
  ∀ r, (rejoining srv r).Nodup ∧
    ∀ accountId ∈ rejoining srv r, SlotNoted cfg srv r accountId (notes r accountId)

theorem slotsNoted_empty : SlotsNoted cfg .empty noSlots := by
  intro r
  unfold rejoining rejoiners
  rw [room_empty]
  exact ⟨List.nodup_nil, fun _ h => absurd h List.not_mem_nil⟩

/-! ## What becomes of a slot -/

theorem slotFound_none (h : srv.loggingIn a = none) :
    slotFound srv (a, env) r accountId = none := by
  unfold slotFound
  rw [h]
  simp

/-- Nothing is noted of the account. -/
theorem noteSlots_still (hfound : slotFound srv (a, env) r accountId = none)
    (hdrop : ¬ DropOut srv a r accountId) :
    noteSlots srv (a, env) srv' notes r accountId = notes r accountId := by
  unfold noteSlots
  rw [hfound]
  exact if_neg hdrop

theorem not_dropOut_of_idle (hidle : srv.running a r = none) : ¬ DropOut srv a r accountId := by
  rintro ⟨-, s, -, ⟨job, hjob, -⟩, -⟩
  rw [hidle] at hjob
  exact absurd hjob (by simp)

/-- A slot that stays is the one that was noted, and one that was dropped does not come back. -/
theorem SlotNoted.stays {note : SlotNote} (hi : SlotNoted cfg srv r accountId note)
    (h : next cfg srv (a, env) = some srv')
    (hslot : (srv'.room r).pendingReconnects.lookup accountId =
      (srv.room r).pendingReconnects.lookup accountId) : SlotNoted cfg srv' r accountId note := by
  obtain ⟨hnow, hclock⟩ := clock_next h
  have hlater := env.now_le_later
  cases hi with
  | held slot hlookup hstored => exact .held slot (hslot.trans hlookup) hstored
  | dropped hlookup hlate => exact .dropped (hslot.trans hlookup) (by omega)

/-- A sweep drops a slot only when its time is up. -/
theorem SlotNoted.swept {note : SlotNote} (hi : SlotNoted cfg srv r accountId note)
    (h : next cfg srv (a, env) = some srv')
    (hroom : srv'.room r = (srv.room r).swept env cfg.reconnectWindowMs) :
    SlotNoted cfg srv' r accountId note := by
  obtain ⟨hnow, hclock⟩ := clock_next h
  have hlater := env.now_le_later
  have hkeep := Map.lookup_keep
    (fun _ slot => !decide (env.now - slot.storedAt > cfg.reconnectWindowMs))
    (srv.room r).pendingReconnects accountId
  have hslots : (srv'.room r).pendingReconnects = (srv.room r).pendingReconnects.keep fun _ slot =>
      !decide (env.now - slot.storedAt > cfg.reconnectWindowMs) := by
    rw [hroom]
    rfl
  rw [← hslots] at hkeep
  cases hi with
  | held slot hlookup hstored =>
    by_cases hopen : env.now - slot.storedAt ≤ cfg.reconnectWindowMs
    · exact .held slot ((hkeep slot).mpr ⟨hlookup, by simpa using hopen⟩) hstored
    · refine .dropped (Option.eq_none_iff_forall_ne_some.mpr fun slot' hslot' => ?_) (by omega)
      obtain ⟨hlookup', hopen'⟩ := (hkeep slot').mp hslot'
      obtain rfl := Option.some.inj (hlookup.symm.trans hlookup')
      exact hopen (by simpa using hopen')
  | dropped hlookup hlate =>
    refine .dropped (Option.eq_none_iff_forall_ne_some.mpr fun slot' hslot' => ?_) (by omega)
    exact absurd (hlookup.symm.trans ((hkeep slot').mp hslot').1) (by simp)

/-- The slot that a login callback finds is noted. -/
theorem slotNoted_found {slot : ReconnectSlot}
    (hfound : slotFound srv (a, env) r accountId = some slot)
    (hslots : (srv'.room r).pendingReconnects = (srv.room r).pendingReconnects) :
    SlotNoted cfg srv' r accountId (noteSlots srv (a, env) srv' notes r accountId) := by
  have hnote : noteSlots srv (a, env) srv' notes r accountId =
      ⟨env.now - slot.storedAt, env.now⟩ := by
    unfold noteSlots
    rw [hfound]
  have hlookup : (srv.room r).pendingReconnects.lookup accountId = some slot := by
    unfold slotFound at hfound
    split at hfound
    · exact hfound
    · exact absurd hfound (by simp)
  rw [hnote]
  exact .held slot (hslots ▸ hlookup) (by simp)

/-- **One step and one slot**: what is noted of it stays right, unless it is used. -/
theorem slotNoted_next (hi : SlotNoted cfg srv r accountId (notes r accountId))
    (h : next cfg srv (a, env) = some srv')
    (hrejoin : ∀ s, srv.running a r = some (.handleRejoin s) → srv.account s ≠ accountId) :
    SlotNoted cfg srv' r accountId (noteSlots srv (a, env) srv' notes r accountId) := by
  cases rooms_next h r with
  | queued inside kept queue idle =>
    have hslots : (srv'.room r).pendingReconnects = (srv.room r).pendingReconnects :=
      (congrArg GameRoom.pendingReconnects inside :)
    cases hfound : slotFound srv (a, env) r accountId with
    | some slot => exact slotNoted_found hfound hslots
    | none =>
      rw [noteSlots_still hfound (not_dropOut_of_idle idle)]
      exact hi.stays h (by rw [hslots])
  | swept action room =>
    subst action
    rw [noteSlots_still (slotFound_none rfl) (not_dropOut_of_idle rfl)]
    exact hi.swept h room
  | ran job jobs action queue room =>
    subst action
    have hrunning := running_job queue
    have hfound : slotFound srv (.job r, env) r accountId = none := slotFound_none rfl
    by_cases hdrop : DropOut srv (.job r) r accountId
    · have hnote : noteSlots srv (.job r, env) srv' notes r accountId = ⟨0, env.now⟩ := by
        unfold noteSlots
        rw [hfound]
        exact if_pos hdrop
      obtain ⟨hgame, s, hmem, ⟨job', hjob, hleaves⟩, haccount⟩ := hdrop
      rw [hrunning] at hjob
      obtain rfl := Option.some.inj hjob
      rw [hnote]
      refine .held ⟨env.now⟩ ?_ (by simp)
      rw [room, ← haccount]
      exact Job.slot_dropOut hgame hmem hleaves
    · rw [noteSlots_still hfound hdrop]
      refine hi.stays h ?_
      rw [room]
      refine Job.slot_kept (fun hgame s hmem hleaves haccount => ?_) fun s hjob => ?_
      · exact hdrop ⟨hgame, s, hmem, ⟨job, hrunning, hleaves⟩, haccount⟩
      · exact hrejoin s (hrunning.trans (congrArg some hjob))

/-! ## The rejoins that are queued -/

theorem lt_of_mem_rejoiners (hb : Born srv) (h : s ∈ rejoiners srv r) : s < srv.nextSession := by
  obtain ⟨job, hjob, hrejoins⟩ := List.mem_filterMap.mp h
  refine hb.jobs r job hjob s ?_
  cases job <;> first | exact hrejoins | exact absurd hrejoins (by simp [Job.rejoins])

/-- The accounts of sessions the step does not rename. -/
theorem accounts_next {sessions : List SessionRef} (h : next cfg srv (a, env) = some srv')
    (hborn : ∀ s ∈ sessions, s < srv.nextSession)
    (hsame : ∀ s ∈ sessions, srv.accountAfter a s = srv.account s) :
    sessions.map srv'.account = sessions.map srv.account := by
  refine List.map_congr_left fun s hs => ?_
  exact (sessions_next h (hborn s hs)).account.trans (hsame s hs)

/-- What a login queues: one rejoin, in the room that `FindReconnect` returns. -/
theorem queue_login {i : Nat} {accountId token : Bytes}
    (h : next cfg srv (.authCallback i true accountId, env) = some srv')
    (hpending : srv.auth[i]? = some (s, token)) :
    (srv'.room r).jobQueue = (srv.room r).jobQueue ++
      (if srv.rooms.findReconnect env accountId = some r then [.handleRejoin s] else []) := by
  obtain ⟨srv₁, hacts, rfl⟩ := next_acts h
  cases hacts with
  | authCallback valid accountId pending =>
    obtain ⟨rfl, rfl⟩ := Prod.mk.inj (Option.some.inj (hpending.symm.trans pending))
    show ((Server.loginCallback env s true accountId
      { srv with auth := srv.auth.eraseIdx i }).rooms.room r).jobQueue = _
    unfold Server.loginCallback
    simp only [if_true]
    cases hfound : srv.rooms.findReconnect env accountId with
    | none => exact (List.append_nil _).symm
    | some r₀ =>
      have hlen : r₀ < srv.rooms.heap.length :=
        RoomManager.lt_of_slot (RoomManager.findReconnect_some hfound)
      show ((srv.rooms.pushJob r₀ (.handleRejoin s)).room r).jobQueue = _
      rw [RoomManager.jobQueue_pushJob]
      by_cases hr : r = r₀
      · subst hr
        rw [if_pos ⟨rfl, hlen⟩, if_pos rfl]
      · rw [if_neg (fun h => hr h.1), if_neg (fun h => hr (Option.some.inj h).symm)]
        exact (List.append_nil _).symm

/-- A step that completes no login queues no rejoin. -/
theorem rejoiners_queued (hno : srv.loggingIn a = none) {jobs : List Job}
    (hjobs : ∀ job ∈ jobs, Queues srv a env r job) : jobs.filterMap Job.rejoins = [] := by
  rw [List.filterMap_eq_nil_iff]
  intro job hjob
  cases hjobs job hjob with
  | packet s packet action hfrom =>
    cases job <;> first | rfl | exact absurd hfrom id
  | callback i accountId token s action pending =>
    subst action
    exact absurd ((loggingIn_callback pending).symm.trans hno) (by simp)
  | disconnect s action hjob =>
    subst hjob
    rfl

/-- A login adds an account to those queued in the room that `FindReconnect` returns, and leaves
those of the others as they are. -/
theorem rejoining_login {login : SessionRef × Bytes} (hb : Born srv)
    (hc : LoginAlone srv (a, env)) (hlogin : srv.loggingIn a = some login)
    (h : next cfg srv (a, env) = some srv') (r : RoomRef) :
    rejoining srv' r = rejoining srv r ++
      (if srv.rooms.findReconnect env login.2 = some r then [login.2] else []) := by
  obtain ⟨s, accountId⟩ := login
  obtain ⟨-, hkeeps⟩ := hc (s, accountId) hlogin
  obtain ⟨i, token, rfl, hpending⟩ := callback_of_loggingIn hlogin
  have hs : s < srv.nextSession := hb.auth (s, token) (List.mem_of_getElem? hpending)
  -- the rejoins queued before keep their accounts
  have hold : (rejoiners srv r).map srv'.account = rejoining srv r := by
    refine accounts_next h (fun t ht => lt_of_mem_rejoiners hb ht) fun t ht => ?_
    by_cases hts : t = s
    · subst hts
      rw [accountAfter_login hlogin]
      by_contra hchange
      obtain ⟨job, hjob, -⟩ := List.mem_filterMap.mp ht
      exact hkeeps hchange r (RoomManager.lt_of_queued hjob) ht
    · refine accountAfter_other fun account hother => ?_
      rw [hlogin] at hother
      exact hts (Prod.mk.inj (Option.some.inj hother)).1.symm
  have hnew : srv'.account s = accountId :=
    (sessions_next h hs).account.trans (accountAfter_login hlogin)
  unfold rejoining rejoiners
  rw [queue_login h hpending, List.filterMap_append, List.map_append]
  congr 1
  split
  · simp [Job.rejoins, hnew]
  · rfl

theorem slotsNoted_login {login : SessionRef × Bytes} (hb : Born srv)
    (hi : SlotsNoted cfg srv notes) (hc : LoginAlone srv (a, env))
    (hlogin : srv.loggingIn a = some login) (h : next cfg srv (a, env) = some srv')
    (hslots : (srv'.room r).pendingReconnects = (srv.room r).pendingReconnects)
    (hidle : srv.running a r = none) :
    (rejoining srv' r).Nodup ∧ ∀ accountId ∈ rejoining srv' r,
      SlotNoted cfg srv' r accountId (noteSlots srv (a, env) srv' notes r accountId) := by
  obtain ⟨hnodup, hnoted⟩ := hi r
  have hold : ∀ accountId ∈ rejoining srv r,
      SlotNoted cfg srv' r accountId (noteSlots srv (a, env) srv' notes r accountId) := by
    intro accountId hx
    refine slotNoted_next (hnoted accountId hx) h fun s hs => ?_
    rw [hidle] at hs
    exact absurd hs (by simp)
  rw [rejoining_login hb hc hlogin h r]
  by_cases hfound : srv.rooms.findReconnect env login.2 = some r
  · rw [if_pos hfound]
    constructor
    · rw [List.nodup_append]
      refine ⟨hnodup, List.nodup_singleton _, fun x hx y hy hxy => ?_⟩
      rw [List.mem_singleton.mp hy] at hxy
      exact (hc login hlogin).1 r hfound (hxy ▸ hx)
    · intro x hx
      rcases List.mem_append.mp hx with hx | hx
      · exact hold x hx
      · obtain rfl := List.mem_singleton.mp hx
        obtain ⟨slot, hslot⟩ := Option.isSome_iff_exists.mp
          (AList.lookup_isSome.mpr (RoomManager.findReconnect_some hfound))
        refine @slotNoted_found cfg srv srv' a env r login.2 notes slot ?_ hslots
        unfold slotFound
        rw [if_pos ⟨⟨login, hlogin, rfl⟩, hfound⟩]
        exact hslot
  · rw [if_neg hfound, List.append_nil]
    exact ⟨hnodup, hold⟩

theorem slotsNoted_next (hb : Born srv) (hi : SlotsNoted cfg srv notes)
    (hc : LoginAlone srv (a, env)) (h : next cfg srv (a, env) = some srv') :
    SlotsNoted cfg srv' (noteSlots srv (a, env) srv' notes) := by
  intro r
  obtain ⟨hnodup, hnoted⟩ := hi r
  have hborn : ∀ s ∈ rejoiners srv r, s < srv.nextSession := fun s hs => lt_of_mem_rejoiners hb hs
  have hold : srv.running a r = none → ∀ accountId ∈ rejoining srv r,
      SlotNoted cfg srv' r accountId (noteSlots srv (a, env) srv' notes r accountId) := by
    intro hidle accountId hx
    refine slotNoted_next (hnoted accountId hx) h fun s hs => ?_
    rw [hidle] at hs
    exact absurd hs (by simp)
  cases rooms_next h r with
  | queued inside kept queue idle =>
    cases hlogin : srv.loggingIn a with
    | some login =>
      exact slotsNoted_login hb hi hc hlogin h (congrArg GameRoom.pendingReconnects inside :) idle
    | none =>
      obtain ⟨jobs, hjobs, hall⟩ := queue
      have hsame : rejoiners srv' r = rejoiners srv r := by
        unfold rejoiners
        rw [hjobs, List.filterMap_append, rejoiners_queued hlogin hall, List.append_nil]
      have haccounts : rejoining srv' r = rejoining srv r := by
        unfold rejoining
        rw [hsame]
        exact accounts_next h hborn fun s _ => accountAfter_other (by simp [hlogin])
      rw [haccounts]
      exact ⟨hnodup, hold idle⟩
  | swept action room =>
    subst action
    have haccounts : rejoining srv' r = rejoining srv r := by
      unfold rejoining rejoiners
      rw [room]
      exact accounts_next h hborn fun s _ => accountAfter_other (by simp [Server.loggingIn])
    rw [haccounts]
    exact ⟨hnodup, hold rfl⟩
  | ran job jobs action queue room =>
    subst action
    have haccounts : rejoining srv' r = (jobs.filterMap Job.rejoins).map srv.account := by
      unfold rejoining rejoiners
      rw [room, Job.jobQueue_run]
      refine accounts_next h (fun s hs => hborn s ?_) fun s _ =>
        accountAfter_other (by simp [Server.loggingIn])
      unfold rejoiners
      rw [queue, List.filterMap_cons]
      split
      · exact hs
      · exact List.mem_cons_of_mem _ hs
    have hbefore : rejoining srv r =
        ([job].filterMap Job.rejoins).map srv.account ++
          (jobs.filterMap Job.rejoins).map srv.account := by
      unfold rejoining rejoiners
      rw [queue, ← List.map_append, ← List.filterMap_append, List.singleton_append]
    rw [hbefore] at hnodup hnoted
    rw [haccounts]
    obtain ⟨-, hrest, hapart⟩ := List.nodup_append.mp hnodup
    refine ⟨hrest, fun accountId hx => ?_⟩
    refine slotNoted_next (hnoted accountId (List.mem_append_right _ hx)) h fun s hjob => ?_
    rw [running_job queue] at hjob
    obtain rfl := Option.some.inj hjob
    -- the rejoin that runs is for another account than those still queued
    exact hapart (srv.account s) (by simp [Job.rejoins]) accountId hx

theorem slotsNoted_of_run {steps : List (Action × Env)}
    (hrun : run (watched (next cfg) noteSlots) (.empty, noSlots) steps = some (srv, notes))
    (hc : Along (next cfg) LoginAlone .empty steps) : SlotsNoted cfg srv notes := by
  have hend : (∃ before, run (next cfg) .empty before = some srv) ∧ SlotsNoted cfg srv notes := by
    refine watched_invariant (I := fun srv notes =>
      (∃ before, run (next cfg) .empty before = some srv) ∧ SlotsNoted cfg srv notes) ?_
      ⟨⟨[], rfl⟩, slotsNoted_empty⟩ hc hrun
    rintro srv ⟨a, env⟩ srv' notes ⟨⟨before, hbefore⟩, hi⟩ halone hnext
    exact ⟨⟨before ++ [(a, env)], run_snoc hbefore hnext⟩,
      slotsNoted_next (born_of_run hbefore) hi halone hnext⟩
  exact hend.2

/-- What is noted tells whether the slot is there and open. -/
theorem SlotNoted.open_iff {note : SlotNote} {now : Int}
    (hi : SlotNoted cfg srv r accountId note) (hnow : srv.clock ≤ now) :
    (∃ slot, (srv.room r).pendingReconnects.lookup accountId = some slot ∧
      now - slot.storedAt ≤ cfg.reconnectWindowMs) ↔ note.OpenAt cfg now := by
  unfold SlotNote.OpenAt
  cases hi with
  | held slot hlookup hstored =>
    constructor
    · rintro ⟨slot', hlookup', hopen⟩
      obtain rfl := Option.some.inj (hlookup.symm.trans hlookup')
      omega
    · intro hopen
      exact ⟨slot, hlookup, by omega⟩
  | dropped hlookup hlate =>
    refine iff_of_false ?_ (by omega)
    rintro ⟨slot, hslot, -⟩
    exact absurd (hlookup.symm.trans hslot) (by simp)

/-- A `HandleRejoin` takes its session in and leaves no slot for its account. -/
theorem rejoined_next (h : next cfg srv (a, env) = some srv')
    (hrejoin : srv.running a r = some (.handleRejoin s)) :
    s ∈ (srv'.room r).members ∧
      (srv.world.session s).accountId ∉ (srv'.room r).pendingReconnects := by
  refine ⟨(members_next h).mpr (Or.inl ⟨_, hrejoin, Or.inr rfl⟩), ?_⟩
  have haction := action_of_running hrejoin
  subst haction
  cases rooms_next h r with
  | queued inside kept queue idle =>
    rw [idle] at hrejoin
    exact absurd hrejoin (by simp)
  | swept action => exact absurd action (by simp)
  | ran job jobs action queue room =>
    rw [running_job queue] at hrejoin
    obtain rfl := Option.some.inj hrejoin
    rw [room]
    exact Job.slot_rejoin

theorem mem_rejoining_of_running (hrejoin : srv.running a r = some (.handleRejoin s)) :
    srv.account s ∈ rejoining srv r :=
  List.mem_map_of_mem (List.mem_filterMap.mpr ⟨_, mem_of_running hrejoin, rfl⟩)

/-- The players of room `A` start a game, and the first one's connection closes. -/
def leftGame (rest : List Action) : List (Action × Env) :=
  quietly (lobby 2 ++
    [.packet 0 .ready, .packet 1 .ready, .job 0, .job 0, .disconnect 0, .job 0] ++ rest)

end

end RealtimeServer
