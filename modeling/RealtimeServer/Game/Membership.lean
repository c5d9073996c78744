import RealtimeServer.Core.Steps

/-!
# Who is in which room

Three records say which room a session is in: the room's `m_members`, the session's room pointer,
and the leaves still queued. Two laws between them, for every run of the server from its start.

* `no_ghosts`: where nothing is queued, no member is disconnected. It holds in the runs that meet
  `GhostFree`. Without it, a session that disconnects between its `C_ROOM_ENTER` and the tick stays
  a member for good (`ghost_entered`).
* `members_pointed`: where nothing is queued, a connected member's pointer names the room it is in,
  so it is in one room only. It holds in the runs that meet `PointerSafe`. Without it, a room
  switch whose new room is ticked before the old one loses the pointer (`pointer_lost`).

Each is carried by one invariant, `Accounted` and `Pointed`: what is out of agreement has its
`HandleLeave` queued. Their conditions are decidable, and speak of the state before the step and of
the step's inputs only.
-/

namespace RealtimeServer

open Unordered Guarded

/-- No room in the map has a job queued. -/
def QueuesEmpty (srv : Server) : Prop := ∀ r, srv.rooms.Live r → (srv.room r).jobQueue = []

instance (srv : Server) : Decidable (QueuesEmpty srv) :=
  inferInstanceAs (Decidable (∀ r ∈ srv.rooms.rooms.values, (srv.room r).jobQueue = []))

/-- All room queues are empty and no validation is pending. -/
def Quiescent (srv : Server) : Prop := QueuesEmpty srv ∧ srv.auth = []

instance (srv : Server) : Decidable (Quiescent srv) := by
  unfold Quiescent; infer_instance

section

variable {cfg : Config} {srv srv' : Server} {a : Action} {env : Env} {r : RoomRef} {s : SessionRef}

/-- What a step holds in a room is an accepted session in a room that was created. -/
theorem lt_of_holds (hb : Born srv) (h : srv.Holds a r s) :
    s < srv.nextSession ∧ r < srv.rooms.heap.length := by
  rcases h with htakes | ⟨hmem, -⟩
  · refine ⟨session_of_takesIn hb htakes, ?_⟩
    obtain ⟨job, hjob, -⟩ := htakes
    exact RoomManager.lt_of_queued (mem_of_running hjob)
  · exact ⟨hb.members r s hmem, RoomManager.lt_of_member hmem⟩

theorem not_leaveQueued_of_empty (hempty : QueuesEmpty srv) (hlive : srv.rooms.Live r) :
    ¬ srv.LeaveQueued r s := by
  rintro ⟨job, hjob, -⟩
  rw [hempty r hlive] at hjob
  exact absurd hjob List.not_mem_nil

/-! ## Disconnected members -/

/-- The step takes `s` into `r` disconnected, or disconnects it where `HandleDisconnect` queues no
leave in `r`: a `WSASend` to it fails, or its pointer names another room or none. -/
def Strands (srv : Server) (step : Action × Env) (r : RoomRef) (s : SessionRef) : Prop :=
  (srv.Down s ∧ srv.TakesIn step.1 r s) ∨
    (¬ srv.Down s ∧ (step.2.SendFails s ∨ (step.1 = .disconnect s ∧ srv.roomOf s ≠ some r)))

instance (srv : Server) (step : Action × Env) (r : RoomRef) (s : SessionRef) :
    Decidable (Strands srv step r s) := by
  unfold Strands; infer_instance

/-- Where the step strands a session in a room that holds it, a leave of the session waits there. -/
def GhostFree (srv : Server) (step : Action × Env) : Prop :=
  ∀ s < srv.nextSession, ∀ r < srv.rooms.heap.length,
    srv.Holds step.1 r s → Strands srv step r s → srv.LeaveBehind step.1 r s

instance (srv : Server) (step : Action × Env) : Decidable (GhostFree srv step) := by
  unfold GhostFree; infer_instance

/-- **The invariant**: a disconnected member has its leave queued. -/
def Accounted (srv : Server) : Prop :=
  ∀ r s, s ∈ (srv.room r).members → srv.Down s → srv.LeaveQueued r s

theorem not_mem_members_empty : s ∉ (Server.empty.room r).members := by
  rw [room_empty]
  exact IterSet.not_mem_empty s

theorem accounted_empty : Accounted .empty :=
  fun _ _ hmem => absurd hmem not_mem_members_empty

theorem accounted_next (hb : Born srv) (hi : Accounted srv) (hc : GhostFree srv (a, env))
    (h : next cfg srv (a, env) = some srv') : Accounted srv' := by
  intro r s hmem hdown'
  have hholds := (members_next h).mp hmem
  obtain ⟨hs, hr⟩ := lt_of_holds hb hholds
  have heffect := sessions_next h hs
  by_cases hdown : srv.Down s
  · rcases hholds with htakes | ⟨hmem, hstays⟩
    · exact leaveQueued_of_behind h (hc s hs r hr (Or.inl htakes) (Or.inl ⟨hdown, htakes⟩))
    · exact leaveQueued_of_behind h (leaveBehind_of_queued (hi r s hmem hdown) hstays)
  · rcases heffect.failed hdown' with hdown₀ | hfails | hdisconnects
    · exact absurd hdown₀ hdown
    · exact leaveQueued_of_behind h (hc s hs r hr hholds (Or.inr ⟨hdown, Or.inl hfails⟩))
    · by_cases hroom : srv.roomOf s = some r
      · subst hdisconnects
        exact leaveQueued_disconnect h hdown hroom hr
      · exact leaveQueued_of_behind h
          (hc s hs r hr hholds (Or.inr ⟨hdown, Or.inr ⟨hdisconnects, hroom⟩⟩))

/-- **No ghosts**: in every run whose steps meet `GhostFree`, in every state where nothing is
queued and no validation is pending, every member of every room is connected. -/
theorem no_ghosts (cfg : Config) {steps : List (Action × Env)}
    (hrun : run (next cfg) .empty steps = some srv)
    (hc : Along (next cfg) GhostFree .empty steps) (hq : Quiescent srv)
    (hlive : srv.rooms.Live r) (hmem : s ∈ (srv.room r).members) :
    (srv.world.session s).disconnected = false := by
  have hend : Born srv ∧ Accounted srv :=
    run_born accounted_empty (fun _ _ _ _ hb hi hc h => accounted_next hb hi hc h) hc hrun
  refine Bool.eq_false_iff.mpr fun hdown => ?_
  exact not_leaveQueued_of_empty hq.1 hlive (hend.2 r s hmem hdown)

/-- The actions at time 1000, with nothing failing. -/
def quietly (actions : List Action) : List (Action × Env) := actions.map fun a => (a, .quiet 1000)

/-- A session is accepted, logs in and enters room `A`; another does so and leaves by closing its
connection. -/
def closedInRoom : List (Action × Env) :=
  quietly
    [.accept true, .packet 0 (.login (some [116])), .authCallback 0 true [97],
      .packet 0 (.roomEnter (some [65])), .job 0,
      .accept true, .packet 1 (.login (some [117])), .authCallback 0 true [98],
      .packet 1 (.roomEnter (some [65])), .job 0, .disconnect 1, .job 0]

theorem no_ghosts_closedInRoom :
    ∃ srv, run (next ⟨16, 30000, 60000⟩) .empty closedInRoom = some srv ∧
      0 ∈ (srv.room 0).members ∧ (srv.world.session 0).disconnected = false := by
  obtain ⟨srv, hrun, hq, hlive, hmem⟩ :
      ∃ srv, run (next ⟨16, 30000, 60000⟩) .empty closedInRoom = some srv ∧
        Quiescent srv ∧ srv.rooms.Live 0 ∧ 0 ∈ (srv.room 0).members := by decide
  exact ⟨srv, hrun, hmem, no_ghosts _ hrun (by decide) hq hlive hmem⟩

/-- A session closes its connection before the tick runs its `HandleEnter`. -/
def closedBeforeTick : List (Action × Env) :=
  quietly
    [.accept true, .packet 0 (.login (some [116])), .authCallback 0 true [97],
      .packet 0 (.roomEnter (some [65])), .disconnect 0, .job 0]

/-- It is a member for good: nothing is queued, and it is disconnected. -/
theorem ghost_entered :
    ∃ srv, run (next ⟨16, 30000, 60000⟩) .empty closedBeforeTick = some srv ∧ Quiescent srv ∧
      srv.rooms.Live 0 ∧ 0 ∈ (srv.room 0).members ∧
      (srv.world.session 0).disconnected = true := by
  decide

/-! ## Room pointers -/

/-- The step writes the pointer of `s` from the room `r`: it takes `s` in there, or takes it out. -/
def Repoints (srv : Server) (a : Action) (r : RoomRef) (s : SessionRef) : Prop :=
  srv.TakesIn a r s ∨ (srv.Leaving a r s ∧ s ∈ (srv.room r).members)

instance (srv : Server) (a : Action) (r : RoomRef) (s : SessionRef) :
    Decidable (Repoints srv a r s) := by
  unfold Repoints; infer_instance

/-- Every room but `r` that holds `s` has a leave of `s` queued. -/
def LeavesElsewhere (srv : Server) (r : RoomRef) (s : SessionRef) : Prop :=
  ∀ r' < srv.rooms.heap.length, r' ≠ r → s ∈ (srv.room r').members → srv.LeaveQueued r' s

instance (srv : Server) (r : RoomRef) (s : SessionRef) : Decidable (LeavesElsewhere srv r s) := by
  unfold LeavesElsewhere; infer_instance

/-- Where the step writes the pointer of a connected session from one room, a leave of the session
is queued in every other room that holds it. -/
def PointerSafe (srv : Server) (step : Action × Env) : Prop :=
  ∀ s < srv.nextSession, ∀ r < srv.rooms.heap.length, ¬ srv.Down s → Repoints srv step.1 r s →
    LeavesElsewhere srv r s

instance (srv : Server) (step : Action × Env) : Decidable (PointerSafe srv step) := by
  unfold PointerSafe; infer_instance

/-- **The invariant**: a connected member's pointer names the room, or its leave is queued there. -/
def Pointed (srv : Server) : Prop :=
  ∀ r s, s ∈ (srv.room r).members → ¬ srv.Down s →
    srv.roomOf s = some r ∨ srv.LeaveQueued r s

theorem pointed_empty : Pointed .empty :=
  fun _ _ hmem => absurd hmem not_mem_members_empty

/-- Only one room has a job run in a step. -/
theorem running_unique {r₁ r₂ : RoomRef} {job₁ job₂ : Job} (h₁ : job₁ ∈ srv.running a r₁)
    (h₂ : job₂ ∈ srv.running a r₂) : r₁ = r₂ :=
  Action.job.inj ((action_of_running h₁).symm.trans (action_of_running h₂))

/-- What a step does in one room, it does not do in another. -/
theorem not_leaving_elsewhere {r₀ : RoomRef} (hrepoints : Repoints srv a r₀ s) (hne : r ≠ r₀) :
    ¬ srv.Leaving a r s := by
  rintro ⟨job, hjob, -⟩
  rcases hrepoints with ⟨job₀, hjob₀, -⟩ | ⟨⟨job₀, hjob₀, -⟩, -⟩
  · exact hne (running_unique hjob hjob₀)
  · exact hne (running_unique hjob hjob₀)

theorem lt_of_repoints (hb : Born srv) (h : Repoints srv a r s) : r < srv.rooms.heap.length := by
  rcases h with htakes | ⟨-, hmem⟩
  · exact (lt_of_holds hb (Or.inl htakes)).2
  · exact RoomManager.lt_of_member hmem

theorem pointed_next (hb : Born srv) (hi : Pointed srv) (hc : PointerSafe srv (a, env))
    (h : next cfg srv (a, env) = some srv') : Pointed srv' := by
  intro r s hmem' hup'
  have hholds := (members_next h).mp hmem'
  obtain ⟨hs, hr⟩ := lt_of_holds hb hholds
  have heffect := sessions_next h hs
  have hup : ¬ srv.Down s := fun hdown => hup' (heffect.down hdown)
  rcases hholds with htakes | ⟨hmem, hstays⟩
  · exact Or.inl (heffect.takenIn r htakes)
  · -- another room's job that writes the pointer finds the leave queued here
    have helsewhere : ∀ r₀, Repoints srv a r₀ s → r₀ ≠ r → srv'.LeaveQueued r s := by
      intro r₀ hrepoints hne
      have hqueued := hc s hs r₀ (lt_of_repoints hb hrepoints) hup hrepoints r hr hne.symm hmem
      exact leaveQueued_of_behind h
        (leaveBehind_of_queued hqueued (not_leaving_elsewhere hrepoints hne.symm))
    rcases hi r s hmem hup with hpointer | hqueued
    · rcases heffect.room with hsame | ⟨r₀, htakes⟩ | ⟨hnone, ⟨r₀, hleaves⟩ | hdisconnects⟩
      · exact Or.inl (hsame.trans hpointer)
      · by_cases hr₀ : r₀ = r
        · exact Or.inl (heffect.takenIn r (hr₀ ▸ htakes))
        · exact Or.inr (helsewhere r₀ (Or.inl htakes) hr₀)
      · refine Or.inr (helsewhere r₀ (Or.inr hleaves) ?_)
        rintro rfl
        exact hstays hleaves.1
      · subst hdisconnects
        exact absurd (down_disconnect h) hup'
    · exact Or.inr (leaveQueued_of_behind h (leaveBehind_of_queued hqueued hstays))

/-- **Pointers name the room**: in every run whose steps meet `PointerSafe`, in every state where no
room job is queued, a connected member's pointer names the room, which is the only one it is in. -/
theorem members_pointed (cfg : Config) {steps : List (Action × Env)}
    (hrun : run (next cfg) .empty steps = some srv)
    (hc : Along (next cfg) PointerSafe .empty steps) (hq : QueuesEmpty srv)
    (hup : (srv.world.session s).disconnected = false) (hlive : srv.rooms.Live r)
    (hmem : s ∈ (srv.room r).members) :
    (srv.world.session s).room = some r ∧
      ∀ r', srv.rooms.Live r' → s ∈ (srv.room r').members → r' = r := by
  have hend : Born srv ∧ Pointed srv :=
    run_born pointed_empty (fun _ _ _ _ hb hi hc h => pointed_next hb hi hc h) hc hrun
  have hpoints : ∀ r, srv.rooms.Live r → s ∈ (srv.room r).members → srv.roomOf s = some r := by
    intro r hlive hmem
    rcases hend.2 r s hmem (Bool.eq_false_iff.mp hup) with hpointer | hqueued
    · exact hpointer
    · exact absurd hqueued (not_leaveQueued_of_empty hq hlive)
  refine ⟨hpoints r hlive hmem, fun r' hlive' hmem' => ?_⟩
  exact Option.some.inj ((hpoints r' hlive' hmem').symm.trans (hpoints r hlive hmem))

/-- A session enters room `A`, then switches to room `B`. -/
def switchTo (ticks : List Action) : List (Action × Env) :=
  quietly
    ([.accept true, .packet 0 (.login (some [116])), .authCallback 0 true [97],
      .packet 0 (.roomEnter (some [65])), .job 0, .packet 0 (.roomEnter (some [66]))] ++ ticks)

/-- Ticking the old room first, the pointer names the new one. -/
theorem members_pointed_switch :
    ∃ srv, run (next ⟨16, 30000, 60000⟩) .empty (switchTo [.job 0, .job 1]) = some srv ∧
      1 ∈ srv.rooms.rooms.values ∧ 0 ∈ (srv.room 1).members ∧
      (srv.world.session 0).room = some 1 := by
  obtain ⟨srv, hrun, hq, hup, hlive, hmem⟩ :
      ∃ srv, run (next ⟨16, 30000, 60000⟩) .empty (switchTo [.job 0, .job 1]) = some srv ∧
        QueuesEmpty srv ∧ (srv.world.session 0).disconnected = false ∧ srv.rooms.Live 1 ∧
        0 ∈ (srv.room 1).members := by decide
  exact ⟨srv, hrun, hlive, hmem, (members_pointed _ hrun (by decide) hq hup hlive hmem).1⟩

/-- Ticking the new room first, the session is in it and its pointer names none. -/
theorem pointer_lost :
    ∃ srv, run (next ⟨16, 30000, 60000⟩) .empty (switchTo [.job 1, .job 0]) = some srv ∧
      QueuesEmpty srv ∧ (srv.world.session 0).disconnected = false ∧ srv.rooms.Live 1 ∧
      0 ∈ (srv.room 1).members ∧ (srv.world.session 0).room = none := by
  decide

end

end RealtimeServer
