import RealtimeServer.Game.Membership

/-!
# Which rooms are idle

`RemoveIdleRooms` looks at `m_emptySinceMs` and nothing else: at neither the members of the room nor
the sessions that point to it. Three records of who is in a room (the pointer of a session, the
members of a room, the time the room was left empty), and what they say about each other in every
run of the server in which the clock reads more than `0`.

* `pointedIn_next`, `live_next`, `occupied_next`, `stamp_next`: what a step keeps.
* `roomHeld_of_run`, `pointedIn_of_run`: what holds of rooms and pointers whatever the clock reads.
* **`room_records`**: a pointer names a room in the map that has the session as a member; a time is
  noted in a room that has no member; without one, the room has a member or never had any; and
  `RemoveIdleRooms` leaves every room that has a member or is pointed to.
-/

namespace RealtimeServer

open Unordered Guarded

section

variable {cfg : Config} {srv srv' : Server} {a : Action} {env : Env} {r : RoomRef} {s : SessionRef}

/-! ## Pointers -/

/-- A session's pointer names a room in the map that it is a member of. -/
def PointedIn (srv : Server) : Prop :=
  ∀ s r, srv.roomOf s = some r → srv.rooms.Live r ∧ s ∈ (srv.room r).members

theorem roomOf_accept {token : Bool} (h : (srv.handleAccept token).roomOf s = some r) :
    srv.roomOf s = some r := by
  unfold Server.handleAccept at h
  cases token with
  | false => exact h
  | true =>
    by_cases hs : s = srv.nextSession
    · subst hs
      change (Function.update srv.world.session srv.nextSession _ srv.nextSession).room = some r
        at h
      rw [Function.update_self] at h
      exact absurd h (by simp [ServerSession.new])
    · change (Function.update srv.world.session srv.nextSession _ s).room = some r at h
      rwa [Function.update_of_ne hs] at h

/-- A pointer was there before the step, or the step has taken the session in. -/
theorem roomOf_next (h : next cfg srv (a, env) = some srv') (hroom : srv'.roomOf s = some r) :
    srv.roomOf s = some r ∨ srv.TakesIn a r s := by
  by_cases haccept : ∃ token, a = .accept token
  · obtain ⟨token, rfl⟩ := haccept
    obtain ⟨srv₁, hacts, rfl⟩ := next_acts h
    cases hacts with
    | accept => exact Or.inl (roomOf_accept hroom)
  · have heffect := sessionEffect_next (s := s) h fun token ha => absurd ⟨token, ha⟩ haccept
    rcases heffect.room with hsame | ⟨r', htakes⟩ | ⟨hnone, -⟩
    · exact Or.inl (hsame.symm.trans hroom)
    · have hr : some r' = some r := (heffect.takenIn r' htakes).symm.trans hroom
      exact Or.inr (Option.some.inj hr ▸ htakes)
    · exact absurd (hnone.symm.trans hroom) (by simp)

/-! ## Rooms in the map -/

theorem live_calls (h : HandlerCalls cfg env s srv srv') (hlive : srv.rooms.Live r) :
    srv'.rooms.Live r := by
  induction h with
  | refl srv => exact hlive
  | trans h h' ih ih' => exact ih' (ih hlive)
  | send srv answers => exact hlive
  | sendRaw srv answers => exact hlive
  | pushJob srv own => exact hlive
  | getOrCreate srv name => exact RoomManager.live_getOrCreate hlive
  | validateAsync srv token => exact hlive

theorem live_callback {valid : Bool} {accountId : Bytes} (hlive : srv.rooms.Live r) :
    (srv.loginCallback env s valid accountId).rooms.Live r := by
  unfold Server.loginCallback
  cases valid with
  | false => exact hlive
  | true =>
    simp only [if_true]
    split
    · exact hlive
    · exact hlive

theorem live_disconnect (hlive : srv.rooms.Live r) : (srv.handleDisconnect s).rooms.Live r := by
  unfold Server.handleDisconnect
  split
  · exact hlive
  · simp only
    split
    · exact hlive
    · exact hlive

/-- Only `RemoveIdleRooms` takes a room out of the map, and only one that is idle. -/
theorem live_next (h : next cfg srv (a, env) = some srv') (hlive : srv.rooms.Live r)
    (hkept : a = .removeIdleRooms →
      ¬ RoomManager.IdleExpired env.now cfg.idleRoomTimeoutMs (srv.room r)) :
    srv'.rooms.Live r := by
  obtain ⟨srv₁, hacts, rfl⟩ := next_acts h
  show srv₁.rooms.Live r
  cases hacts with
  | accept token =>
    unfold Server.handleAccept
    cases token with
    | false => exact hlive
    | true => exact hlive
  | packet packet accepted => exact live_calls (calls_packet cfg packet srv) hlive
  | authCallback valid accountId pending => exact live_callback hlive
  | disconnect accepted => exact live_disconnect hlive
  | job queue => exact hlive
  | tickEnd => exact hlive
  | removeIdleRooms => exact RoomManager.live_removeIdleRooms.mpr ⟨hlive, hkept rfl⟩

/-- A room whose job is run is in the map. -/
theorem live_of_takesIn (h : next cfg srv (a, env) = some srv') (htakes : srv.TakesIn a r s) :
    srv.rooms.Live r ∧ a = .job r := by
  obtain ⟨job, hjob, -⟩ := htakes
  obtain rfl := action_of_running hjob
  refine ⟨?_, rfl⟩
  by_contra hdead
  unfold next at h
  simp [act, hdead] at h

/-- A room with a member is not idle, a leave that takes a member out clears its pointer, and a job
that takes a session in points it to its room. -/
theorem pointedIn_next (hi : PointedIn srv)
    (hoccupied : ∀ r, ∀ s ∈ (srv.room r).members, (srv.room r).emptySinceMs = 0)
    (h : next cfg srv (a, env) = some srv') : PointedIn srv' := by
  intro s r hroom
  rw [members_next h]
  rcases roomOf_next h hroom with hold | htakes
  · obtain ⟨hlive, hmem⟩ := hi s r hold
    refine ⟨live_next h hlive fun _ hidle => ?_, Or.inr ⟨hmem, fun hleaving => ?_⟩⟩
    · exact absurd hidle.1 (hoccupied r s hmem ▸ lt_irrefl _)
    · have hnone := roomOf_leave h hleaving hmem
      rw [hroom] at hnone
      exact absurd hnone (by simp)
  · obtain ⟨hlive, rfl⟩ := live_of_takesIn h htakes
    exact ⟨live_next h hlive fun ha => absurd ha (by simp), Or.inl htakes⟩

/-! ## The time a room was left empty -/

/-- No time is noted in a room that has a member. -/
def Occupied (srv : Server) (r : RoomRef) : Prop :=
  ∀ s ∈ (srv.room r).members, (srv.room r).emptySinceMs = 0

theorem occupied_next (hi : Occupied srv r) (h : next cfg srv (a, env) = some srv') :
    Occupied srv' r := by
  intro s hs
  cases rooms_next h r with
  | queued inside kept queue idle waiting =>
    have hmembers : (srv'.room r).members = (srv.room r).members :=
      (congrArg GameRoom.members inside :)
    rw [hmembers] at hs
    exact (congrArg GameRoom.emptySinceMs inside :).trans (hi s hs)
  | swept action room =>
    rw [room] at hs ⊢
    exact hi s hs
  | ran job jobs action queue room =>
    rw [room] at hs ⊢
    exact Job.emptySinceMs_run hi hs

/-- In no step of the run has a session been taken into the room. -/
def NeverAdmitted (cfg : Config) (steps : List (Action × Env)) (r : RoomRef) : Prop :=
  Along (next cfg) (fun srv step => ∀ s, ¬ srv.TakesIn step.1 r s) .empty steps

/-- The two things the time says of the room, behind a run. -/
structure Stamped (cfg : Config) (steps : List (Action × Env)) (srv : Server) (r : RoomRef) :
    Prop where
  occupied : ∀ s ∈ (srv.room r).members, (srv.room r).emptySinceMs = 0
  unused : (srv.room r).emptySinceMs = 0 →
    (∃ s, s ∈ (srv.room r).members) ∨ NeverAdmitted cfg steps r

theorem neverAdmitted_snoc {steps : List (Action × Env)}
    (hrun : run (next cfg) .empty steps = some srv) (h : NeverAdmitted cfg steps r)
    (hnot : ∀ s, ¬ srv.TakesIn a r s) : NeverAdmitted cfg (steps ++ [(a, env)]) r := by
  refine along_append.mpr ⟨h, fun srv₁ hrun₁ => ⟨fun s => ?_, fun _ _ => trivial⟩⟩
  obtain rfl := Option.some.inj (hrun.symm.trans hrun₁)
  exact hnot s

theorem not_takesIn_of_idle (h : srv.running a r = none) (s : SessionRef) :
    ¬ srv.TakesIn a r s := by
  rintro ⟨job, hjob, -⟩
  rw [h] at hjob
  exact absurd hjob (by simp)

theorem Stamped.of_idle {steps : List (Action × Env)}
    (hrun : run (next cfg) .empty steps = some srv) (h : Stamped cfg steps srv r)
    (hidle : srv.running a r = none) (hmembers : (srv'.room r).members = (srv.room r).members)
    (hempty : (srv'.room r).emptySinceMs = (srv.room r).emptySinceMs) :
    Stamped cfg (steps ++ [(a, env)]) srv' r := by
  refine ⟨?_, fun hzero => ?_⟩
  · rw [hmembers, hempty]
    exact h.occupied
  · rw [hempty] at hzero
    rw [hmembers]
    exact (h.unused hzero).imp id fun hnever =>
      neverAdmitted_snoc hrun hnever (not_takesIn_of_idle hidle)

/-- A job that leaves no time behind leaves a member, or has taken nobody in. -/
theorem unused_run {room : GameRoom} {w : World} {job : Job} (hnow : 0 < env.now)
    (h : (job.run env r room w).1.emptySinceMs = 0) :
    (∃ s, s ∈ (job.run env r room w).1.members) ∨
      (room.emptySinceMs = 0 ∧ (∀ s, s ∈ room.members → s ∈ (job.run env r room w).1.members) ∧
        ∀ s, ¬ job.TakesIn room s) := by
  cases @Job.does_run env r room w job with
  | enters s hjob hadmits hroom =>
    refine Or.inl ⟨s, ?_⟩
    rw [hroom]
    exact IterSet.mem_insert.mpr (Or.inl rfl)
  | rejoins s hjob hroom =>
    refine Or.inl ⟨s, ?_⟩
    rw [hroom]
    exact IterSet.mem_insert.mpr (Or.inl rfl)
  | leaves s hjob hmem hroom =>
    rw [hroom] at h ⊢
    by_cases hsize : (room.members.erase s).size = 0
    · have hlater : env.later = 0 := by
        have hleft : (room.left env s (w.session s).accountId).emptySinceMs = env.later :=
          if_pos hsize
        exact hleft.symm.trans h
      have hle := env.now_le_later
      omega
    · obtain ⟨t, ht⟩ := not_forall.mp (mt IterSet.size_eq_zero_iff.mpr hsize)
      exact Or.inl ⟨t, not_not.mp ht⟩
  | readies accountId hjob hroom =>
    rw [hroom] at h ⊢
    rw [GameRoom.emptySinceMs_readied] at h
    rw [GameRoom.members_readied]
    refine Or.inr ⟨h, fun _ hs => hs, ?_⟩
    rintro s (⟨hs, -⟩ | hs)
    · exact absurd (hjob.symm.trans hs) (by simp)
    · exact absurd (hjob.symm.trans hs) (by simp)
  | stays moves htakes hleaves hroom =>
    rw [hroom] at h ⊢
    exact Or.inr ⟨h, fun _ hs => hs, htakes⟩

theorem stamp_next {steps : List (Action × Env)} (hrun : run (next cfg) .empty steps = some srv)
    (hi : Stamped cfg steps srv r) (hnow : 0 < env.now)
    (h : next cfg srv (a, env) = some srv') : Stamped cfg (steps ++ [(a, env)]) srv' r := by
  cases rooms_next h r with
  | queued inside kept queue idle waiting =>
    exact hi.of_idle hrun idle (congrArg GameRoom.members inside :)
      (congrArg GameRoom.emptySinceMs inside :)
  | swept action room =>
    refine hi.of_idle hrun ?_ ?_ ?_
    · rw [action]
      rfl
    · rw [room]
      rfl
    · rw [room]
      rfl
  | ran job jobs action queue room =>
    subst action
    refine ⟨occupied_next hi.occupied h, fun hzero => ?_⟩
    · rw [room] at hzero ⊢
      rcases unused_run hnow hzero with hmember | ⟨hbefore, hstay, htakes⟩
      · exact Or.inl hmember
      · refine (hi.unused hbefore).imp ?_ fun hnever => neverAdmitted_snoc hrun hnever fun s => ?_
        · rintro ⟨s, hs⟩
          exact ⟨s, hstay s hs⟩
        · rintro ⟨job', hjob', hin⟩
          rw [running_job queue] at hjob'
          obtain rfl := Option.some.inj hjob'
          exact htakes s hin

/-! ## Runs -/

/-- A room with a member is in the map and notes no time. -/
structure RoomHeld (srv : Server) (r : RoomRef) : Prop where
  occupied : Occupied srv r
  live : ∀ s ∈ (srv.room r).members, srv.rooms.Live r

theorem roomHeld_next (hi : RoomHeld srv r) (h : next cfg srv (a, env) = some srv') :
    RoomHeld srv' r := by
  refine ⟨occupied_next hi.occupied h, fun s hs => ?_⟩
  rcases (members_next h).mp hs with htakes | ⟨hmem, -⟩
  · obtain ⟨hlive, rfl⟩ := live_of_takesIn h htakes
    exact live_next h hlive fun ha => absurd ha (by simp)
  · refine live_next h (hi.live s hmem) fun _ hidle => ?_
    exact absurd hidle.1 (hi.occupied s hmem ▸ lt_irrefl _)

theorem roomHeld_of_run {steps : List (Action × Env)}
    (hrun : run (next cfg) .empty steps = some srv) (r : RoomRef) : RoomHeld srv r := by
  refine run_preserves (I := fun srv => RoomHeld srv r)
    (fun _ _ _ hi h => roomHeld_next hi h) ?_ hrun
  exact ⟨fun s hs => absurd hs not_mem_members_empty, fun s hs => absurd hs not_mem_members_empty⟩

theorem pointedIn_of_run {steps : List (Action × Env)}
    (hrun : run (next cfg) .empty steps = some srv) : PointedIn srv := by
  refine run_history (I := fun _ srv => PointedIn srv) ?_ ?_ hrun
  · exact fun s r hroom => absurd hroom (by simp [Server.roomOf, Server.empty, ServerSession.new])
  · exact fun steps srv step srv' hbefore hi h =>
      pointedIn_next hi (fun r => (roomHeld_of_run hbefore r).occupied) h

/-- **The invariant.** -/
structure Recorded (cfg : Config) (steps : List (Action × Env)) (srv : Server) : Prop where
  pointer : PointedIn srv
  stamped : ∀ r, Stamped cfg steps srv r

theorem recorded_of_run {steps : List (Action × Env)}
    (hrun : run (next cfg) .empty steps = some srv)
    (hclock : ∀ step ∈ steps, 0 < step.2.now) : Recorded cfg steps srv := by
  refine ⟨pointedIn_of_run hrun, fun r => ?_⟩
  refine run_history (I := fun steps srv => (∀ step ∈ steps, 0 < step.2.now) →
    Stamped cfg steps srv r) ?_ ?_ hrun hclock
  · exact fun _ => ⟨fun s hs => absurd hs not_mem_members_empty, fun _ => Or.inr trivial⟩
  · rintro steps srv ⟨a, env⟩ srv' hbefore ih hnext hclock
    have hi := ih fun step hstep => hclock step (List.mem_append_left _ hstep)
    have hnow := hclock (a, env) (List.mem_append_right _ (List.mem_singleton_self _))
    exact stamp_next hbefore hi hnow hnext

/-- **What the three records say**: in every run of the server in which the clock reads more than
`0`,
* a session's pointer names a room in the map that has the session as a member;
* a room with a time in it has no member;
* a room without one has a member, or never had any;
* and `RemoveIdleRooms` leaves a room that has a member, or that a pointer names, in the map. -/
theorem room_records {steps : List (Action × Env)}
    (hrun : run (next cfg) .empty steps = some srv) (hclock : ∀ step ∈ steps, 0 < step.2.now) :
    (∀ s r, srv.roomOf s = some r → srv.rooms.Live r ∧ s ∈ (srv.room r).members) ∧
      (∀ r, 0 < (srv.room r).emptySinceMs → ∀ s, s ∉ (srv.room r).members) ∧
      (∀ r, (srv.room r).emptySinceMs = 0 →
        (∃ s, s ∈ (srv.room r).members) ∨ NeverAdmitted cfg steps r) ∧
      ∀ env srv', next cfg srv (.removeIdleRooms, env) = some srv' → ∀ r, srv.rooms.Live r →
        ((∃ s, s ∈ (srv.room r).members) ∨ ∃ s, srv.roomOf s = some r) → srv'.rooms.Live r := by
  obtain ⟨hpointer, hstamped⟩ := recorded_of_run hrun hclock
  refine ⟨hpointer, fun r hstamp s hs => ?_, fun r => (hstamped r).unused, ?_⟩
  · exact absurd hstamp ((hstamped r).occupied s hs ▸ lt_irrefl _)
  · intro env srv' hnext r hlive hused
    obtain ⟨s, hs⟩ : ∃ s, s ∈ (srv.room r).members := by
      rcases hused with hmember | ⟨s, hroom⟩
      · exact hmember
      · exact ⟨s, (hpointer s r hroom).2⟩
    refine live_next hnext hlive fun _ hidle => ?_
    exact absurd hidle.1 ((hstamped r).occupied s hs ▸ lt_irrefl _)

/-- A session enters room `A`, switches to room `B`, and `A` is left idle. -/
def switchRooms : List (Action × Env) :=
  switchTo [.job 0, .job 1] ++ [(.removeIdleRooms, .quiet 62000)]

/-- Room `A` is removed and `B` is not. -/
theorem room_records_switch :
    ∃ srv, run (next ⟨16, 30000, 60000⟩) .empty switchRooms = some srv ∧
      srv.rooms.rooms.values = [1] ∧ srv.rooms.Live 1 ∧ 0 ∈ (srv.room 1).members := by
  obtain ⟨srv, hrun, hvalues, hroom⟩ :
      ∃ srv, run (next ⟨16, 30000, 60000⟩) .empty switchRooms = some srv ∧
        srv.rooms.rooms.values = [1] ∧ srv.roomOf 0 = some 1 := by decide +kernel
  exact ⟨srv, hrun, hvalues, (room_records hrun (by decide)).1 0 1 hroom⟩

end

end RealtimeServer
