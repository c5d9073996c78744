import RealtimeServer.Game.IdleRooms
import RealtimeServer.Game.Placement
import RealtimeServer.Game.ReadyStart
import RealtimeServer.Game.Validated

/-!
# Switching rooms

`C_ROOM_ENTER` from inside a room queues two jobs: a `HandleLeave` in the room the session is in and
a `HandleEnter` in the room it asks for. They run in two queues, and what becomes of the second is
not known to the first: where the new room refuses, nothing takes the session back.

* `unbound_next`: what the queue of a room does not hold a session for, no step of the others
  changes, refusals included.
* **`switch_leaves`**: behind the request the session is out of its room, which has become what a
  leave makes of it; if the new room refuses, the session is in no room.
-/

namespace RealtimeServer

open Unordered Guarded

section

variable {cfg : Config} {srv srv' : Server} {a : Action} {env : Env} {r : RoomRef}
  {s : SessionRef} {job : Job} {jobs : List Job} {member member' : Bool}

/-! ## What a queue leaves behind -/

/-- Who is not a member before the jobs is not one behind them for that reason. -/
theorem memberBehind_mono (h : member = true → member' = true)
    (hbehind : memberBehind s member jobs = true) : memberBehind s member' jobs = true := by
  induction jobs generalizing member member' with
  | nil => exact h hbehind
  | cons job jobs ih =>
    change memberBehind s ((job.settles s).getD member) jobs = true at hbehind
    show memberBehind s ((job.settles s).getD member') jobs = true
    refine ih ?_ hbehind
    cases job.settles s with
    | none => exact h
    | some stays => exact id

/-- Who is a member behind a job is one by what the job settles. -/
theorem settled_of_run {room : GameRoom} {w : World}
    (hmem : s ∈ (job.run env r room w).1.members) :
    (job.settles s).getD (decide (s ∈ room.members)) = true := by
  rcases Job.mem_run.mp hmem with htakes | ⟨hmem, hstays⟩
  · have htrue : job.settles s = some true := by
      refine settles_eq_true.mpr ?_
      rcases htakes with ⟨rfl, -⟩ | rfl
      · exact Or.inl rfl
      · exact Or.inr rfl
    rw [htrue, Option.getD_some]
  · cases hsettles : job.settles s with
    | none => exact decide_eq_true hmem
    | some stays =>
      cases stays with
      | true => rfl
      | false => exact absurd (settles_eq_false.mp hsettles) hstays

/-- A step of the others, or a tick that may refuse `s`, does not make a queue hold it. -/
theorem unbound_next (hnot : ¬ Disturbs s srv a) (h : next cfg srv (a, env) = some srv')
    (hunbound : srv.rooms.bound r s = false) : srv'.rooms.bound r s = false := by
  rw [Bool.eq_false_iff] at hunbound ⊢
  refine fun hbound => hunbound ?_
  obtain ⟨jobs, hjobs, hothers⟩ := queue_undisturbed hnot h r
  unfold RoomManager.bound at hbound ⊢
  rw [show (srv'.rooms.room r).jobQueue = _ from hjobs, memberBehind_append,
    memberBehind_others hothers] at hbound
  cases rooms_next h r with
  | queued inside kept queue idle waiting =>
    rwa [waiting, show (srv'.rooms.room r).members = (srv.rooms.room r).members from
      (congrArg GameRoom.members inside :)] at hbound
  | swept action room =>
    subst action
    rwa [show srv'.rooms.room r = _ from room] at hbound
  | ran job rest action queue room =>
    subst action
    rw [waiting_job queue, show srv'.rooms.room r = _ from room] at hbound
    rw [show (srv.rooms.room r).jobQueue = _ from queue]
    show memberBehind s ((job.settles s).getD (decide (s ∈ (srv.rooms.room r).members))) rest = true
    refine memberBehind_mono (fun hmem => ?_) hbound
    exact @settled_of_run env r s job { srv.room r with jobQueue := rest } srv.world
      (of_decide_eq_true hmem)

/-- Once the rooms in the map have nothing queued, who is not held is not a member. -/
theorem not_member_of_unbound (hheld : RoomHeld srv r) (hdrained : QueuesEmpty srv)
    (hunbound : srv.rooms.bound r s = false) : s ∉ (srv.room r).members := by
  intro hmem
  have hnone : ¬ JobQueued srv r s := by
    rintro ⟨job, hjob, -⟩
    rw [hdrained r (hheld.live s hmem)] at hjob
    exact absurd hjob List.not_mem_nil
  rw [bound_of_no_job hnone, decide_eq_true hmem] at hunbound
  exact absurd hunbound (by simp)

/-! ## The request -/

/-- Whoever is in a room has logged in. -/
theorem account_of_run {steps : List (Action × Env)} (hrun : run (next cfg) .empty steps = some srv)
    (hmem : s ∈ (srv.room r).members) : srv.account s ≠ [] := by
  have hend : Born srv ∧ Vouched (fun _ _ => True) srv := by
    refine run_preserves (I := fun srv => Born srv ∧ Vouched (fun _ _ => True) srv)
      (fun _ _ _ hi h => ?_) ⟨born_empty, vouched_empty _⟩ hrun
    exact ⟨born_next hi.1 h, vouched_next hi.1 hi.2 (fun _ _ _ => trivial) h⟩
  exact hend.2.members r s hmem

/-- The room the session is in gets a `HandleLeave`, and nothing else becomes of it. -/
theorem room_of_request {name : Bytes} (hlogin : srv.account s ≠ []) (hroom : srv.roomOf s = some r)
    (hlt : r < srv.rooms.heap.length)
    (hne : (srv.rooms.getOrCreate cfg.maxRoomPlayers name).1 ≠ r)
    (h : next cfg srv (.packet s (.roomEnter (some name)), env) = some srv') :
    srv'.room r = (srv.room r).pushJob (.handleLeave s) := by
  obtain ⟨srv₁, hacts, rfl⟩ := next_acts h
  cases hacts with
  | packet packet accepted =>
    have hlt' : r < (srv.rooms.pushJob r (.handleLeave s)).heap.length := by
      rw [RoomManager.pushJob, RoomManager.length_modify]
      exact hlt
    show (srv.handleCRoomEnter env s cfg (some name)).rooms.room r = _
    rw [rooms_enter_inside hlogin hroom, RoomManager.pushJob, RoomManager.room_modify_ne hne.symm,
      RoomManager.room_getOrCreate_old hlt', RoomManager.pushJob, RoomManager.room_modify_self hlt]

/-- A request runs no job, so it takes nobody in and nobody out. -/
theorem members_of_request {packet : ClientPacket}
    (h : next cfg srv (.packet t packet, env) = some srv') :
    s ∈ (srv'.room r).members ↔ s ∈ (srv.room r).members := by
  have hidle : ∀ job, job ∉ srv.running (.packet t packet) r := by
    intro job hjob
    exact absurd hjob (by simp [Server.running])
  rw [members_next h]
  constructor
  · rintro (⟨job, hjob, -⟩ | ⟨hmem, -⟩)
    · exact absurd hjob (hidle job)
    · exact hmem
  · intro hmem
    refine Or.inr ⟨hmem, ?_⟩
    rintro ⟨job, hjob, -⟩
    exact hidle job hjob

/-- Somewhere in the run a `HandleLeave` takes `s` out of `r`. -/
def LeftIn (cfg : Config) (srv : Server) (steps : List (Action × Env)) (r : RoomRef)
    (s : SessionRef) : Prop :=
  ∃ before env after srv₁ srv₂ jobs, steps = before ++ (.job r, env) :: after ∧
    run (next cfg) srv before = some srv₁ ∧ s ∈ (srv₁.room r).members ∧
    next cfg srv₁ (.job r, env) = some srv₂ ∧
    srv₂.room r =
      ({ srv₁.room r with jobQueue := jobs } : GameRoom).left env s (srv₁.account s)

/-- A session that is a member before a run and not behind it was taken out by a leave. -/
theorem leftIn_of_run {steps : List (Action × Env)} (hmem : s ∈ (srv.room r).members)
    (hout : s ∉ (srv'.room r).members) (hrun : run (next cfg) srv steps = some srv') :
    LeftIn cfg srv steps r s := by
  obtain ⟨before, ⟨a, env⟩, after, srv₁, srv₂, rfl, hbefore, hmem₁, hnext, hout₂⟩ :=
    run_turns (P := fun srv => s ∈ (srv.room r).members) hmem hout hrun
  have hleaving : srv₁.Leaving a r s := by
    by_contra hstays
    exact hout₂ ((members_next hnext).mpr (Or.inr ⟨hmem₁, hstays⟩))
  obtain ⟨job, hjob, hleaves⟩ := hleaving
  obtain rfl := action_of_running hjob
  cases rooms_next hnext r with
  | queued inside kept queue idle waiting =>
    rw [idle] at hjob
    exact absurd hjob (by simp)
  | swept action room => exact absurd action (by simp)
  | ran job' jobs action queue room =>
    rw [running_job queue] at hjob
    obtain rfl := Option.some.inj hjob
    refine ⟨before, env, after, srv₁, srv₂, jobs, rfl, hbefore, hmem₁, hnext, ?_⟩
    have hmem' : s ∈ ({ srv₁.room r with jobQueue := jobs } : GameRoom).members := hmem₁
    rw [room, (Job.run_spec job').1, Job.outcome_leave hleaves, if_pos hmem']
    rfl

/-! ## Behind it -/

/-- No step of the run queues a job of `s`. -/
abbrev Idles (cfg : Config) (s : SessionRef) (srv : Server) (steps : List (Action × Env)) : Prop :=
  Along (next cfg) (fun srv step => ¬ Disturbs s srv step.1) srv steps

/-- No step of the run takes `s` into `r`: its `HandleEnter` there is refused. -/
abbrev Refused (cfg : Config) (r : RoomRef) (s : SessionRef) (srv : Server)
    (steps : List (Action × Env)) : Prop :=
  Along (next cfg) (fun srv step => ¬ srv.TakesIn step.1 r s) srv steps

theorem unbound_run {steps : List (Action × Env)} (hidles : Idles cfg s srv steps)
    (hrun : run (next cfg) srv steps = some srv') (hunbound : srv.rooms.bound r s = false) :
    srv'.rooms.bound r s = false :=
  run_invariant (I := fun srv => srv.rooms.bound r s = false)
    (fun _ _ _ hi hc h => unbound_next hc h hi) hunbound hidles hrun

theorem not_member_refused {steps : List (Action × Env)} (hrefused : Refused cfg r s srv steps)
    (hrun : run (next cfg) srv steps = some srv') (hmem : s ∉ (srv.room r).members) :
    s ∉ (srv'.room r).members := by
  refine run_invariant (I := fun srv => s ∉ (srv.room r).members) (fun _ _ _ hi hc h hmem' => ?_)
    hmem hrefused hrun
  rcases (members_next h).mp hmem' with htakes | ⟨hmem, -⟩
  · exact hc htakes
  · exact hi hmem

/-- **A switch is a leave and an enter**: let a session be a member of the room `A` that it points
to, and ask for another room. `A` gets a `HandleLeave`. In every run behind it in which the session
itself does nothing more and the queues are drained,
* a `HandleLeave` has made of `A` what a leave makes of it;
* the session is not in `A`, and does not point to it;
* and if the new room has refused, and no other room had the session or a job of it, the session is
  in no room and points to none. -/
theorem switch_leaves {before after : List (Action × Env)} {A : RoomRef} {name : Bytes}
    {srv₀ srv₁ srv₂ : Server} (hrun : run (next cfg) .empty before = some srv₀)
    (hmem : s ∈ (srv₀.room A).members) (hroom : srv₀.roomOf s = some A)
    (hother : (srv₀.rooms.getOrCreate cfg.maxRoomPlayers name).1 ≠ A)
    (hrequest : next cfg srv₀ (.packet s (.roomEnter (some name)), env) = some srv₁)
    (hafter : run (next cfg) srv₁ after = some srv₂) (hidles : Idles cfg s srv₁ after)
    (hdrained : QueuesEmpty srv₂) :
    srv₁.room A = (srv₀.room A).pushJob (.handleLeave s) ∧
      LeftIn cfg srv₁ after A s ∧
      (s ∉ (srv₂.room A).members ∧ srv₂.roomOf s ≠ some A) ∧
      (Refused cfg (srv₀.rooms.getOrCreate cfg.maxRoomPlayers name).1 s srv₁ after →
        (∀ r ≠ A, s ∉ (srv₀.room r).members ∧ ¬ JobQueued srv₀ r s) →
        (∀ r, s ∉ (srv₂.room r).members) ∧ srv₂.roomOf s = none) := by
  have hborn := born_of_run hrun
  have hlogin := account_of_run hrun hmem
  have hrun₁ := run_snoc hrun hrequest
  have hrun₂ : run (next cfg) .empty
      ((before ++ [(.packet s (.roomEnter (some name)), env)]) ++ after) = some srv₂ := by
    rw [run_append, hrun₁, Option.bind_some, hafter]
  have hbound := @bound_command _ _ _ _ _ (.enter name) (mapped_of_run hrun)
    (hborn.members A s hmem) hlogin hrequest
  have hmem₁ : s ∈ (srv₁.room A).members := (members_of_request hrequest).mpr hmem
  have hunbound : ∀ r, srv₁.rooms.bound r s = false → s ∉ (srv₂.room r).members := fun r h =>
    not_member_of_unbound (roomHeld_of_run hrun₂ r) hdrained (unbound_run hidles hafter h)
  have hout : s ∉ (srv₂.room A).members := by
    refine hunbound A ?_
    have hroom' : Command.room cfg srv₀ (.enter name) ≠ some A := fun h =>
      hother (Option.some.inj h)
    rw [hbound A, if_neg hroom', if_pos hroom]
  have hpoints : ∀ r, srv₂.roomOf s = some r → s ∈ (srv₂.room r).members := fun r hpointer =>
    (pointedIn_of_run hrun₂ s r hpointer).2
  refine ⟨room_of_request hlogin hroom (RoomManager.lt_of_member hmem) hother hrequest,
    leftIn_of_run hmem₁ hout hafter, ⟨hout, fun h => hout (hpoints A h)⟩, fun hrefused helse => ?_⟩
  have hnowhere : ∀ r, s ∉ (srv₂.room r).members := by
    intro r
    by_cases hA : r = A
    · rwa [hA]
    · obtain ⟨hnot, hidle⟩ := helse r hA
      by_cases hB : (srv₀.rooms.getOrCreate cfg.maxRoomPlayers name).1 = r
      · rw [hB] at hrefused
        exact not_member_refused hrefused hafter (mt (members_of_request hrequest).mp hnot)
      · refine hunbound r ?_
        have hroom' : srv₀.roomOf s ≠ some r := fun h =>
          hA (Option.some.inj (h.symm.trans hroom))
        have hcommand : Command.room cfg srv₀ (.enter name) ≠ some r := fun h =>
          hB (Option.some.inj h)
        rw [hbound r, if_neg hcommand, if_neg hroom', bound_of_no_job hidle]
        exact decide_eq_false hnot
  refine ⟨hnowhere, ?_⟩
  cases hpointer : srv₂.roomOf s with
  | none => rfl
  | some r => exact absurd (hpoints r hpointer) (hnowhere r)

/-- Two players are in a game in room `A`, and two others are in room `B`, where there is no place
for a third. -/
def besideGame : List (Action × Env) :=
  quietly (lobby 2 ++ [.packet 0 .ready, .packet 1 .ready, .job 0, .job 0,
    .accept true, .packet 2 (.login (some [116])), .authCallback 0 true [99],
    .packet 2 (.roomEnter (some [66])), .job 1,
    .accept true, .packet 3 (.login (some [116])), .authCallback 0 true [100],
    .packet 3 (.roomEnter (some [66])), .job 1])

/-- The first player asks for room `B`. -/
def asksForB : Action × Env := (.packet 0 (.roomEnter (some [66])), .quiet 1000)

/-- It is refused there, and is in no room. -/
theorem switch_leaves_refused :
    ∃ srv₁ srv₂, run (next ⟨2, 30000, 60000⟩) .empty (besideGame ++ [asksForB]) = some srv₁ ∧
      run (next ⟨2, 30000, 60000⟩) srv₁ (quietly [.job 0, .job 1]) = some srv₂ ∧
      LeftIn ⟨2, 30000, 60000⟩ srv₁ (quietly [.job 0, .job 1]) 0 0 ∧
      (∀ r, 0 ∉ (srv₂.room r).members) ∧ srv₂.roomOf 0 = none := by
  obtain ⟨srv₀, hrun, hmem, hroom, hother, helse, hsome⟩ :
      ∃ srv₀, run (next ⟨2, 30000, 60000⟩) .empty besideGame = some srv₀ ∧
        0 ∈ (srv₀.room 0).members ∧ srv₀.roomOf 0 = some 0 ∧
        (srv₀.rooms.getOrCreate 2 [66]).1 ≠ 0 ∧
        (∀ r < srv₀.rooms.heap.length, r ≠ 0 →
          0 ∉ (srv₀.room r).members ∧ ¬ JobQueued srv₀ r 0) ∧
        ∃ srv₁, next ⟨2, 30000, 60000⟩ srv₀ asksForB = some srv₁ ∧
          ∃ srv₂, run (next ⟨2, 30000, 60000⟩) srv₁ (quietly [.job 0, .job 1]) = some srv₂ ∧
            Idles ⟨2, 30000, 60000⟩ 0 srv₁ (quietly [.job 0, .job 1]) ∧
            Refused ⟨2, 30000, 60000⟩ (srv₀.rooms.getOrCreate 2 [66]).1 0 srv₁
              (quietly [.job 0, .job 1]) ∧ QueuesEmpty srv₂ := by decide +kernel
  obtain ⟨srv₁, hrequest, srv₂, hafter, hidles, hrefused, hdrained⟩ := hsome
  have helse' : ∀ r ≠ 0, 0 ∉ (srv₀.room r).members ∧ ¬ JobQueued srv₀ r 0 := by
    refine fun r hr => ⟨fun hmem => ?_, ?_⟩
    · exact (helse r (RoomManager.lt_of_member hmem) hr).1 hmem
    · rintro ⟨job, hjob, hsession⟩
      exact (helse r (RoomManager.lt_of_queued hjob) hr).2 ⟨job, hjob, hsession⟩
  obtain ⟨-, hleft, -, hnowhere⟩ :=
    switch_leaves hrun hmem hroom hother hrequest hafter hidles hdrained
  exact ⟨srv₁, srv₂, run_snoc hrun hrequest, hafter, hleft, hnowhere hrefused helse'⟩

/-- **The refused player has lost its place**: without the request it is in its game, and with it
the game is over, the player is in no room, and there is a reconnect slot for it. -/
theorem switch_not_undone :
    (∃ srv, run (next ⟨2, 30000, 60000⟩) .empty besideGame = some srv ∧ QueuesEmpty srv ∧
      (srv.room 0).state = .inGame ∧ 0 ∈ (srv.room 0).members ∧ srv.roomOf 0 = some 0 ∧
      ¬ (srv.room 1).Admits ∧ (srv.room 1).name = [66] ∧
      (srv.room 0).hasPendingReconnect [97] = false) ∧
    ∃ srv, run (next ⟨2, 30000, 60000⟩) .empty
        (besideGame ++ asksForB :: quietly [.job 0, .job 1]) = some srv ∧ QueuesEmpty srv ∧
      (srv.room 0).state = .finished ∧ 0 ∉ (srv.room 0).members ∧ 0 ∉ (srv.room 1).members ∧
      srv.roomOf 0 = none ∧ (srv.room 0).hasPendingReconnect [97] = true := by
  decide +kernel

end

end RealtimeServer
