import RealtimeServer.Core.Handlers
import RealtimeServer.Game.Membership

/-!
# Where a session ends up

`C_ROOM_ENTER` and `C_ROOM_LEAVE` queue jobs in the room that `GetRoom()` names when they arrive,
and the pointer is written when these jobs run. `bound` says where the queue of `r` will leave `s`.
A tick does not change it (`bound_next`), and a command changes it in two rooms (`bound_command`).

* **`placed_iff`**: once no job of the session is queued, it is in the room its last command names
  and points to it, exactly if at that command no third room was bound to hold it, and no leave ran
  behind its arrival (`OnlyBound`, `KeepsPointer`).
* **`placement_agrees`**: two runs with the same commands end in the same place exactly if both meet
  these conditions; the ticks alone decide between two places (`placed_twice`).
-/

namespace RealtimeServer

open Unordered Guarded

/-! ## Where a queue leaves a session -/

/-- Whether `s` is a member behind the job, where the job decides it and the room admits it. -/
def Job.settles (s : SessionRef) : Job → Option Bool
  | handleEnter t | handleRejoin t => if t = s then some true else none
  | handleLeave t | leaveAndAck t => if t = s then some false else none
  | chat .. | handleMove .. | handleReady .. => none

/-- Whether `s` is a member behind the jobs, if it is one before them exactly if `member`. -/
def memberBehind (s : SessionRef) (member : Bool) (jobs : List Job) : Bool :=
  jobs.foldl (fun member job => (job.settles s).getD member) member

/-- Whether the queue of `r` leaves `s` in it. -/
def RoomManager.bound (m : RoomManager) (r : RoomRef) (s : SessionRef) : Bool :=
  memberBehind s (decide (s ∈ (m.room r).members)) (m.room r).jobQueue

/-- A job of `s` is queued in `r`. -/
def JobQueued (srv : Server) (r : RoomRef) (s : SessionRef) : Prop :=
  ∃ job ∈ (srv.room r).jobQueue, job.session = some s

instance (srv : Server) (r : RoomRef) (s : SessionRef) : Decidable (JobQueued srv r s) := by
  unfold JobQueued; infer_instance

/-- No job of `s` is queued in any room. -/
def JobsDone (srv : Server) (s : SessionRef) : Prop :=
  ∀ r < srv.rooms.heap.length, ¬ JobQueued srv r s

instance (srv : Server) (s : SessionRef) : Decidable (JobsDone srv s) := by
  unfold JobsDone; infer_instance

section

variable {cfg : Config} {srv srv' : Server} {a : Action} {env : Env} {r r' : RoomRef}
  {s t : SessionRef} {job : Job} {jobs : List Job} {member : Bool}

theorem settles_eq_none : job.settles s = none ↔ job.session ≠ some s := by
  cases job <;> simp [Job.settles, Job.session]

theorem settles_eq_true :
    job.settles s = some true ↔ job = .handleEnter s ∨ job = .handleRejoin s := by
  cases job <;> simp [Job.settles]

theorem settles_eq_false : job.settles s = some false ↔ job.Leaves s := by
  cases job <;> simp [Job.settles, Job.Leaves]

theorem memberBehind_append (jobs' : List Job) : memberBehind s member (jobs ++ jobs') =
    memberBehind s (memberBehind s member jobs) jobs' := List.foldl_append

/-- The jobs of others do not matter. -/
theorem memberBehind_others (h : ∀ job ∈ jobs, job.session ≠ some s) :
    memberBehind s member jobs = member := by
  induction jobs generalizing member with
  | nil => rfl
  | cons job jobs ih =>
    have hnone := settles_eq_none.mpr (h job List.mem_cons_self)
    show memberBehind s ((job.settles s).getD member) jobs = member
    rw [hnone]
    exact ih fun job' hjob' => h job' (List.mem_cons_of_mem job hjob')

/-- The step runs a `HandleEnter` of `s` only in a room that admits it. -/
def AdmitsIn (s : SessionRef) (srv : Server) (step : Action × Env) : Prop :=
  ∀ r < srv.rooms.heap.length,
    srv.running step.1 r = some (.handleEnter s) → (srv.room r).Admits

instance (s : SessionRef) (srv : Server) (step : Action × Env) :
    Decidable (AdmitsIn s srv step) := by
  unfold AdmitsIn; infer_instance

/-- The action queues a job of `s`: a command of it, its disconnect, or its login. -/
def Disturbs (s : SessionRef) (srv : Server) : Action → Prop
  | .packet t (.roomEnter (some _)) | .packet t .roomLeave | .disconnect t => t = s
  | .authCallback i true _ => (srv.auth[i]?).map Prod.fst = some s
  | _ => False

instance (s : SessionRef) (srv : Server) (a : Action) : Decidable (Disturbs s srv a) := by
  unfold Disturbs
  split <;> infer_instance

theorem disturbs_of_pushes (h : Pushes srv a env r t job) (hsession : job.session = some s) :
    Disturbs s srv a := by
  obtain rfl := session_of_pushes h hsession
  cases h with
  | packet packet action sent =>
    subst action
    cases job with
    | handleEnter u =>
      obtain ⟨-, -, name, rfl⟩ := sent
      rfl
    | handleLeave u =>
      obtain ⟨-, -, name, rfl⟩ := sent
      rfl
    | leaveAndAck u =>
      obtain ⟨-, -, rfl⟩ := sent
      rfl
    | handleRejoin u => exact absurd sent id
    | chat sender message => exact absurd hsession (by simp [Job.session])
    | handleMove accountId x y => exact absurd hsession (by simp [Job.session])
    | handleReady accountId => exact absurd hsession (by simp [Job.session])
  | callback i accountId token action pending hjob found =>
    subst action
    show (srv.auth[i]?).map Prod.fst = some s
    rw [pending]
    rfl
  | disconnect action hjob room =>
    subst action
    rfl

/-- A step that does not disturb `s` queues no job of it. -/
theorem queue_undisturbed (hnot : ¬ Disturbs s srv a) (h : next cfg srv (a, env) = some srv')
    (r : RoomRef) : ∃ jobs, (srv'.room r).jobQueue = srv.waiting a r ++ jobs ∧
      ∀ job ∈ jobs, job.session ≠ some s := by
  obtain ⟨jobs, hjobs, hpushed⟩ := pushed_next h r
  refine ⟨jobs, hjobs, fun job hjob hsession => hnot ?_⟩
  obtain ⟨t, hpushes⟩ := hpushed job hjob
  exact disturbs_of_pushes hpushes hsession

theorem member_run {room : GameRoom} {w : World} (hopen : job = .handleEnter s → room.Admits) :
    decide (s ∈ (job.run env r room w).1.members) =
      (job.settles s).getD (decide (s ∈ room.members)) := by
  have hmem := @Job.mem_run env r room w job s
  cases hsettles : job.settles s with
  | none =>
    have hother := settles_eq_none.mp hsettles
    have hnotIn : ¬ job.TakesIn room s := by
      rintro (⟨rfl, -⟩ | rfl) <;> exact hother rfl
    have hnotOut : ¬ job.Leaves s := by
      rintro (rfl | rfl) <;> exact hother rfl
    simp only [Option.getD_none, hmem, hnotIn, hnotOut, false_or, not_false_eq_true, and_true]
  | some stays =>
    rw [Option.getD_some]
    cases stays with
    | true =>
      rw [decide_eq_true_iff, hmem]
      refine Or.inl ?_
      rcases settles_eq_true.mp hsettles with hjob | hjob
      · exact Or.inl ⟨hjob, hopen hjob⟩
      · exact Or.inr hjob
    | false =>
      have hleaves := settles_eq_false.mp hsettles
      rw [decide_eq_false_iff_not, hmem]
      rintro (htakes | ⟨-, hstays⟩)
      · exact Job.not_leaves_of_takesIn htakes hleaves
      · exact hstays hleaves

/-- **A tick** changes nothing about where the queues leave `s`. -/
theorem bound_next (hnot : ¬ Disturbs s srv a) (hopen : AdmitsIn s srv (a, env))
    (h : next cfg srv (a, env) = some srv') (r : RoomRef) :
    srv'.rooms.bound r s = srv.rooms.bound r s := by
  obtain ⟨jobs, hjobs, hothers⟩ := queue_undisturbed hnot h r
  show memberBehind s (decide (s ∈ (srv'.room r).members)) (srv'.room r).jobQueue =
    memberBehind s (decide (s ∈ (srv.room r).members)) (srv.room r).jobQueue
  rw [hjobs, memberBehind_append, memberBehind_others hothers]
  cases rooms_next h r with
  | queued inside kept queue idle waiting =>
    rw [waiting, show (srv'.room r).members = (srv.room r).members from
      (congrArg GameRoom.members inside :)]
  | swept action room =>
    subst action
    rw [room]
    rfl
  | ran job rest action queue room =>
    subst action
    have hr : r < srv.rooms.heap.length := RoomManager.lt_of_head queue
    have hmember := @member_run env r s job { srv.room r with jobQueue := rest } srv.world
      fun hjob => hopen r hr (hjob ▸ running_job queue)
    rw [room, hmember, waiting_job queue, queue]
    rfl

/-! ## Rooms and their names -/

/-- The map leads from a name to a room that has it. -/
def RoomManager.Named (m : RoomManager) : Prop :=
  ∀ name r, m.rooms.lookup name = some r → r < m.heap.length ∧ (m.room r).name = name

section

variable {m : RoomManager} {name : Bytes} {maxRoomPlayers : Int}

theorem named_modify {f : GameRoom → GameRoom} (hm : m.Named)
    (hf : (f (m.room r)).name = (m.room r).name) : (m.modify r f).Named := by
  intro name r' hname
  obtain ⟨hr', hsame⟩ := hm name r' hname
  rw [RoomManager.length_modify]
  refine ⟨hr', ?_⟩
  by_cases hr : r' = r
  · subst hr
    rw [RoomManager.room_modify_self hr', hf, hsame]
  · rw [RoomManager.room_modify_ne hr, hsame]

theorem named_pushJob (hm : m.Named) : (m.pushJob r job).Named := named_modify hm rfl

theorem named_getOrCreate (hm : m.Named) : (m.getOrCreate maxRoomPlayers name).2.Named := by
  intro name' r' hname'
  unfold RoomManager.getOrCreate at hname' ⊢
  cases hname : m.rooms.lookup name with
  | some r =>
    rw [hname] at hname'
    exact hm name' r' hname'
  | none =>
    rw [hname] at hname'
    rcases Map.lookup_insert_iff.mp hname' with ⟨rfl, rfl⟩ | ⟨-, hold⟩
    · simp [RoomManager.room, GameRoom.new]
    · obtain ⟨hr', hsame⟩ := hm name' r' hold
      have hroom := @RoomManager.room_getOrCreate_old m r' maxRoomPlayers name hr'
      unfold RoomManager.getOrCreate at hroom
      rw [hname] at hroom
      rw [hroom]
      exact ⟨by simpa using Nat.lt_succ_of_lt hr', hsame⟩

/-- The room `GetOrCreate` gives exists and has the name. -/
theorem getOrCreate_named (hm : m.Named) :
    (m.getOrCreate maxRoomPlayers name).1 < (m.getOrCreate maxRoomPlayers name).2.heap.length ∧
      ((m.getOrCreate maxRoomPlayers name).2.room (m.getOrCreate maxRoomPlayers name).1).name =
        name := by
  refine named_getOrCreate hm name _ ?_
  unfold RoomManager.getOrCreate
  cases hname : m.rooms.lookup name with
  | some r => exact hname
  | none => exact AList.lookup_insert _

/-- Which room it gives does not depend on the queues. -/
theorem getOrCreate_pushJob : ((m.pushJob r job).getOrCreate maxRoomPlayers name).1 =
    (m.getOrCreate maxRoomPlayers name).1 := by
  have hrooms : (m.pushJob r job).rooms = m.rooms := rfl
  have hlength : (m.pushJob r job).heap.length = m.heap.length := RoomManager.length_modify _
  unfold RoomManager.getOrCreate
  rw [hrooms]
  cases m.rooms.lookup name with
  | some r => rfl
  | none => exact hlength

theorem bound_pushJob (hr' : r' < m.heap.length) : (m.pushJob r' job).bound r s =
    if r = r' then (job.settles s).getD (m.bound r s) else m.bound r s := by
  have hmembers : ((m.pushJob r' job).room r).members = (m.room r).members :=
    RoomManager.room_modify_part GameRoom.members (f := fun room => room.pushJob job)
      (fun _ => rfl) r' r
  unfold RoomManager.bound
  rw [hmembers, RoomManager.jobQueue_pushJob]
  by_cases hr : r = r'
  · rw [if_pos ⟨hr, hr'⟩, if_pos hr, memberBehind_append]
    rfl
  · rw [if_neg (fun h => hr h.1), if_neg hr]

theorem bound_getOrCreate : (m.getOrCreate maxRoomPlayers name).2.bound r s = m.bound r s := by
  have hqueued := @Queued.getOrCreate (fun _ _ => False) m maxRoomPlayers name
  unfold RoomManager.bound
  rw [hqueued.members r, RoomManager.jobQueue_getOrCreate]

end

/-- A job leaves the room its name. -/
theorem Job.name_run {room : GameRoom} {w : World} : (job.run env r room w).1.name = room.name := by
  cases @Job.does_run env r room w job with
  | enters _ _ _ hroom => rw [hroom]; rfl
  | leaves _ _ _ hroom => rw [hroom]; rfl
  | rejoins _ _ hroom => rw [hroom]; rfl
  | readies _ _ hroom => rw [hroom, GameRoom.name_readied]
  | stays _ _ _ hroom => rw [hroom]

/-- A room keeps its name. -/
theorem name_next (h : next cfg srv (a, env) = some srv') (hr : r < srv.rooms.heap.length) :
    (srv'.room r).name = (srv.room r).name := by
  cases rooms_next h r with
  | queued inside kept queue idle waiting => exact (congrArg GameRoom.name (kept hr) :)
  | ran job jobs action queue room => rw [room, Job.name_run]
  | swept action room => rw [room]; rfl

theorem HandlerCalls.named (h : HandlerCalls cfg env s srv srv') (hm : srv.rooms.Named) :
    srv'.rooms.Named := by
  induction h with
  | refl srv => exact hm
  | trans h h' ih ih' => exact ih' (ih hm)
  | send srv answers => exact hm
  | sendRaw srv answers => exact hm
  | pushJob srv own => exact named_pushJob hm
  | getOrCreate srv name => exact named_getOrCreate hm
  | validateAsync srv token => exact hm

theorem named_next (hm : srv.rooms.Named) (h : next cfg srv (a, env) = some srv') :
    srv'.rooms.Named := by
  obtain ⟨srv₁, hacts, rfl⟩ := next_acts h
  show srv₁.rooms.Named
  cases hacts with
  | accept token =>
    unfold Server.handleAccept
    cases token with
    | false => exact hm
    | true => exact hm
  | packet packet accepted => exact (calls_packet cfg packet srv).named hm
  | @authCallback i s token valid accountId pending =>
    unfold Server.loginCallback
    cases valid with
    | false => exact hm
    | true =>
      simp only [if_true]
      split
      · exact named_pushJob hm
      · exact hm
  | disconnect accepted =>
    unfold Server.handleDisconnect
    split
    · exact hm
    · simp only
      split
      · exact hm
      · exact named_pushJob hm
  | job queue => exact named_modify hm Job.name_run
  | @tickEnd r =>
    refine named_modify hm ?_
    rw [(GameRoom.tickEnd_spec cfg.reconnectWindowMs).1]
    rfl
  | removeIdleRooms =>
    intro name r hname
    exact hm name r ((Map.lookup_keep _ _ _ _).mp hname).1

/-! ## Where a session points -/

/-- The pointer of `s` names a room it is a member of. -/
def PointsIn (s : SessionRef) (srv : Server) : Prop :=
  ∀ r, srv.roomOf s = some r → s ∈ (srv.room r).members

theorem pointsIn_next (hs : s < srv.nextSession) (hp : PointsIn s srv)
    (h : next cfg srv (a, env) = some srv') : PointsIn s srv' := by
  intro r hroom
  have heffect := sessions_next h hs
  rw [members_next h]
  rcases heffect.room with hsame | ⟨r', htakes⟩ | ⟨hnone, -⟩
  · have hmem := hp r (hsame.symm.trans hroom)
    refine Or.inr ⟨hmem, fun hleaves => ?_⟩
    exact absurd (hroom.symm.trans (roomOf_leave h hleaves hmem)) (by simp)
  · have hsame : r' = r := Option.some.inj ((heffect.takenIn r' htakes).symm.trans hroom)
    exact Or.inl (hsame ▸ htakes)
  · exact absurd (hroom.symm.trans hnone) (by simp)

/-- Pointers lead into rooms, and names to rooms that have them. -/
structure Mapped (srv : Server) : Prop where
  pointsIn : ∀ s < srv.nextSession, PointsIn s srv
  named : srv.rooms.Named

theorem mapped_of_run {steps : List (Action × Env)}
    (hrun : run (next cfg) .empty steps = some srv) : Mapped srv := by
  refine run_preserves (I := Mapped) ?_ ?_ hrun
  · rintro srv ⟨a, env⟩ srv' hm h
    refine ⟨fun s hs => ?_, named_next hm.named h⟩
    rcases accepted_next h hs with hs | ⟨-, hnone⟩
    · exact pointsIn_next hs (hm.pointsIn s hs) h
    · exact fun r hroom => absurd (hroom.symm.trans hnone) (by simp)
  · exact ⟨fun s hs => absurd hs (Nat.not_lt_zero s),
      fun name r hname => absurd hname (by simp [Server.empty, RoomManager.empty])⟩

/-! ## Commands -/

/-- The packets that move a session between rooms. -/
inductive Command
  | enter (roomName : Bytes)
  | leave
  deriving DecidableEq

namespace Command

def packet : Command → ClientPacket
  | enter roomName => .roomEnter (some roomName)
  | leave => .roomLeave

/-- The room the command asks for, by its name. -/
def target : Command → Option Bytes
  | enter roomName => some roomName
  | leave => none

/-- The room `GetOrCreate` gives it. -/
def room (cfg : Config) (srv : Server) : Command → Option RoomRef
  | enter roomName => some (srv.rooms.getOrCreate cfg.maxRoomPlayers roomName).1
  | leave => none

end Command

/-- The command of `s` in an action, if it is one. -/
def commandOf (s : SessionRef) : Action → Option Command
  | .packet t (.roomEnter (some roomName)) => if t = s then some (.enter roomName) else none
  | .packet t .roomLeave => if t = s then some .leave else none
  | _ => none

/-- The commands of `s` in a run, in order. -/
def commands (s : SessionRef) (steps : List (Action × Env)) : List Command :=
  steps.filterMap fun step => commandOf s step.1

theorem rooms_enter_outside {name : Bytes} (hlogin : srv.account s ≠ [])
    (hroom : srv.roomOf s = none) : (srv.handleCRoomEnter env s cfg (some name)).rooms =
      (srv.rooms.getOrCreate cfg.maxRoomPlayers name).2.pushJob
        (srv.rooms.getOrCreate cfg.maxRoomPlayers name).1 (.handleEnter s) := by
  have hlogin' : (srv.world.session s).accountId ≠ [] := hlogin
  have hroom' : (srv.world.session s).room = none := hroom
  unfold Server.handleCRoomEnter
  simp only [if_neg hlogin', hroom']
  rfl

theorem rooms_enter_inside {name : Bytes} (hlogin : srv.account s ≠ [])
    (hroom : srv.roomOf s = some r) : (srv.handleCRoomEnter env s cfg (some name)).rooms =
      ((srv.rooms.pushJob r (.handleLeave s)).getOrCreate cfg.maxRoomPlayers name).2.pushJob
        (srv.rooms.getOrCreate cfg.maxRoomPlayers name).1 (.handleEnter s) := by
  have hlogin' : (srv.world.session s).accountId ≠ [] := hlogin
  have hroom' : (srv.world.session s).room = some r := hroom
  have hcreated : ((srv.rooms.pushJob r (.handleLeave s)).getOrCreate cfg.maxRoomPlayers name).1 =
      (srv.rooms.getOrCreate cfg.maxRoomPlayers name).1 := getOrCreate_pushJob
  rw [← hcreated]
  unfold Server.handleCRoomEnter
  simp only [if_neg hlogin', hroom']
  rfl

/-- **A command** binds `s` to the room it enters, and unbinds it from the room it points to. -/
theorem bound_command {command : Command} (hm : Mapped srv) (hs : s < srv.nextSession)
    (hlogin : srv.account s ≠ [])
    (h : next cfg srv (.packet s command.packet, env) = some srv') (r : RoomRef) :
    srv'.rooms.bound r s =
      if command.room cfg srv = some r then true
      else if srv.roomOf s = some r then false
      else srv.rooms.bound r s := by
  have hlt : ∀ r, srv.roomOf s = some r → r < srv.rooms.heap.length := fun r hroom =>
    RoomManager.lt_of_member (hm.pointsIn s hs r hroom)
  obtain ⟨srv₁, hacts, rfl⟩ := next_acts h
  cases command with
  | enter name =>
    cases hacts with
    | packet packet accepted =>
      show (srv.handleCRoomEnter env s cfg (some name)).rooms.bound r s = _
      cases hroom : srv.roomOf s with
      | none =>
        rw [rooms_enter_outside hlogin hroom, bound_pushJob (getOrCreate_named hm.named).1,
          bound_getOrCreate]
        simp only [Command.room, Option.some.injEq, Job.settles, if_true, Option.getD_some,
          reduceCtorEq, if_false, eq_comm]
      | some prev =>
        have hnamed := @named_pushJob prev (.handleLeave s) _ hm.named
        have hcreated := (@getOrCreate_named _ name cfg.maxRoomPlayers hnamed).1
        rw [getOrCreate_pushJob] at hcreated
        rw [rooms_enter_inside hlogin hroom, bound_pushJob hcreated, bound_getOrCreate,
          bound_pushJob (hlt prev hroom)]
        simp only [Command.room, Option.some.injEq, Job.settles, if_true, Option.getD_some,
          eq_comm]
  | leave =>
    cases hacts with
    | packet packet accepted =>
      show (srv.handleCRoomLeave env s).rooms.bound r s = _
      have hrooms : ∀ prev, srv.roomOf s = some prev →
          (srv.handleCRoomLeave env s).rooms = srv.rooms.pushJob prev (.leaveAndAck s) := by
        intro prev hroom
        have hroom' : (srv.world.session s).room = some prev := hroom
        unfold Server.handleCRoomLeave
        rw [hroom']
        rfl
      cases hroom : srv.roomOf s with
      | none =>
        have hroom' : (srv.world.session s).room = none := hroom
        unfold Server.handleCRoomLeave
        rw [hroom']
        rfl
      | some prev =>
        rw [hrooms prev hroom, bound_pushJob (hlt prev hroom)]
        simp only [Command.room, Option.some.injEq, Job.settles, if_true, Option.getD_some,
          reduceCtorEq, if_false, eq_comm]

/-! ## Between the last command and the end -/

/-- Every room but `r` that holds `s` has a job of it queued. -/
def JobsElsewhere (srv : Server) (r : RoomRef) (s : SessionRef) : Prop :=
  ∀ r' < srv.rooms.heap.length, r' ≠ r → s ∈ (srv.room r').members → JobQueued srv r' s

instance (srv : Server) (r : RoomRef) (s : SessionRef) : Decidable (JobsElsewhere srv r s) := by
  unfold JobsElsewhere; infer_instance

/-- Where the step takes `s` out of a room, every other room that holds it has a job of it queued.
-/
def KeepsPointer (s : SessionRef) (srv : Server) (step : Action × Env) : Prop :=
  ∀ r < srv.rooms.heap.length, srv.Leaving step.1 r s → s ∈ (srv.room r).members →
    JobsElsewhere srv r s

instance (s : SessionRef) (srv : Server) (step : Action × Env) :
    Decidable (KeepsPointer s srv step) := by
  unfold KeepsPointer; infer_instance

/-- The rooms that hold `s` and its pointer agree. -/
def Agree (srv : Server) (s : SessionRef) : Prop :=
  ∀ r, s ∈ (srv.room r).members ↔ srv.roomOf s = some r

/-- `s` is in the room with that name, and in no other, and points to it; or it is in none. -/
structure Placed (srv : Server) (s : SessionRef) (place : Option Bytes) : Prop where
  agree : Agree srv s
  name : (srv.roomOf s).map (fun r => (srv.room r).name) = place

/-- A step of the others, or a tick. -/
def Undisturbed (s : SessionRef) (srv : Server) (step : Action × Env) : Prop :=
  ¬ Disturbs s srv step.1 ∧ AdmitsIn s srv step

instance (s : SessionRef) (srv : Server) (step : Action × Env) :
    Decidable (Undisturbed s srv step) := by
  unfold Undisturbed; infer_instance

/-- **The invariant**: the queues leave `s` where `binds` says. -/
structure Bound (binds : RoomRef → Bool) (s : SessionRef) (srv : Server) : Prop where
  accepted : s < srv.nextSession
  pointsIn : PointsIn s srv
  bound : ∀ r, srv.rooms.bound r s = binds r

section

variable {binds : RoomRef → Bool} {steps : List (Action × Env)}

theorem binds_next (hi : Bound binds s srv) (hc : Undisturbed s srv (a, env))
    (h : next cfg srv (a, env) = some srv') : Bound binds s srv' where
  accepted := lt_of_lt_of_le hi.accepted (nextSession_next h)
  pointsIn := pointsIn_next hi.accepted hi.pointsIn h
  bound r := (bound_next hc.1 hc.2 h r).trans (hi.bound r)

theorem binds_run (hi : Bound binds s srv) (hc : Along (next cfg) (Undisturbed s) srv steps)
    (hrun : run (next cfg) srv steps = some srv') : Bound binds s srv' :=
  run_invariant (fun _ _ _ hi hc h => binds_next hi hc h) hi hc hrun

/-- A queue without jobs of `s` leaves it where it is. -/
theorem bound_of_no_job (h : ¬ JobQueued srv r s) :
    srv.rooms.bound r s = decide (s ∈ (srv.room r).members) :=
  memberBehind_others fun job hjob hsession => h ⟨job, hjob, hsession⟩

theorem not_jobQueued_of_done (h : JobsDone srv s) : ¬ JobQueued srv r s := by
  by_cases hr : r < srv.rooms.heap.length
  · exact h r hr
  · rintro ⟨job, hjob, -⟩
    exact hr (RoomManager.lt_of_queued hjob)

/-- At the end `s` is where the queues left it. -/
theorem members_of_done (hi : Bound binds s srv) (h : JobsDone srv s) :
    s ∈ (srv.room r).members ↔ binds r = true := by
  rw [← hi.bound r, bound_of_no_job (not_jobQueued_of_done h), decide_eq_true_iff]

/-- A room that binds `s` and has no job of it holds it. -/
theorem member_of_binds (hi : Bound binds s srv) (hr : binds r = true) (h : ¬ JobQueued srv r s) :
    s ∈ (srv.room r).members := by
  have hbound := bound_of_no_job h
  rw [hi.bound r, hr] at hbound
  exact of_decide_eq_true hbound.symm

theorem lt_of_bound (h : srv.rooms.bound r s = true) : r < srv.rooms.heap.length := by
  by_contra hle
  have hnew : srv.room r = .new [] 0 := RoomManager.room_of_le (not_lt.mp hle)
  have hnone : ¬ JobQueued srv r s := by
    rintro ⟨job, hjob, -⟩
    rw [hnew] at hjob
    exact absurd hjob List.not_mem_nil
  rw [bound_of_no_job hnone, hnew] at h
  exact absurd (of_decide_eq_true h) (IterSet.not_mem_empty s)

/-- A job of `s` that a step runs and that takes it nowhere takes it out. -/
theorem takesIn_of_running (hc : Undisturbed s srv (a, env)) (hjob : srv.running a r = some job)
    (hsession : job.session = some s) (hstays : ¬ srv.Leaving a r s) : srv.TakesIn a r s := by
  have hr := RoomManager.lt_of_queued (mem_of_running hjob)
  refine ⟨job, hjob, ?_⟩
  cases hsettles : job.settles s with
  | none => exact absurd hsession (settles_eq_none.mp hsettles)
  | some member =>
    cases member with
    | true =>
      rcases settles_eq_true.mp hsettles with rfl | hrejoin
      · exact Or.inl ⟨rfl, hc.2 r hr hjob⟩
      · exact Or.inr hrejoin
    | false => exact absurd ⟨job, hjob, settles_eq_false.mp hsettles⟩ hstays

/-- A job of `s` that a step does not run is still queued. -/
theorem jobQueued_next (h : next cfg srv (a, env) = some srv') (hqueued : JobQueued srv r s) :
    JobQueued srv' r s ∨ ∃ job, srv.running a r = some job ∧ job.session = some s := by
  obtain ⟨job, hjob, hsession⟩ := hqueued
  by_cases hwaiting : job ∈ srv.waiting a r
  · exact Or.inl ⟨job, (waiting_next h).mem hwaiting, hsession⟩
  · right
    cases rooms_next h r with
    | queued inside kept queue idle waiting =>
      rw [waiting] at hwaiting
      exact absurd hjob hwaiting
    | swept action room =>
      subst action
      exact absurd hjob hwaiting
    | ran job' jobs action queue room =>
      subst action
      rw [waiting_job queue] at hwaiting
      rw [queue] at hjob
      rcases List.mem_cons.mp hjob with rfl | hjob
      · exact ⟨job, running_job queue, hsession⟩
      · exact absurd hjob hwaiting

/-- The jobs of `s` come from its own steps. -/
theorem jobQueued_of_next (hc : Undisturbed s srv (a, env))
    (h : next cfg srv (a, env) = some srv') (hqueued : JobQueued srv' r s) : JobQueued srv r s := by
  obtain ⟨job, hjob, hsession⟩ := hqueued
  obtain ⟨jobs, hqueue, hothers⟩ := queue_undisturbed hc.1 h r
  rw [hqueue, List.mem_append] at hjob
  rcases hjob with hold | hnew
  · exact ⟨job, waiting_subset hold, hsession⟩
  · exact absurd hsession (hothers job hnew)

/-- Without a job of `s` there, it will not point to `r` again. -/
theorem unpointed_run (hs : s < srv.nextSession) (hc : Along (next cfg) (Undisturbed s) srv steps)
    (hrun : run (next cfg) srv steps = some srv') (hroom : srv.roomOf s ≠ some r)
    (hnone : ¬ JobQueued srv r s) : srv'.roomOf s ≠ some r := by
  have hend : s < srv'.nextSession ∧ srv'.roomOf s ≠ some r ∧ ¬ JobQueued srv' r s := by
    refine run_invariant
      (I := fun srv => s < srv.nextSession ∧ srv.roomOf s ≠ some r ∧ ¬ JobQueued srv r s) ?_
      ⟨hs, hroom, hnone⟩ hc hrun
    rintro srv ⟨a, env⟩ srv' ⟨hs, hroom, hnone⟩ hc h
    refine ⟨lt_of_lt_of_le hs (nextSession_next h), fun hroom' => ?_,
      fun hqueued => hnone (jobQueued_of_next hc h hqueued)⟩
    have heffect := sessions_next h hs
    rcases heffect.room with hsame | ⟨r', htakes⟩ | ⟨hgone, -⟩
    · exact hroom (hsame.symm.trans hroom')
    · have hsame : r' = r := Option.some.inj ((heffect.takenIn r' htakes).symm.trans hroom')
      subst hsame
      obtain ⟨job, hjob, htakes⟩ := htakes
      refine hnone ⟨job, mem_of_running hjob, ?_⟩
      rcases htakes with ⟨rfl, -⟩ | rfl <;> rfl
    · exact absurd (hroom'.symm.trans hgone) (by simp)
  exact hend.2.1

/-- **Where the end agrees**, no leave ran behind the arrival. -/
theorem keeps_of_agree (hi : Bound binds s srv) (hc : Along (next cfg) (Undisturbed s) srv steps)
    (hrun : run (next cfg) srv steps = some srv') (hdone : JobsDone srv' s)
    (hagree : Agree srv' s) : Along (next cfg) (KeepsPointer s) srv steps := by
  induction steps generalizing srv with
  | nil => trivial
  | cons step steps ih =>
    obtain ⟨a, env⟩ := step
    obtain ⟨srv₁, hnext, hrest⟩ := run_cons_inv hrun
    have hi₁ := binds_next hi hc.1 hnext
    have hc₁ := hc.2 srv₁ hnext
    refine ⟨fun r hr hleaves hmem r' hr' hne hmem' => ?_, fun t ht => ?_⟩
    · by_contra hnone
      -- it stays in `r'` and never points there again
      have hbinds : binds r' = true := by
        rw [← hi.bound r', bound_of_no_job hnone]
        exact decide_eq_true hmem'
      have hend := (hagree r').mp ((members_of_done (binds_run hi₁ hc₁ hrest) hdone).mpr hbinds)
      refine unpointed_run hi₁.accepted hc₁ hrest ?_ ?_ hend
      · rw [roomOf_leave hnext hleaves hmem]
        simp
      · exact fun hqueued => hnone (jobQueued_of_next hc.1 hnext hqueued)
    · obtain rfl := Option.some.inj (hnext.symm.trans ht)
      exact ih hi₁ hc₁ hrest

/-- A step that keeps the pointer leaves it set, or leaves the arrival to come. -/
theorem pointed_or_queued_next (hi : Bound binds s srv) (hr : binds r = true)
    (hc : Undisturbed s srv (a, env)) (hk : KeepsPointer s srv (a, env))
    (h : next cfg srv (a, env) = some srv') (hpointed : srv.roomOf s ≠ none ∨ JobQueued srv r s) :
    srv'.roomOf s ≠ none ∨ JobQueued srv' r s := by
  by_contra hneither
  obtain ⟨hnone, hidle⟩ := not_or.mp hneither
  have hnone' := not_not.mp hnone
  have heffect := sessions_next h hi.accepted
  have htakesNot : ∀ r', ¬ srv.TakesIn a r' s := fun r' htakes =>
    absurd (hnone'.symm.trans (heffect.takenIn r' htakes)) (by simp)
  have hmem' := (members_next h).mp (member_of_binds (binds_next hi hc h) hr hidle)
  obtain ⟨hmem, hstays⟩ := hmem'.resolve_left (htakesNot r)
  have hidle₀ : ¬ JobQueued srv r s := by
    intro hqueued
    rcases jobQueued_next h hqueued with hqueued | ⟨job, hjob, hsession⟩
    · exact hidle hqueued
    · exact htakesNot r (takesIn_of_running hc hjob hsession hstays)
  rcases heffect.room with hsame | ⟨r', htakes⟩ | ⟨-, ⟨r', hleaves, hmem'⟩ | hdisconnects⟩
  · exact hpointed.elim (fun hset => hset (hsame.symm.trans hnone')) hidle₀
  · exact htakesNot r' htakes
  · refine hidle₀ (hk r' (RoomManager.lt_of_member hmem') hleaves hmem' r
      (RoomManager.lt_of_member hmem) ?_ hmem)
    rintro rfl
    exact hstays hleaves
  · exact hc.1 (hdisconnects ▸ rfl)

/-- Until the arrival has run, it is queued; and behind it, `s` points somewhere. -/
theorem pointed_run (hi : Bound binds s srv) (hr : binds r = true)
    (hc : Along (next cfg) (Undisturbed s) srv steps)
    (hk : Along (next cfg) (KeepsPointer s) srv steps)
    (hrun : run (next cfg) srv steps = some srv')
    (hpointed : srv.roomOf s ≠ none ∨ JobQueued srv r s) :
    (srv'.roomOf s ≠ none ∨ JobQueued srv' r s) ∧ (srv'.room r).name = (srv.room r).name := by
  have hend : Bound binds s srv' ∧ (srv'.roomOf s ≠ none ∨ JobQueued srv' r s) ∧
      (srv'.room r).name = (srv.room r).name := by
    refine run_invariant
      (I := fun srv' => Bound binds s srv' ∧ (srv'.roomOf s ≠ none ∨ JobQueued srv' r s) ∧
        (srv'.room r).name = (srv.room r).name) ?_ ⟨hi, hpointed, rfl⟩ (along_and hc hk) hrun
    rintro srv₁ ⟨a, env⟩ srv₂ ⟨hi, hpointed, hname⟩ ⟨hc, hk⟩ h
    refine ⟨binds_next hi hc h, pointed_or_queued_next hi hr hc hk h hpointed, ?_⟩
    exact (name_next h (lt_of_bound ((hi.bound r).trans hr))).trans hname
  exact hend.2

end

/-! ## The end of a run -/

/-- A run from the start of the server in which `s` sends its last command logged in, after which
the rooms it enters admit it, it does nothing that queues a job, and its jobs are run. -/
structure Commanded (cfg : Config) (s : SessionRef) (before : List (Action × Env)) (last : Command)
    (env : Env) (after : List (Action × Env)) (srv₀ srv₁ srv₂ : Server) : Prop where
  start : run (next cfg) .empty before = some srv₀
  loggedIn : srv₀.account s ≠ []
  command : next cfg srv₀ (.packet s last.packet, env) = some srv₁
  finish : run (next cfg) srv₁ after = some srv₂
  undisturbed : Along (next cfg) (Undisturbed s) srv₁ after
  done : JobsDone srv₂ s

/-- No room is bound to hold `s` but the one it points to and the one the command enters. -/
def OnlyBound (cfg : Config) (srv : Server) (s : SessionRef) (command : Command) : Prop :=
  ∀ r < srv.rooms.heap.length, srv.rooms.bound r s = true →
    srv.roomOf s = some r ∨ command.room cfg srv = some r

instance (cfg : Config) (srv : Server) (s : SessionRef) (command : Command) :
    Decidable (OnlyBound cfg srv s command) := by
  unfold OnlyBound; infer_instance

section

variable {before after : List (Action × Env)} {last : Command} {srv₀ srv₁ srv₂ : Server}

/-- The queues behind the last command. -/
theorem Commanded.bound (h : Commanded cfg s before last env after srv₀ srv₁ srv₂) :
    Bound (fun r => if last.room cfg srv₀ = some r then true
      else if srv₀.roomOf s = some r then false else srv₀.rooms.bound r s) s srv₁ := by
  have hm := mapped_of_run h.start
  have hs := actor_next h.command (Or.inl ⟨_, rfl⟩)
  exact ⟨lt_of_lt_of_le hs (nextSession_next h.command),
    pointsIn_next hs (hm.pointsIn s hs) h.command, bound_command hm hs h.loggedIn h.command⟩

/-- The room a `C_ROOM_ENTER` enters has the name, and the arrival is queued in it. -/
theorem arrival_queued {name : Bytes} (hm : Mapped srv) (hlogin : srv.account s ≠ [])
    (h : next cfg srv (.packet s (.roomEnter (some name)), env) = some srv')
    (hr : (Command.enter name).room cfg srv = some r) :
    JobQueued srv' r s ∧ (srv'.room r).name = name := by
  obtain rfl := Option.some.inj hr
  obtain ⟨srv₁, hacts, rfl⟩ := next_acts h
  have hpushed : ∀ m : RoomManager, m.Named →
      (m.getOrCreate cfg.maxRoomPlayers name).1 =
        (srv.rooms.getOrCreate cfg.maxRoomPlayers name).1 →
      (srv.handleCRoomEnter env s cfg (some name)).rooms =
        (m.getOrCreate cfg.maxRoomPlayers name).2.pushJob
          (srv.rooms.getOrCreate cfg.maxRoomPlayers name).1 (.handleEnter s) →
      JobQueued (srv.handleCRoomEnter env s cfg (some name))
          (srv.rooms.getOrCreate cfg.maxRoomPlayers name).1 s ∧
        ((srv.handleCRoomEnter env s cfg (some name)).room
          (srv.rooms.getOrCreate cfg.maxRoomPlayers name).1).name = name := by
    intro m hnamed hsame hrooms
    obtain ⟨hcreated, hname⟩ := @getOrCreate_named m name cfg.maxRoomPlayers hnamed
    rw [hsame] at hcreated hname
    unfold JobQueued Server.room
    rw [hrooms]
    refine ⟨⟨.handleEnter s, RoomManager.mem_pushJob hcreated, rfl⟩, ?_⟩
    exact (RoomManager.room_modify_part GameRoom.name
      (f := fun room => room.pushJob (.handleEnter s)) (fun _ => rfl) _ _).trans hname
  cases hacts with
  | packet packet accepted =>
    cases hroom : srv.roomOf s with
    | none => exact hpushed _ hm.named rfl (rooms_enter_outside hlogin hroom)
    | some prev =>
      exact hpushed _ (named_pushJob hm.named) getOrCreate_pushJob
        (rooms_enter_inside hlogin hroom)

/-- **Where the commands lead**: the session ends up where its last command says, in one room at
most and pointing to it, exactly if that command found no third room bound to hold the session and
no leave ran behind the arrival. -/
theorem placed_iff (h : Commanded cfg s before last env after srv₀ srv₁ srv₂) :
    Placed srv₂ s last.target ↔
      OnlyBound cfg srv₀ s last ∧ Along (next cfg) (KeepsPointer s) srv₁ after := by
  have hm := mapped_of_run h.start
  have hs := actor_next h.command (Or.inl ⟨_, rfl⟩)
  have hbound := h.bound
  have hend := binds_run hbound h.undisturbed h.finish
  have hmembers := fun r => members_of_done (r := r) hend h.done
  constructor
  · intro hplaced
    refine ⟨fun r hr hbinds => ?_,
      keeps_of_agree hbound h.undisturbed h.finish h.done hplaced.agree⟩
    by_contra hneither
    obtain ⟨hpointer, hroom⟩ := not_or.mp hneither
    have hhere : srv₂.roomOf s = some r := (hplaced.agree r).mp
      ((hmembers r).mpr (by simp only [if_neg hroom, if_neg hpointer, hbinds]))
    cases last with
    | enter name =>
      have hthere := (hplaced.agree _).mp ((hmembers _).mpr (if_pos rfl))
      exact hroom (congrArg some (Option.some.inj (hthere.symm.trans hhere)))
    | leave =>
      have hname := hplaced.name
      rw [hhere] at hname
      exact absurd hname (by simp [Command.target])
  · rintro ⟨honly, hkeeps⟩
    have hin : ∀ r, s ∈ (srv₂.room r).members ↔ last.room cfg srv₀ = some r := by
      intro r
      rw [hmembers r]
      constructor
      · intro hbinds
        by_contra hroom
        rw [if_neg hroom] at hbinds
        split at hbinds
        · exact absurd hbinds (by simp)
        · rename_i hpointer
          exact (honly r (lt_of_bound hbinds) hbinds).elim hpointer hroom
      · exact fun hroom => if_pos hroom
    cases last with
    | leave =>
      have hnone : srv₂.roomOf s = none := by
        cases hroom : srv₂.roomOf s with
        | none => rfl
        | some r => exact absurd ((hin r).mp (hend.pointsIn r hroom)) (by simp [Command.room])
      refine ⟨fun r => ?_, by rw [hnone]; rfl⟩
      rw [hin r, hnone]
      simp [Command.room]
    | enter name =>
      obtain ⟨hqueued, hname⟩ := arrival_queued hm h.loggedIn h.command rfl
      obtain ⟨hpointed, hkept⟩ :=
        pointed_run hbound (if_pos rfl) h.undisturbed hkeeps h.finish (Or.inr hqueued)
      obtain ⟨r, hroom⟩ := Option.ne_none_iff_exists'.mp
        (hpointed.resolve_right (not_jobQueued_of_done h.done))
      have hsame := (hin r).mp (hend.pointsIn r hroom)
      refine ⟨fun r' => ?_, ?_⟩
      · rw [hin r', hsame, hroom]
      · rw [hroom]
        obtain rfl := Option.some.inj hsame
        exact congrArg some (hkept.trans hname)

theorem commandOf_packet {command : Command} :
    commandOf s (.packet s command.packet) = some command := by
  cases command with
  | enter name => exact if_pos rfl
  | leave => exact if_pos rfl

/-- A command of `s` disturbs it. -/
theorem commandOf_undisturbed (h : ¬ Disturbs s srv a) : commandOf s a = none := by
  unfold commandOf
  split
  · exact if_neg h
  · exact if_neg h
  · rfl

theorem commands_undisturbed {steps : List (Action × Env)}
    (hc : Along (next cfg) (Undisturbed s) srv steps)
    (hrun : run (next cfg) srv steps = some srv') : commands s steps = [] := by
  induction steps generalizing srv with
  | nil => rfl
  | cons step steps ih =>
    obtain ⟨srv₁, hnext, hrest⟩ := run_cons_inv hrun
    unfold commands
    rw [List.filterMap_cons, commandOf_undisturbed hc.1.1]
    exact ih (hc.2 srv₁ hnext) hrest

/-- The last of the commands of the run. -/
theorem Commanded.commands (h : Commanded cfg s before last env after srv₀ srv₁ srv₂) :
    RealtimeServer.commands s (before ++ (.packet s last.packet, env) :: after) =
      RealtimeServer.commands s before ++ [last] := by
  have hnone := commands_undisturbed h.undisturbed h.finish
  unfold RealtimeServer.commands at hnone ⊢
  rw [List.filterMap_append, List.filterMap_cons, commandOf_packet, hnone]

variable {before' after' : List (Action × Env)} {last' : Command} {env' : Env}
  {srv₀' srv₁' srv₂' : Server}

/-- **The same commands, the same place**: two runs in which a session sends the same commands, and
its queues are drained at the end, both leave it where these commands say, exactly if both meet the
two conditions. -/
theorem placement_agrees (h : Commanded cfg s before last env after srv₀ srv₁ srv₂)
    (h' : Commanded cfg s before' last' env' after' srv₀' srv₁' srv₂')
    (hsame : commands s (before ++ (.packet s last.packet, env) :: after) =
      commands s (before' ++ (.packet s last'.packet, env') :: after')) :
    (Placed srv₂ s last.target ∧ Placed srv₂' s last.target) ↔
      (OnlyBound cfg srv₀ s last ∧ Along (next cfg) (KeepsPointer s) srv₁ after) ∧
        (OnlyBound cfg srv₀' s last' ∧ Along (next cfg) (KeepsPointer s) srv₁' after') := by
  rw [h.commands, h'.commands] at hsame
  obtain rfl : last = last' := (List.cons.inj (List.append_inj_right' hsame rfl)).1
  exact and_congr (placed_iff h) (placed_iff h')

/-- A session logs in and enters room `A`. -/
def arrival : List (Action × Env) :=
  quietly
    [.accept true, .packet 0 (.login (some [116])), .authCallback 0 true [97],
      .packet 0 (.roomEnter (some [65]))]

/-- When room `A` has been ticked it enters room `B`. Whatever else happens until both rooms are
ticked, it ends up there. -/
theorem placement_agrees_inTurn :
    ∃ srv₀ srv₁ srv₂ srv₂',
      run (next ⟨16, 30000, 60000⟩) .empty (arrival ++ quietly [.job 0]) = some srv₀ ∧
      next ⟨16, 30000, 60000⟩ srv₀ (.packet 0 (.roomEnter (some [66])), .quiet 1000) = some srv₁ ∧
      run (next ⟨16, 30000, 60000⟩) srv₁ (quietly [.job 0, .job 1]) = some srv₂ ∧
      run (next ⟨16, 30000, 60000⟩) srv₁
        (quietly [.packet 0 .ready, .job 0, .job 0, .accept true, .tickEnd 0, .job 1]) =
          some srv₂' ∧
      Placed srv₂ 0 (some [66]) ∧ Placed srv₂' 0 (some [66]) := by
  obtain ⟨srv₀, hstart, hlogin, honly, srv₁, hcommand, hquiet, hkeeps, hquiet', hkeeps',
      srv₂, hfinish, hdone, srv₂', hfinish', hdone'⟩ :
      ∃ srv₀, run (next ⟨16, 30000, 60000⟩) .empty (arrival ++ quietly [.job 0]) = some srv₀ ∧
        srv₀.account 0 ≠ [] ∧ OnlyBound ⟨16, 30000, 60000⟩ srv₀ 0 (.enter [66]) ∧
        ∃ srv₁, next ⟨16, 30000, 60000⟩ srv₀ (.packet 0 (.roomEnter (some [66])), .quiet 1000) =
            some srv₁ ∧
          Along (next ⟨16, 30000, 60000⟩) (Undisturbed 0) srv₁ (quietly [.job 0, .job 1]) ∧
          Along (next ⟨16, 30000, 60000⟩) (KeepsPointer 0) srv₁ (quietly [.job 0, .job 1]) ∧
          Along (next ⟨16, 30000, 60000⟩) (Undisturbed 0) srv₁
            (quietly [.packet 0 .ready, .job 0, .job 0, .accept true, .tickEnd 0, .job 1]) ∧
          Along (next ⟨16, 30000, 60000⟩) (KeepsPointer 0) srv₁
            (quietly [.packet 0 .ready, .job 0, .job 0, .accept true, .tickEnd 0, .job 1]) ∧
          ∃ srv₂, run (next ⟨16, 30000, 60000⟩) srv₁ (quietly [.job 0, .job 1]) = some srv₂ ∧
            JobsDone srv₂ 0 ∧
            ∃ srv₂', run (next ⟨16, 30000, 60000⟩) srv₁
                (quietly [.packet 0 .ready, .job 0, .job 0, .accept true, .tickEnd 0, .job 1]) =
                  some srv₂' ∧ JobsDone srv₂' 0 := by decide
  have h : Commanded ⟨16, 30000, 60000⟩ 0 (arrival ++ quietly [.job 0]) (.enter [66])
      (.quiet 1000) (quietly [.job 0, .job 1]) srv₀ srv₁ srv₂ :=
    ⟨hstart, hlogin, hcommand, hfinish, hquiet, hdone⟩
  have h' : Commanded ⟨16, 30000, 60000⟩ 0 (arrival ++ quietly [.job 0]) (.enter [66])
      (.quiet 1000)
      (quietly [.packet 0 .ready, .job 0, .job 0, .accept true, .tickEnd 0, .job 1])
      srv₀ srv₁ srv₂' := ⟨hstart, hlogin, hcommand, hfinish', hquiet', hdone'⟩
  exact ⟨srv₀, srv₁, srv₂, srv₂', hstart, hcommand, hfinish, hfinish',
    (placement_agrees h h' (by decide)).mpr ⟨⟨honly, hkeeps⟩, ⟨honly, hkeeps'⟩⟩⟩

/-- It enters room `B` without waiting for the tick, which then ticks both. -/
def atOnce : List (Action × Env) :=
  arrival ++ quietly [.packet 0 (.roomEnter (some [66])), .job 0, .job 1]

/-- The same commands with a tick between them. -/
def inTurn : List (Action × Env) :=
  arrival ++ quietly [.job 0, .packet 0 (.roomEnter (some [66])), .job 0, .job 1]

/-- With a tick between the commands it ends up in `B`; without, in both rooms. -/
theorem placed_twice :
    commands 0 atOnce = commands 0 inTurn ∧
      (∃ srv, run (next ⟨16, 30000, 60000⟩) .empty inTurn = some srv ∧ JobsDone srv 0 ∧
        srv.roomOf 0 = some 1 ∧ 0 ∉ (srv.room 0).members ∧ 0 ∈ (srv.room 1).members) ∧
      ∃ srv, run (next ⟨16, 30000, 60000⟩) .empty atOnce = some srv ∧ JobsDone srv 0 ∧
        srv.roomOf 0 = some 1 ∧ 0 ∈ (srv.room 0).members ∧ 0 ∈ (srv.room 1).members := by
  decide

end

end

end RealtimeServer
