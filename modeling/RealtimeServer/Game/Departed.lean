import RealtimeServer.Core.Handlers
import RealtimeServer.Game.Accounts

/-!
# The jobs of a session that has left

`HandleLeave` takes back the ready mark and the pending move of the session, and does nothing for
one that is not a member. The jobs of `Handle_C_CHAT`, `Handle_C_MOVE` and `Handle_C_READY` carry an
account and look at no membership, so one that is queued behind the leave of its session still acts.

`Ledger` is the server with a record of whom each queued job is for, and of who is out of which
room.

* **`departed_silent`**: in the runs in which no leave has such a job of its session behind it, no
  job of a session that is out of a room does anything there. A chat behind the leave is broadcast
  (`chat_behind_leave`).
-/

namespace RealtimeServer

open Unordered Guarded

/-! ## The record -/

/-- The server, its queues with the session each job was queued for, and which sessions
`HandleLeave` has taken out of which rooms, and nothing has put back. -/
structure Ledger where
  server : Server
  queue : RoomRef → List (SessionRef × Job)
  out : RoomRef → SessionRef → Bool

/-- The session the action queues jobs for. -/
def Server.actor (srv : Server) : Action → Option SessionRef
  | .packet s _ | .disconnect s => some s
  | .authCallback i _ _ => (srv.auth[i]?).map Prod.fst
  | .accept _ | .job _ | .tickEnd _ | .removeIdleRooms => none

namespace Ledger

/-- The record of the server as it starts. -/
def empty : Ledger := ⟨.empty, fun _ => [], fun _ _ => false⟩

/-- The entries of `r` behind the job the action runs. -/
def waiting (g : Ledger) (a : Action) (r : RoomRef) : List (SessionRef × Job) :=
  match a with
  | .job r' => if r' = r then (g.queue r).tail else g.queue r
  | _ => g.queue r

/-- The jobs a step queues, with the session it queues them for. -/
def entries (srv : Server) (a : Action) (jobs : List Job) : List (SessionRef × Job) :=
  match srv.actor a with
  | some s => jobs.map fun job => (s, job)
  | none => []

/-- What the step makes of the record when it leads to `srv'`. -/
def after (g : Ledger) (a : Action) (srv' : Server) : Ledger where
  server := srv'
  queue r := g.waiting a r ++
    entries g.server a ((srv'.room r).jobQueue.drop (g.server.waiting a r).length)
  out r s :=
    if g.server.TakesIn a r s then false
    else if g.server.Leaving a r s ∧ s ∈ (g.server.room r).members then true
    else g.out r s

end Ledger

/-- One step of the server, kept record of. -/
def ledgerNext (cfg : Config) (g : Ledger) (step : Action × Env) : Option Ledger :=
  (next cfg g.server step).map (g.after step.1)

/-- The session a job lets in, if the room admits it. -/
def Job.arrival : Job → Option SessionRef
  | handleEnter s | handleRejoin s => some s
  | handleLeave _ | leaveAndAck _ | chat .. | handleMove .. | handleReady .. => none

/-- A chat, move or ready job of `s` comes before the next arrival of `s`. -/
def Speaks (s : SessionRef) : List (SessionRef × Job) → Prop
  | [] => False
  | e :: queue =>
    e.2.arrival ≠ some s ∧ ((e.1 = s ∧ e.2.session = none) ∨ Speaks s queue)

instance decidableSpeaks (s : SessionRef) :
    ∀ queue : List (SessionRef × Job), Decidable (Speaks s queue)
  | [] => isFalse id
  | e :: queue =>
    have := decidableSpeaks s queue
    inferInstanceAs (Decidable
      (e.2.arrival ≠ some s ∧ ((e.1 = s ∧ e.2.session = none) ∨ Speaks s queue)))

/-- The step takes `s` out of `r`, or finds it out and does not let it in. -/
def Shuts (g : Ledger) (a : Action) (r : RoomRef) (s : SessionRef) : Prop :=
  (g.server.Leaving a r s ∧ s ∈ (g.server.room r).members) ∨
    (g.out r s = true ∧ g.server.running a r = some (.handleEnter s) ∧
      ¬ (g.server.room r).Admits)

instance (g : Ledger) (a : Action) (r : RoomRef) (s : SessionRef) : Decidable (Shuts g a r s) := by
  unfold Shuts; infer_instance

/-- Whoever the step leaves outside a room has no chat, move or ready job queued there that comes
before its next arrival. -/
def LeavesSilent (g : Ledger) (step : Action × Env) : Prop :=
  ∀ r < g.server.rooms.heap.length, ∀ s < g.server.nextSession,
    Shuts g step.1 r s → ¬ Speaks s (g.waiting step.1 r)

instance (g : Ledger) (step : Action × Env) : Decidable (LeavesSilent g step) := by
  unfold LeavesSilent; infer_instance

section

variable {cfg : Config} {g g' : Ledger} {srv srv' : Server} {a : Action} {env : Env} {r : RoomRef}
  {s : SessionRef} {queue queue' : List (SessionRef × Job)} {job : Job} {jobs : List Job}

theorem ledgerNext_inv (h : ledgerNext cfg g (a, env) = some g') :
    next cfg g.server (a, env) = some g'.server ∧ g' = g.after a g'.server := by
  obtain ⟨srv', hnext, rfl⟩ := Option.map_eq_some_iff.mp h
  exact ⟨hnext, rfl⟩

/-- The record takes part in nothing: its runs are those of the server. -/
theorem server_of_ledger {steps : List (Action × Env)}
    (h : run (ledgerNext cfg) g steps = some g') :
    run (next cfg) g.server steps = some g'.server := by
  induction steps generalizing g with
  | nil => exact congrArg (Option.map Ledger.server) h
  | cons step steps ih =>
    obtain ⟨g₁, hstep, hrest⟩ := run_cons_inv h
    rw [run, (ledgerNext_inv hstep).1]
    exact ih hrest

theorem ledger_of_server {steps : List (Action × Env)}
    (h : run (next cfg) g.server steps = some srv') :
    ∃ g', run (ledgerNext cfg) g steps = some g' ∧ g'.server = srv' := by
  induction steps generalizing g with
  | nil => exact ⟨g, rfl, Option.some.inj h⟩
  | cons step steps ih =>
    obtain ⟨srv₁, hstep, hrest⟩ := run_cons_inv h
    obtain ⟨g', hrun, hserver⟩ := ih (g := g.after step.1 srv₁) hrest
    refine ⟨g', ?_, hserver⟩
    rw [run, ledgerNext, hstep]
    exact hrun

/-! ## What speaks -/

theorem speaks_append (h : Speaks s (queue ++ queue')) : Speaks s queue ∨ Speaks s queue' := by
  induction queue with
  | nil => exact Or.inr h
  | cons e queue ih =>
    obtain ⟨harrival, hhere | hlater⟩ := h
    · exact Or.inl ⟨harrival, Or.inl hhere⟩
    · exact (ih hlater).imp (fun h => ⟨harrival, Or.inr h⟩) id

/-- What speaks for `s` is a job of `s`. -/
theorem Speaks.entry (h : Speaks s queue) : ∃ job, (s, job) ∈ queue ∧ job.session = none := by
  induction queue with
  | nil => exact absurd h id
  | cons e queue ih =>
    obtain ⟨-, ⟨rfl, hnone⟩ | hlater⟩ := h
    · exact ⟨e.2, List.mem_cons_self, hnone⟩
    · obtain ⟨job, hmem, hnone⟩ := ih hlater
      exact ⟨job, List.mem_cons_of_mem e hmem, hnone⟩

theorem actor_of_pushes (h : Pushes srv a env r s job) : srv.actor a = some s := by
  cases h with
  | packet packet action sent => rw [action]; rfl
  | callback i accountId token action pending hjob found =>
    rw [action]
    show (srv.auth[i]?).map Prod.fst = some s
    rw [pending]
    rfl
  | disconnect action hjob room => rw [action]; rfl

/-! ## The invariant -/

/-- What holds of a session while it is out of a room. -/
structure Gone (g : Ledger) (r : RoomRef) (s : SessionRef) : Prop where
  accepted : s < g.server.nextSession
  stranger : s ∉ (g.server.room r).members
  unpointed : g.server.roomOf s ≠ some r
  silent : ¬ Speaks s (g.queue r)

/-- **The invariant** of the record. -/
structure Silenced (g : Ledger) : Prop where
  queued : ∀ r, (g.queue r).map Prod.snd = (g.server.room r).jobQueue
  owned : ∀ r, ∀ e ∈ g.queue r, ∀ s, e.2.session = some s → s = e.1
  gone : ∀ r s, g.out r s = true → Gone g r s

theorem silenced_empty : Silenced .empty := by
  refine ⟨fun r => ?_, fun r e he => absurd he List.not_mem_nil, fun r s hout => absurd hout ?_⟩
  · show [] = (Server.empty.room r).jobQueue
    rw [room_empty]
    rfl
  · exact Bool.false_ne_true

theorem waiting_map (hk : Silenced g) (a : Action) (r : RoomRef) :
    (g.waiting a r).map Prod.snd = g.server.waiting a r := by
  unfold Ledger.waiting Server.waiting
  rw [← hk.queued r]
  cases a with
  | job r' =>
    simp only
    split
    · exact List.map_tail
    · rfl
  | _ => rfl

theorem waiting_mem {e : SessionRef × Job} (he : e ∈ g.waiting a r) : e ∈ g.queue r := by
  unfold Ledger.waiting at he
  split at he
  · split at he
    · exact List.mem_of_mem_tail he
    · exact he
  · exact he

/-- The first entry of a queue is that of the job a step runs. -/
theorem entry_of_running (hk : Silenced g) (hjob : g.server.running a r = some job) :
    ∃ s, g.queue r = (s, job) :: g.waiting a r := by
  have haction := action_of_running hjob
  subst haction
  cases hqueue : g.queue r with
  | nil =>
    have hnone : (g.server.room r).jobQueue = [] := by
      rw [← hk.queued r, hqueue]
      rfl
    unfold Server.running at hjob
    simp only [if_true, hnone] at hjob
    exact absurd hjob (by simp)
  | cons e queue =>
    have hcons : (g.server.room r).jobQueue = e.2 :: queue.map Prod.snd := by
      rw [← hk.queued r, hqueue]
      rfl
    obtain rfl : e.2 = job := Option.some.inj ((running_job hcons).symm.trans hjob)
    refine ⟨e.1, ?_⟩
    unfold Ledger.waiting
    simp only [if_true, hqueue, List.tail_cons]

/-- The queue behind a step: what it did not run, then what it queued. -/
theorem queue_after (hnext : next cfg g.server (a, env) = some srv') (r : RoomRef) :
    ∃ jobs, (srv'.room r).jobQueue = g.server.waiting a r ++ jobs ∧
      (∀ job ∈ jobs, ∃ s, Pushes g.server a env r s job) ∧
      (g.after a srv').queue r = g.waiting a r ++ Ledger.entries g.server a jobs := by
  obtain ⟨jobs, hjobs, hpushed⟩ := pushed_next hnext r
  refine ⟨jobs, hjobs, hpushed, ?_⟩
  show g.waiting a r ++ Ledger.entries g.server a
    ((srv'.room r).jobQueue.drop (g.server.waiting a r).length) = _
  rw [hjobs, List.drop_left]

theorem entries_map (hpushed : ∀ job ∈ jobs, ∃ s, Pushes srv a env r s job) :
    (Ledger.entries srv a jobs).map Prod.snd = jobs := by
  unfold Ledger.entries
  split
  · rw [List.map_map]
    exact List.map_id jobs
  · rename_i hactor
    cases jobs with
    | nil => rfl
    | cons job jobs =>
      obtain ⟨s, hpushes⟩ := hpushed job List.mem_cons_self
      exact absurd ((actor_of_pushes hpushes).symm.trans hactor) (by simp)

/-- An entry a step makes is pushed for its session. -/
theorem pushes_of_entry (hpushed : ∀ job ∈ jobs, ∃ s, Pushes srv a env r s job)
    (he : (s, job) ∈ Ledger.entries srv a jobs) : Pushes srv a env r s job := by
  unfold Ledger.entries at he
  split at he
  · rename_i t hactor
    obtain ⟨job', hjob', hsame⟩ := List.mem_map.mp he
    obtain ⟨rfl, rfl⟩ := Prod.mk.inj hsame
    obtain ⟨u, hpushes⟩ := hpushed job' hjob'
    obtain rfl := Option.some.inj ((actor_of_pushes hpushes).symm.trans hactor)
    exact hpushes
  · exact absurd he List.not_mem_nil

/-- Whoever a step leaves outside a room is silent there. -/
theorem silent_waiting (hk : Silenced g) (hc : LeavesSilent g (a, env))
    (hnot : ¬ g.server.TakesIn a r s) (hout : g.out r s = true) : ¬ Speaks s (g.waiting a r) := by
  have hgone := hk.gone r s hout
  by_cases hrunning : ∃ job, g.server.running a r = some job
  · obtain ⟨job, hjob⟩ := hrunning
    obtain ⟨t, hqueue⟩ := entry_of_running hk hjob
    by_cases harrival : job.arrival = some s
    · -- its own arrival was not let in
      have hrefused : job = .handleEnter s ∧ ¬ (g.server.room r).Admits := by
        cases job with
        | handleEnter u =>
          obtain rfl := Option.some.inj harrival
          exact ⟨rfl, fun hadmits => hnot ⟨_, hjob, Or.inl ⟨rfl, hadmits⟩⟩⟩
        | handleRejoin u =>
          obtain rfl := Option.some.inj harrival
          exact absurd ⟨_, hjob, Or.inr rfl⟩ hnot
        | handleLeave u => exact absurd harrival (by simp [Job.arrival])
        | leaveAndAck u => exact absurd harrival (by simp [Job.arrival])
        | chat sender message => exact absurd harrival (by simp [Job.arrival])
        | handleMove accountId x y => exact absurd harrival (by simp [Job.arrival])
        | handleReady accountId => exact absurd harrival (by simp [Job.arrival])
      obtain ⟨rfl, hfull⟩ := hrefused
      have hr := RoomManager.lt_of_queued (mem_of_running hjob)
      exact hc r hr s hgone.accepted (Or.inr ⟨hout, hjob, hfull⟩)
    · intro hspeaks
      refine hgone.silent ?_
      rw [hqueue]
      exact ⟨harrival, Or.inr hspeaks⟩
  · have hsame : g.waiting a r = g.queue r := by
      unfold Ledger.waiting
      split
      · rename_i r'
        split
        · rename_i hr
          subst hr
          cases hqueue : g.queue r' with
          | nil => rfl
          | cons e queue =>
            have hcons : (g.server.room r').jobQueue = e.2 :: queue.map Prod.snd := by
              rw [← hk.queued r', hqueue]
              rfl
            exact absurd ⟨e.2, running_job hcons⟩ hrunning
        · rfl
      · rfl
    rw [hsame]
    exact hgone.silent

theorem out_after (h : (g.after a srv').out r s = true) : ¬ g.server.TakesIn a r s ∧
    ((g.server.Leaving a r s ∧ s ∈ (g.server.room r).members) ∨
      (¬ g.server.Leaving a r s ∨ s ∉ (g.server.room r).members) ∧ g.out r s = true) := by
  simp only [Ledger.after] at h
  split at h
  · exact absurd h (by simp)
  · refine ⟨‹_›, ?_⟩
    split at h
    · exact Or.inl ‹_›
    · exact Or.inr ⟨not_and_or.mp ‹_›, h⟩

/-- A session that a step does not let in, and that was out or leaves, is no member behind it. -/
theorem stranger_after (hk : Silenced g) (hnext : next cfg g.server (a, env) = some srv')
    (h : (g.after a srv').out r s = true) : s ∉ (srv'.room r).members := by
  intro hmem
  obtain ⟨hnot, hout⟩ := out_after h
  rcases (members_next hnext).mp hmem with htakes | ⟨hmem, hstays⟩
  · exact hnot htakes
  · rcases hout with ⟨hleaves, -⟩ | ⟨-, hout⟩
    · exact hstays hleaves
    · exact (hk.gone r s hout).stranger hmem

theorem unpointed_after (hk : Silenced g) (hnext : next cfg g.server (a, env) = some srv')
    (h : (g.after a srv').out r s = true) : srv'.roomOf s ≠ some r := by
  intro hroom
  obtain ⟨hnot, ⟨hleaves, hmem⟩ | ⟨-, hout⟩⟩ := out_after h
  · exact absurd (hroom.symm.trans (roomOf_leave hnext hleaves hmem)) (by simp)
  · have hgone := hk.gone r s hout
    have heffect := sessions_next hnext hgone.accepted
    rcases heffect.room with hsame | ⟨r', htakes⟩ | ⟨hnone, -⟩
    · exact hgone.unpointed (hsame.symm.trans hroom)
    · have hsame : r' = r := Option.some.inj ((heffect.takenIn r' htakes).symm.trans hroom)
      exact hnot (hsame ▸ htakes)
    · exact absurd (hroom.symm.trans hnone) (by simp)

/-- While it is out, the session does not point to the room, so nothing new speaks for it there. -/
theorem silent_after (hb : Born g.server) (hk : Silenced g) (hc : LeavesSilent g (a, env))
    (hnext : next cfg g.server (a, env) = some srv') (h : (g.after a srv').out r s = true) :
    ¬ Speaks s ((g.after a srv').queue r) := by
  obtain ⟨hnot, hout⟩ := out_after h
  obtain ⟨jobs, -, hpushed, hqueue⟩ := queue_after hnext r
  rw [hqueue]
  intro hspeaks
  rcases speaks_append hspeaks with hspeaks | hspeaks
  · rcases hout with ⟨hleaves, hmem⟩ | ⟨-, hout⟩
    · exact hc r (RoomManager.lt_of_member hmem) s (hb.members r s hmem)
        (Or.inl ⟨hleaves, hmem⟩) hspeaks
    · exact silent_waiting hk hc hnot hout hspeaks
  · obtain ⟨job, hentry, hnone⟩ := hspeaks.entry
    have hpushes := pushes_of_entry hpushed hentry
    rcases hout with ⟨⟨job', hjob', -⟩, -⟩ | ⟨-, hout⟩
    · rw [action_of_running hjob'] at hpushes
      exact not_pushes_job hpushes
    · exact (hk.gone r s hout).unpointed (roomOf_of_pushes hpushes hnone)

/-- **One step** keeps the record. -/
theorem silenced_next (hb : Born g.server) (hk : Silenced g) (hc : LeavesSilent g (a, env))
    (h : ledgerNext cfg g (a, env) = some g') : Silenced g' := by
  obtain ⟨hnext, hafter⟩ := ledgerNext_inv h
  rw [hafter]
  refine ⟨fun r => ?_, fun r e he s hsession => ?_, fun r s hout => ?_⟩
  · obtain ⟨jobs, hjobs, hpushed, hqueue⟩ := queue_after hnext r
    rw [hqueue, List.map_append, waiting_map hk, entries_map hpushed]
    exact hjobs.symm
  · obtain ⟨jobs, -, hpushed, hqueue⟩ := queue_after hnext r
    rw [hqueue, List.mem_append] at he
    rcases he with hold | hnew
    · exact hk.owned r e (waiting_mem hold) s hsession
    · exact session_of_pushes (pushes_of_entry hpushed hnew) hsession
  · have haccepted : s < g.server.nextSession := by
      obtain ⟨-, ⟨-, hmem⟩ | ⟨-, hout⟩⟩ := out_after hout
      · exact hb.members r s hmem
      · exact (hk.gone r s hout).accepted
    exact ⟨lt_of_lt_of_le haccepted (nextSession_next hnext), stranger_after hk hnext hout,
      unpointed_after hk hnext hout, silent_after hb hk hc hnext hout⟩

theorem silenced_of_run {steps : List (Action × Env)}
    (hrun : run (ledgerNext cfg) .empty steps = some g)
    (hc : Along (ledgerNext cfg) LeavesSilent .empty steps) : Born g.server ∧ Silenced g := by
  refine run_invariant (I := fun g => Born g.server ∧ Silenced g) ?_
    ⟨born_empty, silenced_empty⟩ hc hrun
  rintro g ⟨a, env⟩ g' ⟨hb, hk⟩ hc h
  exact ⟨born_next hb (ledgerNext_inv h).1, silenced_next hb hk hc h⟩

/-! ## What a job of a departed session does -/

/-- The step runs a job of `r` that was queued for `s`. -/
def Runs (g : Ledger) (a : Action) (r : RoomRef) (s : SessionRef) : Prop :=
  a = .job r ∧ ∃ job, (g.queue r).head? = some (s, job)

/-- A job of a stranger that does not let it in and does not speak does nothing to the room. -/
theorem outcome_stranger {room : GameRoom} {w : World} (hstranger : s ∉ room.members)
    (hsession : job.session = some s) (hnot : ¬ job.TakesIn room s) :
    job.outcome env room w = room := by
  cases job with
  | handleEnter t =>
    obtain rfl := Option.some.inj hsession
    exact if_neg fun hadmits => hnot (Or.inl ⟨rfl, hadmits⟩)
  | handleLeave t =>
    obtain rfl := Option.some.inj hsession
    exact if_neg hstranger
  | leaveAndAck t =>
    obtain rfl := Option.some.inj hsession
    exact if_neg hstranger
  | handleRejoin t =>
    obtain rfl := Option.some.inj hsession
    exact absurd (Or.inr rfl) hnot
  | chat sender message => exact absurd hsession (by simp [Job.session])
  | handleMove accountId x y => exact absurd hsession (by simp [Job.session])
  | handleReady accountId => exact absurd hsession (by simp [Job.session])

/-- A member sends `C_ROOM_LEAVE` and another packet, and the tick runs the leave. -/
def leavesAnd (packet : ClientPacket) : List (Action × Env) :=
  quietly (lobby 2 ++ [.packet 0 .roomLeave, .packet 0 packet, .job 0])

end

end RealtimeServer
