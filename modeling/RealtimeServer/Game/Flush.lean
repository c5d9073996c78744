import RealtimeServer.Game.RoomLifetime

/-!
# `Push` and `Flush`

`JobQueue` (`Utils/JobQueue.h`) as `Threads` runs it: any thread pushes, the tick swaps the queue
out and runs what it has taken while others push. `RoomLifetime` asks for the rooms to stay; here
nothing is asked, and what is left is the order of the jobs.

* **`conserved_of_run`**: in every run, the jobs pushed to a room are those it has run, then those
  its tick has taken, then those in its queue. So a job is run at most once, and none overtakes
  another.
* **`ticked_all`**: what was pushed to a room in the map before `TickAll` has run when it is done.
* `goes_next`: what a step does to the handlers under way, and to what was pushed.
-/

namespace RealtimeServer

open Unordered Guarded

/-- Every room that a session, a handler or a tick can name was created. -/
structure Addressed (st : Threads) : Prop where
  live : ∀ r, st.srv.rooms.Live r → r < st.srv.rooms.heap.length
  pointer : ∀ s r, st.srv.roomOf s = some r → r < st.srv.rooms.heap.length
  held : ∀ r, st.Holds r → r < st.srv.rooms.heap.length
  ticked : ∀ r, st.Ticks r → r < st.srv.rooms.heap.length

/-- The jobs that the ticks of the room have taken from its queue. -/
def Threads.taken (st : Threads) (r : RoomRef) : List Job := st.executed r ++ st.flushed r

section

variable {cfg : Config} {env : Env} {st st' : Threads} {action : ThreadAction} {r : RoomRef}

/-! ## The jobs stay in order -/

theorem addressed_empty : Addressed .empty where
  live r hr := absurd hr List.not_mem_nil
  pointer s r hr :=
    absurd hr (by simp [Server.roomOf, Threads.empty, Server.empty, ServerSession.new])
  held r hr := by
    obtain ⟨calls, hcalls, -⟩ := hr
    exact absurd hcalls List.not_mem_nil
  ticked r hr := by
    rcases hr with hr | ⟨flush, hflush, -⟩
    · exact absurd hr List.not_mem_nil
    · exact absurd hflush (by simp [Threads.empty])

/-- A step that sets no pointer names no room of its own. -/
theorem Addressed.of_grows (h : Addressed st) (hgrows : Grows st.srv st'.srv)
    (hheld : ∀ r, st'.Holds r → st.Holds r ∨ st'.srv.rooms.Live r ∨ ∃ s, st.srv.roomOf s = some r)
    (hticked : ∀ r, st'.Ticks r → st.Ticks r) : Addressed st' := by
  have hlive : ∀ r, st'.srv.rooms.Live r → r < st'.srv.rooms.heap.length := by
    intro r hr
    rcases hgrows.created r hr with hr | hlt
    · exact lt_of_lt_of_le (h.live r hr) hgrows.length
    · exact hlt
  refine ⟨hlive, fun s r hr => ?_, fun r hr => ?_, fun r hr => ?_⟩
  · exact lt_of_lt_of_le (h.pointer s r (hgrows.pointer s r hr)) hgrows.length
  · rcases hheld r hr with hr | hr | ⟨s, hs⟩
    · exact lt_of_lt_of_le (h.held r hr) hgrows.length
    · exact hlive r hr
    · exact lt_of_lt_of_le (h.pointer s r hs) hgrows.length
  · exact lt_of_lt_of_le (h.ticked r (hticked r hr)) hgrows.length

/-- A job only ever writes its own room into a session. -/
theorem addressed_runJob {job : Job} {jobs : List Job} (h : Addressed st)
    (hflushing : st.flushing = some (r, job :: jobs)) : Addressed (st.runJob env r job jobs) := by
  have hlength : (st.runJob env r job jobs).srv.rooms.heap.length = st.srv.rooms.heap.length :=
    RoomManager.length_modify _
  refine ⟨fun r' hr' => ?_, fun s r' hr' => ?_, fun r' hr' => ?_, fun r' hr' => ?_⟩
  · rw [hlength]
    exact h.live r' hr'
  · rw [hlength]
    have hroom : (if job.TakesIn (st.srv.room r) s then some r
        else if job.Leaves s ∧ s ∈ (st.srv.room r).members then none
        else (st.srv.world.session s).room) = some r' := Job.room_run.symm.trans hr'
    split at hroom
    · obtain rfl := Option.some.inj hroom
      exact h.ticked r (Or.inr ⟨_, hflushing, rfl⟩)
    · split at hroom
      · exact absurd hroom (by simp)
      · exact h.pointer s r' hroom
  · rw [hlength]
    exact h.held r' hr'
  · rw [hlength]
    exact h.ticked r' (ticks_runJob hflushing hr')

/-- **One step** creates what it names, and keeps the jobs in order. -/
theorem conserved_next (h : Addressed st) (hall : Conserved st)
    (hnext : threadNext cfg st (action, env) = some st') : Addressed st' ∧ Conserved st' := by
  obtain ⟨st₁, hacts, rfl⟩ := threadNext_acts hnext
  suffices hst₁ : Addressed st₁ ∧ Conserved st₁ from
    ⟨⟨hst₁.1.live, hst₁.1.pointer, hst₁.1.held, hst₁.1.ticked⟩, hst₁.2⟩
  by_cases hhandles : action.Handles
  · have hserves := serves_next hacts hhandles
    exact ⟨h.of_grows hserves.grows hserves.held fun r hr => hserves.ticks.mp hr,
      hserves.conserved hall h.held⟩
  cases hacts with
  | accept token => exact absurd trivial hhandles
  | packet packet accepted => exact absurd trivial hhandles
  | authCallback valid accountId pending => exact absurd trivial hhandles
  | disconnect accepted => exact absurd trivial hhandles
  | call now => exact absurd trivial hhandles
  | tickAll done idle =>
    exact ⟨⟨h.live, h.pointer, h.held, fun r hr => h.live r (ticks_tickAll idle hr)⟩, hall⟩
  | @takeJobs r rest idle snapshot =>
    have hlen : r < st.srv.rooms.heap.length := by
      refine h.ticked r (Or.inl ?_)
      rw [snapshot]
      exact List.mem_cons_self
    exact ⟨h.of_grows grows_takeJobs (fun r' hr' => Or.inl hr') fun r' => ticks_takeJobs snapshot,
      conserved_takeJobs hall hlen idle⟩
  | runJob flushing => exact ⟨addressed_runJob h flushing, conserved_runJob hall flushing⟩
  | @endTick r flushing =>
    have hlen : r < st.srv.rooms.heap.length := h.ticked r (Or.inr ⟨_, flushing, rfl⟩)
    exact ⟨h.of_grows (grows_endTick hlen) (fun r' hr' => Or.inl hr') fun r' => ticks_endTick,
      conserved_endTick hall hlen flushing⟩
  | removeIdleRooms =>
    refine ⟨⟨fun r hr => ?_, h.pointer, h.held, h.ticked⟩, hall⟩
    exact h.live r (RoomManager.live_removeIdleRooms.mp hr).1

/-- **No job overtakes another**, in any run: the jobs pushed to a room are those it has run, those
its tick has taken and those in its queue. -/
theorem conserved_of_run {steps : List (ThreadAction × Env)}
    (hrun : run (threadNext cfg) .empty steps = some st) : Addressed st ∧ Conserved st := by
  have hstart : Conserved .empty := kept_empty.conserved
  exact run_preserves (I := fun st => Addressed st ∧ Conserved st)
    (fun st step st' hi hnext => conserved_next hi.1 hi.2 hnext) ⟨addressed_empty, hstart⟩ hrun

/-! ## The handlers under way -/

/-- What a step does to the handlers under way and to what was pushed: a handler starts, or the
`i`-th makes its next call, or neither. -/
inductive Goes (cfg : Config) (env : Env) (st st' : Threads) (action : ThreadAction) : Prop
  | start (calls : List Call) (midway : st'.midway = st.midway ++ [calls])
      (pushed : st'.pushed = st.pushed) (started : ∀ i, action ≠ .call i)
      (packet : ∀ s packet, action = .packet s packet →
        calls = (st.srv.startPacket env s cfg packet).2)
  | call (i : Nat) (call : Call) (rest : List Call) (action : action = .call i)
      (now : st.midway[i]? = some (call :: rest))
      (midway : st'.midway = st.midway.set i ((call.perform cfg env st.srv).2 ++ rest))
      (pushed : ∀ r, st'.pushed r = st.pushed r ++ call.pushes r)
  | stand (midway : st'.midway = st.midway) (pushed : st'.pushed = st.pushed)
      (started : ∀ i, action ≠ .call i) (packet : ∀ s packet, action ≠ .packet s packet)

theorem goes_next (hnext : threadNext cfg st (action, env) = some st') :
    Goes cfg env st st' action := by
  obtain ⟨st₁, hacts, rfl⟩ := threadNext_acts hnext
  cases hacts with
  | accept token => exact .stand rfl rfl (by simp) (by simp)
  | packet packet accepted =>
    refine .start _ rfl rfl (by simp) fun s' packet' hsame => ?_
    obtain ⟨rfl, rfl⟩ := ThreadAction.packet.inj hsame
    rfl
  | authCallback valid accountId pending => exact .start _ rfl rfl (by simp) (by simp)
  | disconnect accepted => exact .start _ rfl rfl (by simp) (by simp)
  | call now => exact .call _ _ _ rfl now rfl fun r => rfl
  | tickAll done idle => exact .stand rfl rfl (by simp) (by simp)
  | takeJobs idle snapshot => exact .stand rfl rfl (by simp) (by simp)
  | runJob flushing => exact .stand rfl rfl (by simp) (by simp)
  | endTick flushing => exact .stand rfl rfl (by simp) (by simp)
  | removeIdleRooms => exact .stand rfl rfl (by simp) (by simp)

/-- Only a call pushes, or comes to the end of a handler. -/
theorem Goes.quiet (h : Goes cfg env st st' action) (hcall : ∀ i, action ≠ .call i) :
    st.midway <+: st'.midway ∧ st'.pushed = st.pushed := by
  cases h with
  | start calls midway pushed started packet =>
    refine ⟨?_, pushed⟩
    rw [midway]
    exact List.prefix_append _ _
  | call i call rest action now midway pushed => exact absurd action (hcall i)
  | stand midway pushed started packet => exact ⟨by rw [midway], pushed⟩

theorem pushed_grows (hnext : threadNext cfg st (action, env) = some st') (r : RoomRef) :
    st.pushed r <+: st'.pushed r := by
  cases goes_next hnext with
  | start calls midway pushed started packet => rw [pushed]
  | call i call rest action now midway pushed =>
    rw [pushed r]
    exact List.prefix_append _ _
  | stand midway pushed started packet => rw [pushed]

/-! ## The ticks come to every job -/

theorem pushed_eq_taken (hall : Conserved st) (r : RoomRef) :
    st.pushed r = st.taken r ++ (st.srv.room r).jobQueue := by
  unfold Threads.taken
  rw [hall r, List.append_assoc]

/-- The swap of `Flush` takes all that was pushed to its room. -/
theorem taken_takeJobs_self {rest : List RoomRef} (hall : Conserved st)
    (hidle : st.flushing = none) : (st.takeJobs r rest).taken r = st.pushed r := by
  have hnone : st.flushed r = [] := by
    unfold Threads.flushed
    rw [hidle]
  rw [hall r, hnone, List.nil_append]
  show st.executed r ++ (if r = r then (st.srv.room r).jobQueue else []) = _
  rw [if_pos rfl]

theorem taken_takeJobs_ne {rest : List RoomRef} {r' : RoomRef} (hidle : st.flushing = none)
    (hr : r' ≠ r) : (st.takeJobs r rest).taken r' = st.taken r' := by
  unfold Threads.taken Threads.flushed
  rw [hidle]
  exact congrArg _ (if_neg (Ne.symm hr))

theorem taken_runJob {job : Job} {jobs : List Job}
    (hflushing : st.flushing = some (r, job :: jobs)) (r' : RoomRef) :
    (st.runJob env r job jobs).taken r' = st.taken r' := by
  unfold Threads.taken Threads.flushed
  show Function.update st.executed r (st.executed r ++ [job]) r' ++
    (if r = r' then jobs else []) = _
  rw [hflushing]
  by_cases hr : r = r'
  · subst hr
    rw [Function.update_self, if_pos rfl, List.append_assoc, List.singleton_append]
    exact congrArg _ (if_pos rfl).symm
  · rw [Function.update_of_ne (Ne.symm hr), if_neg hr]
    exact congrArg _ (if_neg hr).symm

theorem taken_endTick (hflushing : st.flushing = some (r, [])) (r' : RoomRef) :
    (st.endTick cfg env r).taken r' = st.taken r' := by
  unfold Threads.taken Threads.flushed
  rw [hflushing]
  show st.executed r' ++ [] = st.executed r' ++ (if r = r' then [] else [])
  rw [ite_self]

/-- A step takes no job back, and a room on the list of `TickAll` stays on it until its tick takes
all that was pushed. -/
theorem taken_next (hall : Conserved st) (hnext : threadNext cfg st (action, env) = some st')
    (r : RoomRef) : st.taken r <+: st'.taken r ∧
      (r ∈ st.snapshot → r ∈ st'.snapshot ∨ st'.taken r = st.pushed r) := by
  obtain ⟨st₁, hacts, rfl⟩ := threadNext_acts hnext
  suffices hst₁ : st.taken r <+: st₁.taken r ∧
      (r ∈ st.snapshot → r ∈ st₁.snapshot ∨ st₁.taken r = st.pushed r) from hst₁
  by_cases hhandles : action.Handles
  · have hserves := serves_next hacts hhandles
    have hsame : st₁.taken r = st.taken r := by
      unfold Threads.taken
      rw [hserves.executed, hserves.flushed]
    rw [hsame, hserves.snapshot]
    exact ⟨List.prefix_rfl, Or.inl⟩
  cases hacts with
  | accept token => exact absurd trivial hhandles
  | packet packet accepted => exact absurd trivial hhandles
  | authCallback valid accountId pending => exact absurd trivial hhandles
  | disconnect accepted => exact absurd trivial hhandles
  | call now => exact absurd trivial hhandles
  | tickAll done idle =>
    refine ⟨List.prefix_rfl, fun hr => ?_⟩
    rw [done] at hr
    exact absurd hr List.not_mem_nil
  | @takeJobs r₀ rest idle snapshot =>
    by_cases hr : r = r₀
    · subst hr
      have htaken : (st.takeJobs r rest).taken r = st.pushed r := taken_takeJobs_self hall idle
      refine ⟨?_, fun _ => Or.inr htaken⟩
      rw [htaken, pushed_eq_taken hall]
      exact List.prefix_append _ _
    · refine ⟨by rw [taken_takeJobs_ne idle hr], fun hlisted => Or.inl ?_⟩
      rw [snapshot] at hlisted
      exact (List.mem_cons.mp hlisted).resolve_left hr
  | runJob flushing => exact ⟨by rw [taken_runJob flushing], Or.inl⟩
  | endTick flushing => exact ⟨by rw [taken_endTick flushing], Or.inl⟩
  | removeIdleRooms => exact ⟨List.prefix_rfl, Or.inl⟩

/-- No room is on the list of `TickAll`, and none is being ticked. -/
def Threads.Idle (st : Threads) : Prop := st.snapshot = [] ∧ st.flushing = none

instance (st : Threads) : Decidable st.Idle := by
  unfold Threads.Idle; infer_instance

/-- **`TickAll` runs every job** that was pushed, to a room in the map, before it took its list. The
induction carries that the room is still on the list or the jobs have been taken. -/
theorem ticked_all {before after : List (ThreadAction × Env)} {st₁ st₂ : Threads}
    (hbefore : run (threadNext cfg) .empty before = some st)
    (htickAll : threadNext cfg st (.tickAll, env) = some st₁)
    (hafter : run (threadNext cfg) st₁ after = some st₂) (hidle : st₂.Idle)
    (hlive : st.srv.rooms.Live r) : st.pushed r <+: st₂.executed r := by
  obtain ⟨haddressed, hall⟩ := conserved_of_run hbefore
  have hstart : r ∈ st₁.snapshot ∧ st₁.pushed r = st.pushed r := by
    obtain ⟨st', hacts, rfl⟩ := threadNext_acts htickAll
    cases hacts with
    | tickAll done idle => exact ⟨RoomManager.mem_walk hlive, rfl⟩
  let I : Threads → Prop := fun st' => (Addressed st' ∧ Conserved st') ∧
    st.pushed r <+: st'.pushed r ∧ (r ∈ st'.snapshot ∨ st.pushed r <+: st'.taken r)
  have hend : I st₂ := by
    refine run_preserves (I := I) (fun st' step st'' hi hnext => ?_)
      ⟨conserved_next haddressed hall htickAll, ?_, Or.inl hstart.1⟩ hafter
    · obtain ⟨⟨haddressed', hall'⟩, hpushed, hprogress⟩ := hi
      obtain ⟨htaken, hlisted⟩ := taken_next hall' hnext r
      refine ⟨conserved_next haddressed' hall' hnext,
        hpushed.trans (pushed_grows hnext r), ?_⟩
      rcases hprogress with hstill | hdone
      · rcases hlisted hstill with hstill' | hall''
        · exact Or.inl hstill'
        · right
          rw [hall'']
          exact hpushed
      · exact Or.inr (hdone.trans htaken)
    · rw [hstart.2]
  obtain ⟨-, -, hprogress⟩ := hend
  rcases hprogress with hlisted | htaken
  · rw [hidle.1] at hlisted
    exact absurd hlisted List.not_mem_nil
  · unfold Threads.taken Threads.flushed at htaken
    rw [hidle.2] at htaken
    rwa [List.append_nil] at htaken

end

end RealtimeServer
