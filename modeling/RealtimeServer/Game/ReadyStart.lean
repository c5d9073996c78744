import RealtimeServer.Game.Membership

/-!
# Starting a game

`TryStartGame` compares the number of ready marks with the number of members. That says something
about the members only as long as every mark is the account of one of them (`MarksBorne`).

* `start_all_ready`: when a room goes from `WAITING` to `IN_GAME`, it has two members at least and
  every member's account is marked. It holds in the runs that meet `MarksKept`: a mark is set for an
  account a member bears, and no login takes the last bearer of a mark away. Without it, the mark of
  a player who has left counts for one who is not ready (`started_unready`).
-/

namespace RealtimeServer

open Unordered Guarded

/-- The account a ready job toggles. -/
def Job.readyMark : Job → Option Bytes
  | handleReady accountId => some accountId
  | _ => none

/-- Some member of `r` bears the account. -/
def Borne (srv : Server) (r : RoomRef) (accountId : Bytes) : Prop :=
  ∃ s ∈ (srv.room r).members.elems, srv.account s = accountId

instance (srv : Server) (r : RoomRef) (accountId : Bytes) : Decidable (Borne srv r accountId) := by
  unfold Borne; infer_instance

/-- A ready mark the step sets in a waiting room is for an account a member bears. -/
def MarksMember (srv : Server) (a : Action) : Prop :=
  ∀ r < srv.rooms.heap.length, ∀ accountId ∈ (srv.running a r).bind Job.readyMark,
    (srv.room r).state = .waiting → accountId ∉ (srv.room r).readyPlayers → Borne srv r accountId

instance (srv : Server) (a : Action) : Decidable (MarksMember srv a) := by
  unfold MarksMember; infer_instance

/-- A login that gives a member with a ready mark another account leaves another member with the
marked one. -/
def LoginKeepsMarks (srv : Server) (a : Action) : Prop :=
  ∀ login ∈ srv.loggingIn a, login.2 ≠ srv.account login.1 → ∀ r < srv.rooms.heap.length,
    login.1 ∈ (srv.room r).members → srv.account login.1 ∈ (srv.room r).readyPlayers →
    ∃ s ∈ (srv.room r).members.elems, s ≠ login.1 ∧ srv.account s = srv.account login.1

instance (srv : Server) (a : Action) : Decidable (LoginKeepsMarks srv a) := by
  unfold LoginKeepsMarks; infer_instance

/-- The step leaves no ready mark without a bearer. -/
def MarksKept (srv : Server) (step : Action × Env) : Prop :=
  MarksMember srv step.1 ∧ LoginKeepsMarks srv step.1

instance (srv : Server) (step : Action × Env) : Decidable (MarksKept srv step) := by
  unfold MarksKept; infer_instance

section

variable {cfg : Config} {srv srv' : Server} {a : Action} {env : Env} {r : RoomRef} {s : SessionRef}

/-- **The invariant**: every ready mark is the account of a member. -/
def MarksBorne (srv : Server) : Prop :=
  ∀ r, ∀ accountId ∈ (srv.room r).readyPlayers, Borne srv r accountId

theorem marksBorne_empty : MarksBorne .empty := by
  intro r accountId hmark
  rw [room_empty] at hmark
  exact absurd hmark (Finset.notMem_empty accountId)

/-- A member who is still one bears the account it had, if the step does not log it in. -/
theorem borne_stay (hb : Born srv) (h : next cfg srv (a, env) = some srv')
    (hmem : s ∈ (srv.room r).members) (hstay : s ∈ (srv'.room r).members)
    (hnot : ∀ account, srv.loggingIn a ≠ some (s, account)) : Borne srv' r (srv.account s) :=
  ⟨s, hstay, (sessions_next h (hb.members r s hmem)).account.trans (accountAfter_other hnot)⟩

/-- Among members who all stay an account keeps a bearer, if a login that takes one away leaves
another. -/
theorem borne_next {accountId : Bytes} (hb : Born srv) (h : next cfg srv (a, env) = some srv')
    (hstay : ∀ s ∈ (srv.room r).members, s ∈ (srv'.room r).members)
    (hlogin : ∀ login ∈ srv.loggingIn a, login.2 ≠ srv.account login.1 →
      login.1 ∈ (srv.room r).members → srv.account login.1 = accountId →
      ∃ s ∈ (srv.room r).members.elems, s ≠ login.1 ∧ srv.account s = accountId)
    (hborne : Borne srv r accountId) : Borne srv' r accountId := by
  obtain ⟨s, hmem, rfl⟩ := hborne
  by_cases hlogs : ∃ account, srv.loggingIn a = some (s, account)
  · obtain ⟨account, hlogs⟩ := hlogs
    by_cases hchange : account = srv.account s
    · refine ⟨s, hstay s hmem, ?_⟩
      exact (sessions_next h (hb.members r s hmem)).account.trans
        ((accountAfter_login hlogs).trans hchange)
    · obtain ⟨t, ht, hts, haccount⟩ := hlogin (s, account) hlogs hchange hmem rfl
      rw [← haccount]
      refine borne_stay hb h ht (hstay t ht) fun account' hlogs' => ?_
      rw [hlogs] at hlogs'
      exact hts (Prod.mk.inj (Option.some.inj hlogs')).1.symm
  · exact borne_stay hb h hmem (hstay s hmem) fun account h => hlogs ⟨account, h⟩

theorem marksBorne_next (hb : Born srv) (hi : MarksBorne srv) (hc : MarksKept srv (a, env))
    (h : next cfg srv (a, env) = some srv') : MarksBorne srv' := by
  intro r accountId hmark'
  -- where nobody leaves, an account marked before is still borne
  have hkept : (∀ s ∈ (srv.room r).members, s ∈ (srv'.room r).members) →
      accountId ∈ (srv.room r).readyPlayers → Borne srv' r accountId := by
    intro hstay hmark
    refine borne_next hb h hstay (fun login hlogs hchange hmem haccount => ?_)
      (hi r accountId hmark)
    rw [← haccount] at hmark ⊢
    exact hc.2 login hlogs hchange r (RoomManager.lt_of_member hmem) hmem hmark
  cases rooms_next h r with
  | queued inside kept queue idle =>
    have hmark : accountId ∈ (srv.room r).readyPlayers := by
      rwa [show (srv'.room r).readyPlayers = (srv.room r).readyPlayers from
        (congrArg GameRoom.readyPlayers inside :)] at hmark'
    refine hkept (fun s hs => ?_) hmark
    rwa [show (srv'.room r).members = (srv.room r).members from
      (congrArg GameRoom.members inside :)]
  | swept action room =>
    rw [room] at hmark'
    refine hkept (fun s hs => ?_) hmark'
    rw [room]
    exact hs
  | ran job jobs action queue room =>
    subst action
    rw [room] at hmark'
    -- a job changes no account, so a bearer who is still a member will do
    have hbearer : ∀ s ∈ (srv.room r).members, ¬ job.Leaves s → srv.account s = accountId →
        Borne srv' r accountId := by
      intro s hs hstays haccount
      rw [← haccount]
      refine borne_stay hb h hs ?_ (by simp [Server.loggingIn])
      rw [room, Job.mem_run]
      exact Or.inr ⟨hs, hstays⟩
    rcases Job.ready_run hmark' with ⟨hmark, hstay⟩ | ⟨rfl, hwaiting, hunmarked⟩
    · obtain ⟨s, hs, haccount⟩ := hi r accountId hmark
      exact hbearer s hs (fun hleaves => hstay s hs hleaves haccount) haccount
    · have hrunning := running_job queue
      have hlen : r < srv.rooms.heap.length := RoomManager.lt_of_queued (mem_of_running hrunning)
      have hmarks : accountId ∈ (srv.running (.job r) r).bind Job.readyMark := by
        rw [hrunning]
        rfl
      obtain ⟨s, hs, haccount⟩ := hc.1 r hlen accountId hmarks hwaiting hunmarked
      exact hbearer s hs (by rintro (hleaves | hleaves) <;> exact absurd hleaves (by simp)) haccount

/-- A step that starts a game runs a `HandleReady` after which the start condition holds. -/
theorem starts_next (h : next cfg srv (a, env) = some srv')
    (hwaiting : (srv.room r).state = .waiting) (hgame : (srv'.room r).state = .inGame) :
    ∃ accountId, srv.running a r = some (.handleReady accountId) ∧
      ((srv.room r).toggleReady accountId).Starts := by
  cases rooms_next h r with
  | queued inside kept queue idle =>
    rw [show (srv'.room r).state = (srv.room r).state from
      (congrArg GameRoom.state inside :), hwaiting] at hgame
    exact absurd hgame (by decide)
  | swept action room =>
    rw [room, GameRoom.swept] at hgame
    simp only [hwaiting, reduceCtorEq, false_and, if_false] at hgame
  | ran job jobs action queue room =>
    subst action
    rw [room] at hgame
    obtain ⟨accountId, rfl, hstarts⟩ := Job.starts_of_run
      (show ({ srv.room r with jobQueue := jobs } : GameRoom).state = .waiting from hwaiting) hgame
    refine ⟨accountId, running_job queue, ?_⟩
    unfold GameRoom.Starts GameRoom.toggleReady at hstarts ⊢
    split at hstarts
    · rename_i hmarked
      rw [if_pos hmarked]
      exact hstarts
    · rename_i hunmarked
      rw [if_neg hunmarked]
      exact hstarts

/-- **A game starts with everyone ready**: in every run whose steps meet `MarksKept`, when a step
takes a room from `WAITING` to `IN_GAME`, it runs a `HandleReady`, and just before `TryStartGame`
clears the marks the room has two members at least and every member's account is marked. -/
theorem start_all_ready (cfg : Config) {steps : List (Action × Env)}
    (hrun : run (next cfg) .empty steps = some srv)
    (hc : Along (next cfg) MarksKept .empty (steps ++ [(a, env)]))
    (h : next cfg srv (a, env) = some srv') (hwaiting : (srv.room r).state = .waiting)
    (hgame : (srv'.room r).state = .inGame) :
    ∃ accountId, srv.running a r = some (.handleReady accountId) ∧
      2 ≤ (srv.room r).members.size ∧ ∀ s ∈ (srv.room r).members,
        (srv.world.session s).accountId ∈ ((srv.room r).toggleReady accountId).readyPlayers := by
  have hend : Born srv ∧ MarksBorne srv :=
    run_born marksBorne_empty (fun _ _ _ _ hb hi hc h => marksBorne_next hb hi hc h)
      (along_append.mp hc).1 hrun
  obtain ⟨accountId, hrunning, htwo, hall⟩ := starts_next h hwaiting hgame
  rw [GameRoom.members_toggleReady] at htwo hall
  refine ⟨accountId, hrunning, htwo, fun s hs => ?_⟩
  -- the marks after the toggle are all borne, and there are as many of them as members
  refine IterSet.key_mem_of_covered (fun s => (srv.world.session s).accountId) ?_ hall hs
  intro account hmark
  rcases GameRoom.mem_toggleReady.mp hmark with ⟨-, hmark⟩ | ⟨rfl, hunmarked⟩
  · exact hend.2 r account hmark
  · have hlast : MarksKept srv (a, env) := along_last hc hrun
    refine hlast.1 r (RoomManager.lt_of_member hs) account ?_ hwaiting hunmarked
    rw [hrunning]
    rfl

/-- Sessions `0` to `players - 1` log in, each under its own account, and enter room `A`. -/
def lobby (players : Nat) : List Action :=
  (List.range players).flatMap fun s =>
    [.accept true, .packet s (.login (some [116])), .authCallback 0 true [97 + UInt8.ofNat s],
      .packet s (.roomEnter (some [65])), .job 0]

/-- Both players of room `A` send `C_READY`, and the first job has run. -/
def bothReady : List (Action × Env) :=
  quietly (lobby 2 ++ [.packet 0 .ready, .packet 1 .ready, .job 0])

theorem start_bothReady :
    ∃ srv, run (next ⟨16, 30000, 60000⟩) .empty bothReady = some srv ∧
      ∃ accountId, srv.running (.job 0) 0 = some (.handleReady accountId) ∧
        2 ≤ (srv.room 0).members.size ∧ ∀ s ∈ (srv.room 0).members,
          (srv.world.session s).accountId ∈
            ((srv.room 0).toggleReady accountId).readyPlayers := by
  obtain ⟨srv, hrun, hwaiting, srv', hnext, hgame⟩ :
      ∃ srv, run (next ⟨16, 30000, 60000⟩) .empty bothReady = some srv ∧
        (srv.room 0).state = .waiting ∧
        ∃ srv', next ⟨16, 30000, 60000⟩ srv (.job 0, .quiet 1000) = some srv' ∧
          (srv'.room 0).state = .inGame := by decide
  exact ⟨srv, hrun, start_all_ready _ hrun (by decide) hnext hwaiting hgame⟩

/-- The third player of room `A` sends `C_ROOM_LEAVE` and `C_READY` before the tick, then the first
player sends `C_READY`. -/
def readyBehindLeave : List (Action × Env) :=
  quietly (lobby 3 ++
    [.packet 2 .roomLeave, .packet 2 .ready, .job 0, .job 0, .packet 0 .ready])

/-- The game starts with two members, one of whom has not readied. -/
theorem started_unready :
    ∃ srv, run (next ⟨16, 30000, 60000⟩) .empty readyBehindLeave = some srv ∧
      (srv.room 0).state = .waiting ∧ srv.running (.job 0) 0 = some (.handleReady [97]) ∧
      1 ∈ (srv.room 0).members ∧ (srv.world.session 1).accountId = [98] ∧
      [98] ∉ ((srv.room 0).toggleReady [97]).readyPlayers ∧
      ∃ srv', next ⟨16, 30000, 60000⟩ srv (.job 0, .quiet 1000) = some srv' ∧
        (srv'.room 0).state = .inGame := by
  decide

end

end RealtimeServer
