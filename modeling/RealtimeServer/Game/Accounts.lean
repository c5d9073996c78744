import RealtimeServer.Game.Announcements
import RealtimeServer.Game.ReadyStart

/-!
# The accounts of the members

A room knows its members as sessions and everything else by account. The account is the session's
own, and a login may change it at any time.

* **`accounts_apart_iff`**: the runs in which no room ever has two members with one account.
  Nothing stops two connections from logging in to one account (`same_account_twice`), so these are
  the runs in which every arrival finds its account free, and so does every login of a member.
* **`leave_undoes_enter`**: what `HandleLeave` takes back is what `HandleEnter` or `HandleRejoin`
  announced, in the runs in which no login gives a member another account. Without it, the ready
  mark stays and a player leaves who never came (`left_as_another`).
-/

namespace RealtimeServer

open Unordered Guarded

section

variable {cfg : Config} {srv srv' : Server} {a : Action} {env : Env} {r : RoomRef}
  {s t : SessionRef}

/-! ## Which step changes an account -/

theorem account_next (h : next cfg srv (a, env) = some srv') (hs : s < srv.nextSession) :
    srv'.account s = srv.accountAfter a s := (sessions_next h hs).account

theorem running_of_login {login : SessionRef × Bytes} (h : srv.loggingIn a = some login) :
    srv.running a r = none := by
  obtain ⟨i, token, rfl, -⟩ := callback_of_loggingIn h
  rfl

/-- A step that runs a job logs nobody in. -/
theorem loggingIn_of_running {job : Job} (h : job ∈ srv.running a r) : srv.loggingIn a = none := by
  rw [action_of_running h]
  rfl

theorem accountAfter_running {job : Job} (h : job ∈ srv.running a r) :
    srv.accountAfter a s = srv.account s :=
  accountAfter_other (by simp [loggingIn_of_running h])

/-- The step brings `s` into `r`, or gives `s`, who is there, an account. -/
def Joins (srv : Server) (a : Action) (r : RoomRef) (s : SessionRef) : Prop :=
  srv.TakesIn a r s ∨ (s ∈ (srv.room r).members ∧ ∃ login ∈ srv.loggingIn a, login.1 = s)

instance (srv : Server) (a : Action) (r : RoomRef) (s : SessionRef) :
    Decidable (Joins srv a r s) := by
  unfold Joins; infer_instance

/-- The others of the room stay as they are, -/
theorem holds_of_joins (hj : Joins srv a r s) (hne : t ≠ s) :
    srv.Holds a r t ↔ t ∈ (srv.room r).members := by
  have hnotIn : ¬ srv.TakesIn a r t := by
    rintro ⟨job, hjob, htakes⟩
    rcases hj with ⟨job', hjob', htakes'⟩ | ⟨-, login, hlogin, -⟩
    · obtain rfl := Option.some.inj (hjob.symm.trans hjob')
      exact hne (Job.takesIn_unique htakes htakes')
    · rw [running_of_login hlogin] at hjob
      exact absurd hjob (by simp)
  have hnotOut : ¬ srv.Leaving a r t := by
    rintro ⟨job, hjob, hleaves⟩
    rcases hj with ⟨job', hjob', htakes'⟩ | ⟨-, login, hlogin, -⟩
    · obtain rfl := Option.some.inj (hjob.symm.trans hjob')
      exact Job.not_leaves_of_takesIn htakes' hleaves
    · rw [running_of_login hlogin] at hjob
      exact absurd hjob (by simp)
  unfold Server.Holds
  simp only [hnotIn, hnotOut, not_false_eq_true, and_true, false_or]

/-- with their accounts. -/
theorem accountAfter_of_joins (hj : Joins srv a r s) (hne : t ≠ s) :
    srv.accountAfter a t = srv.account t := by
  rcases hj with ⟨job, hjob, -⟩ | ⟨-, login, hlogin, hsame⟩
  · exact accountAfter_running hjob
  · refine accountAfter_other fun accountId hother => hne ?_
    rw [← hsame, Option.some.inj (hlogin.symm.trans hother)]

/-- So does a session the step holds in the room without its joining. -/
theorem stays_of_not_joins (hholds : srv.Holds a r s) (hj : ¬ Joins srv a r s) :
    s ∈ (srv.room r).members ∧ srv.accountAfter a s = srv.account s := by
  have hmem : s ∈ (srv.room r).members := by
    rcases hholds with htakes | ⟨hmem, -⟩
    · exact absurd (Or.inl htakes) hj
    · exact hmem
  refine ⟨hmem, accountAfter_other fun accountId hlogin => hj ?_⟩
  exact Or.inr ⟨hmem, (s, accountId), hlogin, rfl⟩

/-! ## One account, one member -/

/-- No two members of a room have one account. -/
def AccountsApart (srv : Server) : Prop :=
  ∀ r, ∀ s ∈ (srv.room r).members, ∀ t ∈ (srv.room r).members, s ≠ t →
    srv.account s ≠ srv.account t

/-- No other member of `r` has the account that `s` has behind the step. -/
def FindsFree (srv : Server) (a : Action) (r : RoomRef) (s : SessionRef) : Prop :=
  ∀ t ∈ (srv.room r).members.elems, t ≠ s → srv.account t ≠ srv.accountAfter a s

instance (srv : Server) (a : Action) (r : RoomRef) (s : SessionRef) :
    Decidable (FindsFree srv a r s) := by
  unfold FindsFree; infer_instance

/-- A session that joins a room finds its account free. -/
def JoinsApart (srv : Server) (step : Action × Env) : Prop :=
  ∀ r < srv.rooms.heap.length, ∀ s < srv.nextSession,
    Joins srv step.1 r s → FindsFree srv step.1 r s

instance (srv : Server) (step : Action × Env) : Decidable (JoinsApart srv step) := by
  unfold JoinsApart; infer_instance

theorem accountsApart_empty : AccountsApart .empty :=
  fun _ _ hmem => absurd hmem not_mem_members_empty

theorem holds_joins (hj : Joins srv a r s) : srv.Holds a r s := by
  rcases hj with htakes | ⟨hmem, login, hlogin, -⟩
  · exact Or.inl htakes
  · refine Or.inr ⟨hmem, ?_⟩
    rintro ⟨job, hjob, -⟩
    rw [running_of_login hlogin] at hjob
    exact absurd hjob (by simp)

/-- **One step**: it keeps the accounts apart exactly when whoever joins a room does. -/
theorem accountsApart_next (hb : Born srv) (hi : AccountsApart srv)
    (h : next cfg srv (a, env) = some srv') : AccountsApart srv' ↔ JoinsApart srv (a, env) := by
  have haccount : ∀ {r s}, srv.Holds a r s → srv'.account s = srv.accountAfter a s :=
    fun hholds => account_next h (lt_of_holds hb hholds).1
  constructor
  · intro hi' r _ s _ hj t ht hne
    have hholds : srv.Holds a r t := (holds_of_joins hj hne).mpr ht
    have happart := hi' r t ((members_next h).mpr hholds) s
      ((members_next h).mpr (holds_joins hj)) hne
    rwa [haccount hholds, haccount (holds_joins hj), accountAfter_of_joins hj hne] at happart
  · intro hc r s hs t ht hne
    have hholds := (members_next h).mp hs
    have hholds' := (members_next h).mp ht
    obtain ⟨hlt, hr⟩ := lt_of_holds hb hholds
    obtain ⟨hlt', -⟩ := lt_of_holds hb hholds'
    rw [haccount hholds, haccount hholds']
    by_cases hj : Joins srv a r s
    · rw [accountAfter_of_joins hj hne.symm]
      exact (hc r hr s hlt hj t ((holds_of_joins hj hne.symm).mp hholds') hne.symm).symm
    · by_cases hj' : Joins srv a r t
      · rw [accountAfter_of_joins hj' hne]
        exact hc r hr t hlt' hj' s ((holds_of_joins hj' hne).mp hholds) hne
      · obtain ⟨hmem, hsame⟩ := stays_of_not_joins hholds hj
        obtain ⟨hmem', hsame'⟩ := stays_of_not_joins hholds' hj'
        rw [hsame, hsame']
        exact hi r s hmem t hmem' hne

/-- **The accounts stay apart** in every state of a run exactly when its steps all meet
`JoinsApart`. -/
theorem accounts_apart_iff (cfg : Config) {steps : List (Action × Env)}
    (hrun : run (next cfg) .empty steps = some srv) :
    (∀ before srv, before <+: steps → run (next cfg) .empty before = some srv →
      AccountsApart srv) ↔ Along (next cfg) JoinsApart .empty steps := by
  refine kept_iff_along accountsApart_empty ?_ hrun
  rintro before srv ⟨a, env⟩ srv' hbefore hi hnext
  exact accountsApart_next (born_of_run hbefore) hi hnext

/-- Two players in a room, with accounts of their own. -/
theorem accounts_apart_lobby :
    ∃ srv, run (next ⟨16, 30000, 60000⟩) .empty (quietly (lobby 2)) = some srv ∧
      0 ∈ (srv.room 0).members ∧ 1 ∈ (srv.room 0).members ∧ AccountsApart srv := by
  obtain ⟨srv, hrun, hmem, hmem'⟩ :
      ∃ srv, run (next ⟨16, 30000, 60000⟩) .empty (quietly (lobby 2)) = some srv ∧
        0 ∈ (srv.room 0).members ∧ 1 ∈ (srv.room 0).members := by decide
  exact ⟨srv, hrun, hmem, hmem',
    (accounts_apart_iff _ hrun).mpr (by decide) _ srv List.prefix_rfl hrun⟩

/-- Two connections log in to one account and enter one room. -/
def sameAccount : List (Action × Env) :=
  quietly
    [.accept true, .packet 0 (.login (some [116])), .authCallback 0 true [97],
      .packet 0 (.roomEnter (some [65])), .job 0,
      .accept true, .packet 1 (.login (some [116])), .authCallback 0 true [97],
      .packet 1 (.roomEnter (some [65])), .job 0]

/-- They are two members with that account. -/
theorem same_account_twice :
    ∃ srv, run (next ⟨16, 30000, 60000⟩) .empty sameAccount = some srv ∧
      0 ∈ (srv.room 0).members ∧ 1 ∈ (srv.room 0).members ∧
      srv.account 0 = [97] ∧ srv.account 1 = [97] := by
  decide

/-! ## Arrival and departure -/

/-- A login gives a member of a room no other account. -/
def AccountKept (srv : Server) (step : Action × Env) : Prop :=
  ∀ login ∈ srv.loggingIn step.1,
    (∃ r < srv.rooms.heap.length, login.1 ∈ (srv.room r).members) →
      login.2 = srv.account login.1

instance (srv : Server) (step : Action × Env) : Decidable (AccountKept srv step) := by
  unfold AccountKept; infer_instance

theorem accountKept_next (hb : Born srv) (hc : AccountKept srv (a, env))
    (hmem : s ∈ (srv.room r).members) (h : next cfg srv (a, env) = some srv') :
    srv'.account s = srv.account s := by
  rw [account_next h (hb.members r s hmem)]
  by_cases hlogin : ∃ accountId, srv.loggingIn a = some (s, accountId)
  · obtain ⟨accountId, hlogin⟩ := hlogin
    rw [accountAfter_login hlogin]
    exact hc (s, accountId) hlogin ⟨r, RoomManager.lt_of_member hmem, hmem⟩
  · exact accountAfter_other fun accountId h => hlogin ⟨accountId, h⟩

/-- The account of a session that stays in a room. -/
theorem account_of_stay {stay : List (Action × Env)} (hb : Born srv)
    (hrun : run (next cfg) srv stay = some srv') (hc : Along (next cfg) AccountKept srv stay)
    (hmember : ∀ steps srv', steps <+: stay → run (next cfg) srv steps = some srv' →
      s ∈ (srv'.room r).members) : srv'.account s = srv.account s := by
  have hend : Born srv' ∧ srv'.account s = srv.account s := by
    refine run_invariant (I := fun srv' => Born srv' ∧ srv'.account s = srv.account s) ?_ ⟨hb, rfl⟩
      (along_and hc (along_of_states hmember)) hrun
    rintro srv₁ ⟨a, env⟩ srv₂ ⟨hb₁, hsame⟩ ⟨hkept, hmem⟩ h
    exact ⟨born_next hb₁ h, (accountKept_next hb₁ hkept hmem h).trans hsame⟩
  exact hend.2

/-- What a step that runs a job sends, and what becomes of the room. -/
theorem ran_next {job : Job} (h : next cfg srv (a, env) = some srv')
    (hjob : srv.running a r = some job) :
    Emits (Announces (srv'.room r).members srv.world (some job)) srv.world srv'.world ∧
      ∃ jobs, srv'.room r =
        job.outcome env { srv.room r with jobQueue := jobs } srv.world := by
  have haction := action_of_running hjob
  subst haction
  obtain ⟨srv₁, hacts, rfl⟩ := next_acts h
  cases hacts with
  | @job _ job' jobs queue =>
    rw [running_job queue] at hjob
    obtain rfl := Option.some.inj hjob
    have hlen : r < srv.rooms.heap.length := RoomManager.lt_of_head queue
    have hroom : (srv.runJob env r job' jobs).room r =
        (job'.run env r { srv.room r with jobQueue := jobs } srv.world).1 :=
      room_inRoom_self hlen
    constructor
    · show Emits (Announces ((srv.runJob env r job' jobs).room r).members srv.world (some job'))
        srv.world (job'.run env r { srv.room r with jobQueue := jobs } srv.world).2
      rw [hroom]
      exact announces_run job'
    · exact ⟨jobs, hroom.trans (Job.run_spec job').1⟩

/-- **Leaving undoes entering**: in every run whose steps meet `AccountKept`, when a session is
taken into a room, stays there and leaves, its account is the same all the time; it is the one in
the `S_ROOM_USER_ENTERED` and in the `S_ROOM_USER_LEFT`, and the one that `HandleLeave` clears and
stores a reconnect slot for. -/
theorem leave_undoes_enter (cfg : Config) {before stay : List (Action × Env)}
    {enter leave : Action × Env} {srv₀ srv₁ srv₂ srv₃ : Server}
    (hbefore : run (next cfg) .empty before = some srv₀)
    (henter : next cfg srv₀ enter = some srv₁) (htakes : srv₀.TakesIn enter.1 r s)
    (hstay : run (next cfg) srv₁ stay = some srv₂)
    (hmember : ∀ steps srv, steps <+: stay → run (next cfg) srv₁ steps = some srv →
      s ∈ (srv.room r).members)
    (hleave : next cfg srv₂ leave = some srv₃) (hleaves : srv₂.Leaving leave.1 r s)
    (hc : Along (next cfg) AccountKept .empty (before ++ enter :: stay)) :
    (∀ steps srv, steps <+: stay → run (next cfg) srv₁ steps = some srv →
      srv.account s = srv₀.account s) ∧
    (∀ t payload, (t, frame PacketID.sRoomUserEntered.toUInt16 payload) ∈
        srv₁.world.sent.drop srv₀.world.sent.length →
      payload = (ServerMessage.roomUserEntered (srv₀.account s)).serialize) ∧
    (∀ t payload, (t, frame PacketID.sRoomUserLeft.toUInt16 payload) ∈
        srv₃.world.sent.drop srv₂.world.sent.length →
      payload = (ServerMessage.roomUserLeft (srv₀.account s)).serialize) ∧
    ∃ jobs, srv₃.room r =
      GameRoom.left leave.2 s (srv₀.account s) { srv₂.room r with jobQueue := jobs } := by
  have hborn : Born srv₀ := born_of_run hbefore
  obtain ⟨enters, henters, htaken⟩ := htakes
  obtain ⟨leaves, hleaves, hleft⟩ := hleaves
  have hstart : srv₁.account s = srv₀.account s := by
    rw [account_next henter (session_of_takesIn hborn ⟨enters, henters, htaken⟩)]
    exact accountAfter_running henters
  have hkept : Along (next cfg) AccountKept srv₁ stay :=
    ((along_append.mp hc).2 srv₀ hbefore).2 srv₁ henter
  have haccount : ∀ steps srv, steps <+: stay → run (next cfg) srv₁ steps = some srv →
      srv.account s = srv₀.account s := by
    intro steps srv hpre hrun
    have hstays : ∀ steps' srv', steps' <+: steps → run (next cfg) srv₁ steps' = some srv' →
        s ∈ (srv'.room r).members :=
      fun steps' srv' hpre' => hmember steps' srv' (hpre'.trans hpre)
    exact (account_of_stay (born_next hborn henter) hrun (along_initial hpre hkept) hstays).trans
      hstart
  have hend : srv₂.account s = srv₀.account s := haccount stay srv₂ List.prefix_rfl hstay
  refine ⟨haccount, fun t payload hsent => ?_, fun t payload hsent => ?_, ?_⟩
  · obtain ⟨u, hjob, hpayload⟩ := ((ran_next henter henters).1.allowed hsent).entered rfl
    have hsame : u = s := by
      rcases hjob with hjob | hjob
      · rw [Option.some.inj hjob] at htaken
        exact htaken.elim (fun h => Job.handleEnter.inj h.1) fun h => absurd h (by simp)
      · rw [Option.some.inj hjob] at htaken
        exact htaken.elim (fun h => absurd h.1 (by simp)) fun h => Job.handleRejoin.inj h
    rw [hpayload, hsame]
    rfl
  · obtain ⟨u, ⟨job, hjob, hleaves'⟩, hpayload⟩ :=
      ((ran_next hleave hleaves).1.allowed hsent).left rfl
    obtain rfl := Option.some.inj hjob
    rw [hpayload, Job.leaves_unique hleaves' hleft, ← hend]
    rfl
  · obtain ⟨jobs, hroom⟩ := (ran_next hleave hleaves).2
    have hmem : s ∈ ({ srv₂.room r with jobQueue := jobs } : GameRoom).members :=
      hmember stay srv₂ List.prefix_rfl hstay
    refine ⟨jobs, ?_⟩
    rw [hroom, Job.outcome_leave hleft, if_pos hmem, ← hend]
    rfl

/-- A player enters room `A`, logs in again, perhaps to another account, and leaves. -/
def loginInRoom (accountId : Bytes) : List (Action × Env) :=
  quietly
    [.packet 0 .ready, .job 0, .packet 0 (.login (some [117])), .authCallback 0 true accountId,
      .packet 0 .roomLeave]

/-- Until the tick takes it in, the player is on the way. -/
def onTheWay : List (Action × Env) :=
  quietly
    [.accept true, .packet 0 (.login (some [116])), .authCallback 0 true [97],
      .packet 0 (.roomEnter (some [65]))]

/-- Logging in to the same account again does no harm. -/
theorem leave_undoes_enter_relogin :
    ∃ srv₀ srv₁ srv₂ srv₃, run (next ⟨16, 30000, 60000⟩) .empty onTheWay = some srv₀ ∧
      next ⟨16, 30000, 60000⟩ srv₀ (.job 0, .quiet 1000) = some srv₁ ∧
      run (next ⟨16, 30000, 60000⟩) srv₁ (loginInRoom [97]) = some srv₂ ∧
      next ⟨16, 30000, 60000⟩ srv₂ (.job 0, .quiet 1000) = some srv₃ ∧
      srv₂.account 0 = srv₀.account 0 ∧
      ∃ jobs, srv₃.room 0 =
        GameRoom.left (.quiet 1000) 0 (srv₀.account 0) { srv₂.room 0 with jobQueue := jobs } := by
  obtain ⟨srv₀, hbefore, htakes, srv₁, henter, hmember, srv₂, hstay, hleaves, srv₃, hleave, -⟩ :
      ∃ srv₀, run (next ⟨16, 30000, 60000⟩) .empty onTheWay = some srv₀ ∧
        srv₀.TakesIn (.job 0) 0 0 ∧
        ∃ srv₁, next ⟨16, 30000, 60000⟩ srv₀ (.job 0, .quiet 1000) = some srv₁ ∧
          (∀ steps ∈ (loginInRoom [97]).inits,
            ∀ srv ∈ run (next ⟨16, 30000, 60000⟩) srv₁ steps, 0 ∈ (srv.room 0).members) ∧
          ∃ srv₂, run (next ⟨16, 30000, 60000⟩) srv₁ (loginInRoom [97]) = some srv₂ ∧
            srv₂.Leaving (.job 0) 0 0 ∧
            ∃ srv₃, next ⟨16, 30000, 60000⟩ srv₂ (.job 0, .quiet 1000) = some srv₃ ∧ True := by
    decide
  obtain ⟨haccount, -, -, hroom⟩ := leave_undoes_enter _ hbefore henter htakes hstay
    (fun steps srv hpre hrun => hmember steps ((List.mem_inits _ _).mpr hpre) srv hrun) hleave
    hleaves (by decide)
  exact ⟨srv₀, srv₁, srv₂, srv₃, hbefore, henter, hstay, hleave,
    haccount _ srv₂ List.prefix_rfl hstay, hroom⟩

/-- The player who came as `a` is `b` while in the room and leaves as `b`; the mark of `a` stays. -/
theorem left_as_another :
    ∃ srv, run (next ⟨16, 30000, 60000⟩) .empty (onTheWay ++ quietly [.job 0]) = some srv ∧
      0 ∈ (srv.room 0).members ∧ srv.account 0 = [97] ∧
      ∃ srv', run (next ⟨16, 30000, 60000⟩) srv (loginInRoom [98]) = some srv' ∧
        0 ∈ (srv'.room 0).members ∧ srv'.account 0 = [98] ∧
        ∃ srv'', next ⟨16, 30000, 60000⟩ srv' (.job 0, .quiet 1000) = some srv'' ∧
          0 ∉ (srv''.room 0).members ∧ (srv''.room 0).readyPlayers = {[97]} := by
  decide

end

end RealtimeServer
