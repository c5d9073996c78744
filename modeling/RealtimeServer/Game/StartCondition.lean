import RealtimeServer.Game.Accounts
import RealtimeServer.Game.Phases

/-!
# The start condition that stands

A game is to start when all players of a room are ready and they are two at least. `HandleReady`
tests that by calling `TryStartGame`; the other methods that change who is in the room do not.

* `allReady_outcome`, `allReady_login`: what makes the condition true without starting the game.
* `standing_next`: the same of a step of the server.
* **`start_condition_iff`**: the runs in which the condition never stands are those in which no step
  does so. The player who leaves may be the last one who was not ready (`standing_lastUnready`).
-/

namespace RealtimeServer

open Unordered Guarded

/-- The room waits, with two members at least, and every member's account is marked. -/
def GameRoom.AllReady (account : SessionRef → Bytes) (room : GameRoom) : Prop :=
  room.state = .waiting ∧ 2 ≤ room.members.size ∧
    ∀ s ∈ room.members.elems, account s ∈ room.readyPlayers

instance (account : SessionRef → Bytes) (room : GameRoom) : Decidable (room.AllReady account) := by
  unfold GameRoom.AllReady; infer_instance

/-- A session with a marked account comes to a lone member whose account is marked. -/
def GameRoom.JoinsReady (account : SessionRef → Bytes) (room : GameRoom) (s : SessionRef) : Prop :=
  s ∉ room.members ∧ room.members.size = 1 ∧ account s ∈ room.readyPlayers ∧
    ∀ t ∈ room.members.elems, account t ∈ room.readyPlayers

instance (account : SessionRef → Bytes) (room : GameRoom) (s : SessionRef) :
    Decidable (room.JoinsReady account s) := by
  unfold GameRoom.JoinsReady; infer_instance

/-- A member goes who is not marked as the others are, and two of them stay at least. -/
def GameRoom.LeavesReady (account : SessionRef → Bytes) (room : GameRoom) (s : SessionRef) : Prop :=
  s ∈ room.members ∧ 3 ≤ room.members.size ∧
    ∀ t ∈ room.members.elems, t ≠ s → account t ≠ account s ∧ account t ∈ room.readyPlayers

instance (account : SessionRef → Bytes) (room : GameRoom) (s : SessionRef) :
    Decidable (room.LeavesReady account s) := by
  unfold GameRoom.LeavesReady; infer_instance

/-- The last account is marked, and some members share one: the marks are fewer than the members. -/
def GameRoom.MarksReady (account : SessionRef → Bytes) (room : GameRoom) (accountId : Bytes) :
    Prop :=
  accountId ∉ room.readyPlayers ∧ room.readyPlayers.card + 1 < room.members.size ∧
    ∀ t ∈ room.members.elems, account t = accountId ∨ account t ∈ room.readyPlayers

instance (account : SessionRef → Bytes) (room : GameRoom) (accountId : Bytes) :
    Decidable (room.MarksReady account accountId) := by
  unfold GameRoom.MarksReady; infer_instance

/-- In a waiting room the job makes everyone ready, and starts no game. -/
def Job.Completes (account : SessionRef → Bytes) (room : GameRoom) : Job → Prop
  | handleEnter s => room.Admits ∧ room.JoinsReady account s
  | handleRejoin s => room.JoinsReady account s
  | handleLeave s | leaveAndAck s => room.LeavesReady account s
  | handleReady accountId => room.MarksReady account accountId
  | chat .. | handleMove .. => False

instance (account : SessionRef → Bytes) (room : GameRoom) (job : Job) :
    Decidable (job.Completes account room) := by
  unfold Job.Completes
  split <;> infer_instance

section

variable {account : SessionRef → Bytes} {env : Env} {room room' : GameRoom} {w : World}
  {s : SessionRef} {accountId : Bytes}

namespace GameRoom

/-- Nothing but these three parts is read. -/
theorem allReady_congr (hstate : room'.state = room.state) (hmembers : room'.members = room.members)
    (hmarks : room'.readyPlayers = room.readyPlayers) :
    room'.AllReady account ↔ room.AllReady account := by
  unfold AllReady
  rw [hstate, hmembers, hmarks]

theorem AllReady.member (h : room.AllReady account) : ∃ s, s ∈ room.members := by
  by_contra hnone
  have hzero := IterSet.size_eq_zero_iff.mpr (not_exists.mp hnone)
  have htwo := h.2.1
  omega

/-- A newcomer makes two of one. -/
theorem allReady_entered (hnot : ¬ room.AllReady account) :
    (room.entered env s).AllReady account ↔
      room.state = .waiting ∧ room.JoinsReady account s := by
  by_cases hmem : s ∈ room.members
  · refine iff_of_false (fun h => hnot ?_) fun h => h.2.1 hmem
    obtain ⟨hwaiting, hsize, hall⟩ := h
    have hsame : (room.entered env s).members.size = room.members.size :=
      IterSet.size_insert_of_mem hmem
    exact ⟨hwaiting, hsame ▸ hsize, fun t ht => hall t (IterSet.mem_insert.mpr (Or.inr ht))⟩
  · have hsize : (room.entered env s).members.size = room.members.size + 1 :=
      IterSet.size_insert_of_not_mem hmem
    constructor
    · rintro ⟨hwaiting, htwo, hall⟩
      have hothers : ∀ t ∈ room.members.elems, account t ∈ room.readyPlayers :=
        fun t ht => hall t (IterSet.mem_insert.mpr (Or.inr ht))
      have hfew : ¬ 2 ≤ room.members.size := fun hfew => hnot ⟨hwaiting, hfew, hothers⟩
      exact ⟨hwaiting, hmem, by omega, hall s (IterSet.mem_insert.mpr (Or.inl rfl)), hothers⟩
    · rintro ⟨hwaiting, -, hone, hmark, hothers⟩
      refine ⟨hwaiting, by omega, fun t ht => ?_⟩
      rcases IterSet.mem_insert.mp ht with rfl | ht
      · exact hmark
      · exact hothers t ht

/-- Someone leaves the others ready. -/
theorem allReady_left (hmem : s ∈ room.members) :
    (room.left env s (account s)).AllReady account ↔
      room.state = .waiting ∧ room.LeavesReady account s := by
  have hsize := IterSet.size_erase_of_mem hmem
  have hstate : (room.left env s (account s)).state = .waiting ↔ room.state = .waiting := by
    unfold left
    simp only
    split
    · rename_i hends
      rw [hends.1]
      decide
    · exact Iff.rfl
  constructor
  · rintro ⟨hwaiting, htwo, hall⟩
    have htwo : 2 ≤ (room.members.erase s).size := htwo
    refine ⟨hstate.mp hwaiting, hmem, by omega, fun t ht hne => ?_⟩
    exact Finset.mem_erase.mp (hall t (IterSet.mem_erase.mpr ⟨hne, ht⟩))
  · rintro ⟨hwaiting, -, hthree, hothers⟩
    refine ⟨hstate.mpr hwaiting, ?_, fun t ht => ?_⟩
    · show 2 ≤ (room.members.erase s).size
      omega
    · obtain ⟨hne, ht⟩ := IterSet.mem_erase.mp ht
      exact Finset.mem_erase.mpr (hothers t ht hne)

/-- A mark that makes everyone ready starts the game, unless the marks are too few. -/
theorem allReady_readied (hnot : ¬ room.AllReady account) :
    (room.readied accountId).AllReady account ↔
      room.state = .waiting ∧ room.MarksReady account accountId := by
  by_cases hwaiting : room.state = .waiting
  · have hreadied : (room.readied accountId).AllReady account ↔
        ¬ (room.toggleReady accountId).Starts ∧ 2 ≤ room.members.size ∧
          ∀ t ∈ room.members.elems, account t ∈ (room.toggleReady accountId).readyPlayers := by
      unfold readied
      rw [if_neg (not_not.mpr hwaiting)]
      by_cases hstarts : (room.toggleReady accountId).Starts
      · rw [if_pos hstarts]
        exact iff_of_false (fun h => absurd (show RoomState.inGame = .waiting from h.1) (by decide))
          fun h => h.1 hstarts
      · rw [if_neg hstarts]
        unfold AllReady
        simp only [state_toggleReady, members_toggleReady, hwaiting, hstarts, true_and,
          not_false_eq_true]
    rw [hreadied]
    by_cases hmarked : accountId ∈ room.readyPlayers
    · refine iff_of_false (fun h => hnot ⟨hwaiting, h.2.1, fun t ht => ?_⟩) fun h => h.2.1 hmarked
      rcases mem_toggleReady.mp (h.2.2 t ht) with ⟨-, hmark⟩ | ⟨-, hunmarked⟩
      · exact hmark
      · exact absurd hmarked hunmarked
    · have hmarks : (room.toggleReady accountId).readyPlayers =
          insert accountId room.readyPlayers := by
        unfold toggleReady
        rw [if_neg hmarked]
      have hcard := Finset.card_insert_of_notMem hmarked
      unfold Starts
      rw [hmarks, hcard, members_toggleReady]
      simp only [Finset.mem_insert]
      constructor
      · rintro ⟨hstarts, htwo, hall⟩
        exact ⟨hwaiting, hmarked, by omega, hall⟩
      · rintro ⟨-, -, hfew, hall⟩
        exact ⟨by omega, by omega, hall⟩
  · rw [show room.readied accountId = room from if_pos hwaiting]
    exact iff_of_false hnot fun h => hwaiting h.1

end GameRoom

/-- **One job** and the start condition. -/
theorem allReady_outcome (hnot : ¬ room.AllReady fun s => (w.session s).accountId) (job : Job) :
    (job.outcome env room w).AllReady (fun s => (w.session s).accountId) ↔
      room.state = .waiting ∧ job.Completes (fun s => (w.session s).accountId) room := by
  have hleave : ∀ s, job.Leaves s →
      ((job.outcome env room w).AllReady (fun s => (w.session s).accountId) ↔
        room.state = .waiting ∧ room.LeavesReady (fun s => (w.session s).accountId) s) := by
    intro s hleaves
    rw [Job.outcome_leave hleaves]
    by_cases hmem : s ∈ room.members
    · rw [if_pos hmem]
      exact GameRoom.allReady_left hmem
    · rw [if_neg hmem]
      exact iff_of_false hnot fun h => hmem h.2.1
  cases job with
  | handleEnter s =>
    show (if room.Admits then room.entered env s else room).AllReady _ ↔
      room.state = .waiting ∧ room.Admits ∧ room.JoinsReady _ s
    by_cases hadmits : room.Admits
    · rw [if_pos hadmits, GameRoom.allReady_entered hnot]
      simp only [hadmits, true_and]
    · rw [if_neg hadmits]
      exact iff_of_false hnot fun h => hadmits h.2.1
  | handleLeave s => exact hleave s (Or.inl rfl)
  | leaveAndAck s => exact hleave s (Or.inr rfl)
  | handleRejoin s => exact GameRoom.allReady_entered hnot
  | chat sender message => exact iff_of_false hnot fun h => h.2
  | handleMove accountId x y =>
    refine iff_of_false (fun h => hnot ?_) fun h => h.2
    have hsame : (room.handleMove accountId x y).AllReady (fun s => (w.session s).accountId) := h
    unfold GameRoom.handleMove at hsame
    split at hsame
    · exact hsame
    · exact hsame
  | handleReady accountId => exact GameRoom.allReady_readied hnot

end

/-! ## The server's rooms -/

/-- The start condition of `r` holds, and no game has been started. -/
def Standing (srv : Server) (r : RoomRef) : Prop := (srv.room r).AllReady srv.account

instance (srv : Server) (r : RoomRef) : Decidable (Standing srv r) := by
  unfold Standing; infer_instance

/-- A login gives a member a marked account, where the others are marked. -/
def LoginCompletes (srv : Server) (a : Action) (r : RoomRef) : Prop :=
  ∃ login ∈ srv.loggingIn a, login.1 ∈ (srv.room r).members ∧ 2 ≤ (srv.room r).members.size ∧
    login.2 ∈ (srv.room r).readyPlayers ∧
    ∀ t ∈ (srv.room r).members.elems, t ≠ login.1 → srv.account t ∈ (srv.room r).readyPlayers

instance (srv : Server) (a : Action) (r : RoomRef) : Decidable (LoginCompletes srv a r) := by
  unfold LoginCompletes; infer_instance

/-- The step makes everyone in the waiting room ready, and starts no game. -/
def Completes (srv : Server) (a : Action) (r : RoomRef) : Prop :=
  (srv.room r).state = .waiting ∧
    ((∃ job ∈ srv.running a r, job.Completes srv.account (srv.room r)) ∨ LoginCompletes srv a r)

instance (srv : Server) (a : Action) (r : RoomRef) : Decidable (Completes srv a r) := by
  unfold Completes; infer_instance

/-- The step completes no room. -/
def CompletesNone (srv : Server) (step : Action × Env) : Prop :=
  ∀ r < srv.rooms.heap.length, ¬ Completes srv step.1 r

instance (srv : Server) (step : Action × Env) : Decidable (CompletesNone srv step) := by
  unfold CompletesNone; infer_instance

section

variable {cfg : Config} {srv srv' : Server} {a : Action} {env : Env} {r : RoomRef}

/-- Only the accounts of the members matter. -/
theorem allReady_accounts {account account' : SessionRef → Bytes} {room : GameRoom}
    (h : ∀ s ∈ room.members, account' s = account s) :
    room.AllReady account' ↔ room.AllReady account := by
  unfold GameRoom.AllReady
  refine and_congr_right fun _ => and_congr_right fun _ => forall₂_congr fun s hs => ?_
  rw [h s hs]

theorem not_standing_empty (r : RoomRef) : ¬ Standing .empty r := by
  intro hstanding
  obtain ⟨s, hmem⟩ := hstanding.member
  exact not_mem_members_empty hmem

/-- Where nobody in the room logs in and no job of it runs, nothing is completed. -/
theorem completes_of_idle (hidle : srv.running a r = none)
    (hlogin : ∀ login ∈ srv.loggingIn a, login.1 ∉ (srv.room r).members) :
    ¬ Completes srv a r := by
  rintro ⟨-, ⟨job, hjob, -⟩ | ⟨login, hlogs, hmem, -⟩⟩
  · rw [hidle] at hjob
    exact absurd hjob (by simp)
  · exact hlogin login hlogs hmem

/-- A login of a member. -/
theorem allReady_login (hb : Born srv) (h : next cfg srv (a, env) = some srv') {s : SessionRef}
    {accountId : Bytes} (hlogs : srv.loggingIn a = some (s, accountId))
    (hmem : s ∈ (srv.room r).members) :
    (srv.room r).AllReady srv'.account ↔ Completes srv a r := by
  have hself : srv'.account s = accountId :=
    (account_next h (hb.members r s hmem)).trans (accountAfter_login hlogs)
  have hothers : ∀ t ∈ (srv.room r).members, t ≠ s → srv'.account t = srv.account t := by
    intro t ht hne
    refine (account_next h (hb.members r t ht)).trans (accountAfter_other fun account hlogs' => ?_)
    rw [hlogs] at hlogs'
    exact hne (Prod.mk.inj (Option.some.inj hlogs')).1.symm
  constructor
  · rintro ⟨hwaiting, htwo, hall⟩
    refine ⟨hwaiting, Or.inr ⟨(s, accountId), hlogs, hmem, htwo, ?_, fun t ht hne => ?_⟩⟩
    · rw [← hself]
      exact hall s hmem
    · rw [← hothers t ht hne]
      exact hall t ht
  · rintro ⟨hwaiting, ⟨job, hjob, -⟩ | ⟨login, hlogs', -, htwo, hmark, hall⟩⟩
    · rw [running_of_login hlogs] at hjob
      exact absurd hjob (by simp)
    · obtain rfl := Option.some.inj (hlogs.symm.trans hlogs')
      refine ⟨hwaiting, htwo, fun t ht => ?_⟩
      by_cases hne : t = s
      · rw [hne, hself]
        exact hmark
      · rw [hothers t ht hne]
        exact hall t ht hne

/-- A room that comes back to `WAITING` has no marks. -/
theorem not_allReady_swept {account : SessionRef → Bytes} {room : GameRoom}
    {reconnectWindowMs : Int} (hphased : room.Phased) (hnot : ¬ room.AllReady account) :
    ¬ (room.swept env reconnectWindowMs).AllReady account := by
  intro hready
  by_cases hwas : room.state = .waiting
  · exact hnot ⟨hwas, hready.2⟩
  · obtain ⟨s, hs⟩ := hready.member
    have hmark : account s ∈ room.readyPlayers := hready.2.2 s hs
    rw [hphased.unmarked hwas] at hmark
    exact absurd hmark (Finset.notMem_empty _)

/-- What a job completes does not depend on the jobs behind it. -/
theorem completes_queue {account : SessionRef → Bytes} {room : GameRoom} {jobs : List Job}
    {job : Job} : job.Completes account { room with jobQueue := jobs } ↔
      job.Completes account room := by
  cases job <;> rfl

/-- **One step** makes the condition stand exactly when it completes the room. -/
theorem standing_next (hb : Born srv) (hphased : (srv.room r).Phased) (hnot : ¬ Standing srv r)
    (h : next cfg srv (a, env) = some srv') : Standing srv' r ↔ Completes srv a r := by
  unfold Standing
  cases rooms_next h r with
  | queued inside kept queue idle =>
    have hsame : (srv'.room r).AllReady srv'.account ↔ (srv.room r).AllReady srv'.account := by
      refine GameRoom.allReady_congr ?_ ?_ ?_
      · exact (congrArg GameRoom.state inside :)
      · exact (congrArg GameRoom.members inside :)
      · exact (congrArg GameRoom.readyPlayers inside :)
    rw [hsame]
    by_cases hlogin : ∃ login ∈ srv.loggingIn a, login.1 ∈ (srv.room r).members
    · obtain ⟨⟨s, accountId⟩, hlogs, hmem⟩ := hlogin
      exact allReady_login hb h hlogs hmem
    · have hnobody : ∀ login ∈ srv.loggingIn a, login.1 ∉ (srv.room r).members :=
        fun login hlogs hmem => hlogin ⟨login, hlogs, hmem⟩
      refine iff_of_false (fun hready => hnot ?_) (completes_of_idle idle hnobody)
      refine (allReady_accounts fun s hs => ?_).mp hready
      exact (account_next h (hb.members r s hs)).trans
        (accountAfter_other fun account hlogs => hnobody (s, account) hlogs hs)
  | swept action room =>
    subst action
    rw [room]
    refine iff_of_false (fun hready => ?_) (completes_of_idle rfl (by simp [Server.loggingIn]))
    refine not_allReady_swept hphased hnot ((allReady_accounts fun s hs => ?_).mp hready)
    exact account_next h (hb.members r s hs)
  | ran job jobs action queue room =>
    subst action
    have haccounts : ∀ s ∈ (srv'.room r).members, srv'.account s = srv.account s := by
      intro s hs
      exact (account_next h (lt_of_holds hb ((members_next h).mp hs)).1).trans
        (accountAfter_running (running_job queue))
    rw [allReady_accounts haccounts, room, (Job.run_spec job).1]
    refine (@allReady_outcome env { srv.room r with jobQueue := jobs } srv.world hnot job).trans ?_
    show (srv.room r).state = .waiting ∧ job.Completes srv.account _ ↔ _
    rw [completes_queue]
    unfold Completes LoginCompletes
    rw [running_job queue]
    simp [Server.loggingIn]

/-- **The start condition never stands** in a state of a run exactly when no step of the run
completes a room: no member leaves a waiting room who is the last one not ready, nobody whose
account is marked joins a lone ready member, no mark is the last one while members share an account,
and no login gives the last unmarked member a marked account. -/
theorem start_condition_iff (cfg : Config) {steps : List (Action × Env)}
    (hrun : run (next cfg) .empty steps = some srv) :
    (∀ before srv, before <+: steps → run (next cfg) .empty before = some srv →
      ∀ r, ¬ Standing srv r) ↔ Along (next cfg) CompletesNone .empty steps := by
  refine kept_iff_along not_standing_empty ?_ hrun
  rintro before srv ⟨a, env⟩ srv' hbefore hnot hnext
  have hb : Born srv := born_of_run hbefore
  have hstands : ∀ r, Standing srv' r ↔ Completes srv a r :=
    fun r => standing_next hb (phased_of_server hbefore r) (hnot r) hnext
  constructor
  · intro hnot' r _ hcompletes
    exact hnot' r ((hstands r).mpr hcompletes)
  · intro hnone r hstanding
    obtain ⟨s, hmem⟩ := hstanding.member
    exact hnone r (lt_of_holds hb ((members_next hnext).mp hmem)).2 ((hstands r).mp hstanding)

/-- Three players are in room `A`, one of them gets ready, and one leaves who has not. -/
def unreadyLeaves : List (Action × Env) :=
  quietly (lobby 3 ++ [.packet 0 .ready, .job 0, .packet 2 .roomLeave, .job 0])

/-- The other one still has to. -/
theorem start_condition_unreadyLeaves :
    ∃ srv, run (next ⟨16, 30000, 60000⟩) .empty unreadyLeaves = some srv ∧
      (srv.room 0).state = .waiting ∧ (srv.room 0).members.size = 2 ∧ ¬ Standing srv 0 := by
  obtain ⟨srv, hrun, hwaiting, hsize⟩ :
      ∃ srv, run (next ⟨16, 30000, 60000⟩) .empty unreadyLeaves = some srv ∧
        (srv.room 0).state = .waiting ∧ (srv.room 0).members.size = 2 := by decide +kernel
  have hcondition : Along (next ⟨16, 30000, 60000⟩) CompletesNone .empty unreadyLeaves := by
    decide +kernel
  exact ⟨srv, hrun, hwaiting, hsize,
    (start_condition_iff _ hrun).mpr hcondition unreadyLeaves srv List.prefix_rfl hrun 0⟩

/-- The one who leaves is the last one not ready. -/
def lastUnready : List (Action × Env) :=
  quietly (lobby 3 ++
    [.packet 0 .ready, .packet 1 .ready, .job 0, .job 0, .packet 2 .roomLeave, .job 0])

/-- Two ready players wait. -/
theorem standing_lastUnready :
    ∃ srv, run (next ⟨16, 30000, 60000⟩) .empty lastUnready = some srv ∧
      (srv.room 0).state = .waiting ∧ (srv.room 0).members.size = 2 ∧
      ∀ s ∈ (srv.room 0).members.elems,
        (srv.world.session s).accountId ∈ (srv.room 0).readyPlayers := by
  decide +kernel

/-- Two connections of one player: one gets ready alone, and the other one enters. -/
def sharedMark : List (Action × Env) :=
  quietly
    [.accept true, .packet 0 (.login (some [116])), .authCallback 0 true [97],
      .packet 0 (.roomEnter (some [65])), .job 0, .packet 0 .ready, .job 0,
      .accept true, .packet 1 (.login (some [116])), .authCallback 0 true [97],
      .packet 1 (.roomEnter (some [65])), .job 0]

/-- One mark is every member's, and too few for the two of them. -/
theorem standing_sharedMark :
    ∃ srv, run (next ⟨16, 30000, 60000⟩) .empty sharedMark = some srv ∧ Standing srv 0 := by
  decide +kernel

end

end RealtimeServer
