import RealtimeServer.Game.Phases
import RealtimeServer.Lib.TwoRuns

/-!
# The winner and the order of `m_members`

A leave from a running game ends it, and `HandleLeave` reads the winner off `*m_members.begin()`.
The comment above says that the rest win; with one player left the two are the same.

Two histories of a room are compared that have the same jobs, clock readings and accounts, and in
which the iterators of `m_members` may walk in any order (`Alike`).

* `sameButOrder_next`: an entry keeps two rooms apart in that order only.
* `result_next`, `winner_iff_ends`: the winner is what the `S_GAME_RESULT` packets of an entry name,
  and there is one exactly when a game ends.
* **`winners_order_free_iff`**: all orders declare the same winners exactly when every game of the
  history ends with one account left.
-/

namespace RealtimeServer

open Unordered Guarded

variable {this : RoomRef} {reconnectWindowMs : Int} {room room' : GameRoom} {step step' : RoomStep}

/-! ## Who wins -/

/-- The session a leave job is for. -/
def Job.leaver : Job → Option SessionRef
  | handleLeave session => some session
  | leaveAndAck session => some session
  | _ => none

theorem Job.leaver_iff {job : Job} {s : SessionRef} : job.leaver = some s ↔ job.Leaves s := by
  cases job <;> simp [leaver, Leaves, eq_comm]

/-- The session an entry of a room's history takes out. -/
def RoomStep.leaver (step : RoomStep) : Option SessionRef :=
  match step.op with
  | .job job => job.leaver
  | .tickEnd => none

/-- The entry takes the member `s` out of a running game. -/
structure QuitsGame (room : GameRoom) (step : RoomStep) (s : SessionRef) : Prop where
  leaver : step.leaver = some s
  member : s ∈ room.members
  playing : room.state = .inGame

/-- `*m_members.begin()`, where `HandleLeave` reads it: behind the erase. -/
def winnerSession (room : GameRoom) (step : RoomStep) : Option SessionRef :=
  step.leaver.bind fun s =>
    if s ∈ room.members ∧ room.state = .inGame then (room.members.erase s).first else none

/-- The account `HandleLeave` gives to `HandleGameEnd`, when it calls it. -/
def winner (room : GameRoom) (step : RoomStep) : Option Bytes :=
  (winnerSession room step).map fun w => (step.world.session w).accountId

theorem winnerSession_of_quits {s : SessionRef} (h : QuitsGame room step s) :
    winnerSession room step = (room.members.erase s).first := by
  unfold winnerSession
  rw [h.leaver, Option.bind_some, if_pos ⟨h.member, h.playing⟩]

theorem quits_of_winnerSession {w : SessionRef} (h : winnerSession room step = some w) :
    ∃ s, QuitsGame room step s ∧ (room.members.erase s).first = some w := by
  obtain ⟨s, hleaver, hs⟩ := Option.bind_eq_some_iff.mp h
  obtain ⟨⟨hmem, hgame⟩, hfirst⟩ := Option.ite_none_right_eq_some.mp hs
  exact ⟨s, ⟨hleaver, hmem, hgame⟩, hfirst⟩

/-- **The winner is what is announced**: a `S_GAME_RESULT` an entry sends names it. -/
theorem result_next {s : SessionRef} {payload : Bytes}
    (hsent : (s, frame PacketID.sGameResult.toUInt16 payload) ∈
      (worldNext this reconnectWindowMs room step).sent.drop step.world.sent.length) :
    ∃ winnerId, winner room step = some winnerId ∧ payload = gameResult winnerId := by
  have hnodup : (winnerSession room step).toList.Nodup := by
    cases winnerSession room step <;> simp
  have hallowed : Announces ⟨_, hnodup⟩ step.world
      (match step.op with | .job job => some job | .tickEnd => none) .sGameResult payload := by
    unfold worldNext at hsent
    cases hop : step.op with
    | tickEnd =>
      rw [hop] at hsent
      have htick := @announces_tickEnd step.env room step.world step.world ⟨_, hnodup⟩
        reconnectWindowMs
      exact htick.allowed hsent
    | job job =>
      rw [hop] at hsent
      refine (announces_job job fun t w hleaves hmem hgame hfirst => ?_).allowed hsent
      have hleaver : step.leaver = some t := by
        unfold RoomStep.leaver
        rw [hop]
        exact Job.leaver_iff.mpr hleaves
      show w ∈ (winnerSession room step).toList
      rw [winnerSession_of_quits ⟨hleaver, hmem, hgame⟩, hfirst]
      exact List.mem_singleton_self w
  obtain ⟨w, hw, hpayload⟩ := hallowed.result rfl
  refine ⟨_, ?_, hpayload⟩
  unfold winner
  rw [Option.mem_toList.mp hw, Option.map_some]

theorem step_quits {s : SessionRef} (h : QuitsGame room step s) :
    ∃ job, step.op = .job job ∧ job.Leaves s := by
  have hleaver := h.leaver
  unfold RoomStep.leaver at hleaver
  cases hop : step.op with
  | tickEnd =>
    rw [hop] at hleaver
    exact absurd hleaver (by simp)
  | job job =>
    rw [hop] at hleaver
    exact ⟨job, rfl, Job.leaver_iff.mp hleaver⟩

/-- A winner is declared exactly where a game ends. -/
theorem winner_iff_ends (hnext : roomNext this reconnectWindowMs room step = some room') :
    (winner room step).isSome ↔ room.state = .inGame ∧ room'.state = .finished := by
  unfold winner
  rw [Option.isSome_map, Option.isSome_iff_exists]
  constructor
  · rintro ⟨w, hw⟩
    obtain ⟨s, hquits, hfirst⟩ := quits_of_winnerSession hw
    obtain ⟨job, hop, hleaves⟩ := step_quits hquits
    have hsize : (room.members.erase s).size ≠ 0 := by
      intro hzero
      rw [IterSet.first_eq_none.mpr hzero] at hfirst
      exact absurd hfirst (by simp)
    rw [roomNext_job hop hnext, (Job.run_spec job).1, Job.outcome_leave hleaves,
      if_pos hquits.member]
    exact ⟨hquits.playing, if_pos ⟨hquits.playing, hsize⟩⟩
  · rintro ⟨hgame, hfinished⟩
    cases phase_next hnext with
    | stays state => exact absurd (hgame.symm.trans (state.symm.trans hfinished)) (by decide)
    | starts accountId op before after => exact absurd (hgame.symm.trans before) (by decide)
    | resets op late before after => exact absurd (hgame.symm.trans before) (by decide)
    | ends job s op leaves member before after =>
      have hquits : QuitsGame room step s := by
        refine ⟨?_, member, before⟩
        unfold RoomStep.leaver
        rw [op]
        exact Job.leaver_iff.mpr leaves
      rw [winnerSession_of_quits hquits]
      cases hfirst : (room.members.erase s).first with
      | some w => exact ⟨w, rfl⟩
      | none =>
        have hzero := IterSet.first_eq_none.mp hfirst
        rw [roomNext_job op hnext, (Job.run_spec job).1, Job.outcome_leave leaves, if_pos member]
          at after
        unfold GameRoom.left at after
        simp only [hzero, ne_eq, not_true_eq_false, and_false, if_false, before] at after
        exact absurd after (by decide)

/-! ## Two histories that differ in the order -/

/-- Two rooms that differ in the order of `m_members` at most. -/
structure SameButOrder (room room' : GameRoom) : Prop where
  members : room.members.SameElems room'.members
  rest : room' = { room with members := room'.members }

/-- The same entry: the order an insertion leaves is open, and so is whatever else no room reads. -/
structure Alike (step step' : RoomStep) : Prop where
  op : step'.op = step.op
  now : step'.env.now = step.env.now
  later : step'.env.later = step.env.later
  accountId : ∀ s, (step'.world.session s).accountId = (step.world.session s).accountId

theorem SameButOrder.refl (room : GameRoom) : SameButOrder room room := ⟨fun _ => Iff.rfl, rfl⟩

namespace SameButOrder

variable {env env' : Env} {members : IterSet SessionRef}

theorem entered (h : room.members.SameElems members) (s : SessionRef) :
    SameButOrder (room.entered env s) (GameRoom.entered env' s { room with members := members }) :=
  ⟨h.insert env.sessionOrder env'.sessionOrder s, rfl⟩

theorem rejoined (h : room.members.SameElems members) (s : SessionRef) (accountId : Bytes) :
    SameButOrder (room.rejoined env s accountId)
      (GameRoom.rejoined env' s accountId { room with members := members }) :=
  ⟨h.insert env.sessionOrder env'.sessionOrder s, rfl⟩

theorem left (h : room.members.SameElems members) (hnow : env'.now = env.now)
    (hlater : env'.later = env.later) (s : SessionRef) (accountId : Bytes) :
    SameButOrder (room.left env s accountId)
      (GameRoom.left env' s accountId { room with members := members }) := by
  have hothers := h.erase s
  refine ⟨hothers, ?_⟩
  unfold GameRoom.left
  simp only [hnow, hlater, hothers.size]

theorem readied (h : room.members.SameElems members) (accountId : Bytes) :
    SameButOrder (room.readied accountId)
      (GameRoom.readied accountId { room with members := members }) := by
  have htoggle : GameRoom.toggleReady accountId { room with members := members } =
      { room.toggleReady accountId with members := members } := by
    unfold GameRoom.toggleReady
    split <;> rfl
  have hstarts : ({ room.toggleReady accountId with members := members } : GameRoom).Starts ↔
      (room.toggleReady accountId).Starts := by
    unfold GameRoom.Starts
    rw [GameRoom.members_toggleReady, h.size]
  unfold GameRoom.readied
  rw [htoggle]
  by_cases hwaiting : room.state ≠ .waiting
  · rw [if_pos hwaiting, if_pos hwaiting]
    exact ⟨h, rfl⟩
  · rw [if_neg hwaiting, if_neg hwaiting]
    by_cases h' : (room.toggleReady accountId).Starts
    · rw [if_pos h', if_pos (hstarts.mpr h')]
      exact ⟨h, rfl⟩
    · rw [if_neg h', if_neg (mt hstarts.mp h')]
      exact ⟨by rwa [GameRoom.members_toggleReady], rfl⟩

theorem outcome (h : SameButOrder room room') (hnow : env'.now = env.now)
    (hlater : env'.later = env.later) {w w' : World}
    (haccount : ∀ s, (w'.session s).accountId = (w.session s).accountId) (job : Job) :
    SameButOrder (job.outcome env room w) (job.outcome env' room' w') := by
  obtain ⟨hmembers, hrest⟩ := h
  generalize room'.members = members at hmembers hrest
  subst hrest
  have hleave : ∀ {leave : Job} {s}, leave.Leaves s → SameButOrder (leave.outcome env room w)
      (leave.outcome env' { room with members := members } w') := by
    intro leave s hleaves
    rw [Job.outcome_leave hleaves, Job.outcome_leave hleaves, haccount]
    by_cases hmem : s ∈ room.members
    · rw [if_pos hmem, if_pos ((hmembers s).mp hmem)]
      exact left hmembers hnow hlater s _
    · rw [if_neg hmem, if_neg (mt (hmembers s).mpr hmem)]
      exact ⟨hmembers, rfl⟩
  cases job with
  | handleEnter s =>
    have hadmits : ({ room with members := members } : GameRoom).Admits ↔ room.Admits := by
      unfold GameRoom.Admits
      rw [hmembers.size]
    simp only [Job.outcome]
    by_cases h : room.Admits
    · rw [if_pos h, if_pos (hadmits.mpr h)]
      exact entered hmembers s
    · rw [if_neg h, if_neg (mt hadmits.mp h)]
      exact ⟨hmembers, rfl⟩
  | handleLeave s => exact hleave (Or.inl rfl)
  | leaveAndAck s => exact hleave (Or.inr rfl)
  | handleRejoin s =>
    simp only [Job.outcome]
    rw [haccount]
    exact rejoined hmembers s _
  | chat sender message => exact ⟨hmembers, rfl⟩
  | handleMove accountId x y =>
    show SameButOrder (room.handleMove accountId x y)
      (GameRoom.handleMove accountId x y { room with members := members })
    unfold GameRoom.handleMove
    by_cases hplaying : room.state ≠ .inGame
    · rw [if_pos hplaying, if_pos hplaying]
      exact ⟨hmembers, rfl⟩
    · rw [if_neg hplaying, if_neg hplaying]
      exact ⟨hmembers, rfl⟩
  | handleReady accountId => exact readied hmembers accountId

theorem swept (h : SameButOrder room room') (hnow : env'.now = env.now)
    (hlater : env'.later = env.later) :
    SameButOrder (room.swept env reconnectWindowMs) (room'.swept env' reconnectWindowMs) := by
  obtain ⟨hmembers, hrest⟩ := h
  generalize room'.members = members at hmembers hrest
  subst hrest
  refine ⟨hmembers, ?_⟩
  unfold GameRoom.swept
  simp only [hnow, hlater]

end SameButOrder

/-- **One entry on both sides** leaves the rooms apart in that order only. -/
theorem sameButOrder_next (h : SameButOrder room room') (halike : Alike step step') :
    Option.Rel SameButOrder (roomNext this reconnectWindowMs room step)
      (roomNext this reconnectWindowMs room' step') := by
  unfold roomNext
  rw [halike.op]
  cases step.op with
  | job job =>
    refine .some ?_
    rw [(Job.run_spec job).1, (Job.run_spec job).1]
    exact h.outcome halike.now halike.later halike.accountId job
  | tickEnd =>
    refine .some ?_
    rw [(GameRoom.tickEnd_spec reconnectWindowMs).1, (GameRoom.tickEnd_spec reconnectWindowMs).1]
    exact h.swept halike.now halike.later

theorem quits_alike (h : SameButOrder room room') (halike : Alike step step') {s : SessionRef} :
    QuitsGame room' step' s ↔ QuitsGame room step s := by
  have hleaver : step'.leaver = step.leaver := by
    unfold RoomStep.leaver
    rw [halike.op]
  have hstate : room'.state = room.state := by rw [h.rest]
  constructor
  · rintro ⟨leaver, member, playing⟩
    exact ⟨hleaver ▸ leaver, (h.members s).mpr member, hstate ▸ playing⟩
  · rintro ⟨leaver, member, playing⟩
    exact ⟨hleaver.trans leaver, (h.members s).mp member, hstate.trans playing⟩

/-! ## One account left -/

/-- Whom an entry takes out of a running game leaves members of one account behind. -/
def OneAccountLeft (room : GameRoom) (step : RoomStep) : Prop :=
  ∀ s, QuitsGame room step s → ∀ t ∈ room.members.erase s, ∀ u ∈ room.members.erase s,
    (step.world.session t).accountId = (step.world.session u).accountId

/-- The winner does not hang on the order then. -/
theorem winner_alike (h : SameButOrder room room') (halike : Alike step step')
    (hone : OneAccountLeft room step) : winner room step = winner room' step' := by
  by_cases hquits : ∃ s, QuitsGame room step s
  · obtain ⟨s, hs⟩ := hquits
    have hs' := (quits_alike h halike).mpr hs
    have hothers := h.members.erase s
    unfold winner
    rw [winnerSession_of_quits hs, winnerSession_of_quits hs']
    cases hfirst : (room.members.erase s).first with
    | none =>
      have hzero := IterSet.first_eq_none.mp hfirst
      rw [IterSet.first_eq_none.mpr (hothers.size.symm.trans hzero)]
      rfl
    | some t =>
      cases hfirst' : (room'.members.erase s).first with
      | none =>
        have hzero := hothers.size.trans (IterSet.first_eq_none.mp hfirst')
        rw [IterSet.first_eq_none.mpr hzero] at hfirst
        exact absurd hfirst (by simp)
      | some u =>
        have hu := (hothers u).mpr (IterSet.first_mem hfirst')
        rw [Option.map_some, Option.map_some, halike.accountId,
          hone s hs t (IterSet.first_mem hfirst) u hu]
  · have hnone : ∀ {room : GameRoom} {step : RoomStep}, (¬ ∃ s, QuitsGame room step s) →
        winner room step = none := by
      intro room step hno
      unfold winner
      rw [Option.map_eq_none_iff, Option.eq_none_iff_forall_not_mem]
      intro w hw
      obtain ⟨s, hs, -⟩ := quits_of_winnerSession hw
      exact hno ⟨s, hs⟩
    rw [hnone hquits, hnone fun ⟨s, hs⟩ => hquits ⟨s, (quits_alike h halike).mp hs⟩]

/-! ## The order that puts one member in front -/

/-- The entry where an insertion puts `x` in front. -/
def RoomStep.leadBy (x : SessionRef) (step : RoomStep) : RoomStep :=
  { step with env := { step.env with sessionOrder := .toFront x } }

theorem alike_leadBy (x : SessionRef) (step : RoomStep) : Alike step (step.leadBy x) :=
  ⟨rfl, rfl, rfl, fun _ => rfl⟩

/-- Where every insertion puts `x` in front, `x` leads the members. -/
theorem leads_next {x : SessionRef} (h : room.members.Leads x)
    (hnext : roomNext this reconnectWindowMs room (step.leadBy x) = some room') :
    room'.members.Leads x := by
  cases hop : (step.leadBy x).op with
  | tickEnd =>
    rw [roomNext_tickEnd hop hnext]
    exact h
  | job job =>
    rw [roomNext_job hop hnext]
    cases @Job.does_run (step.leadBy x).env this room (step.leadBy x).world job with
    | enters s hjob hadmits hroom =>
      rw [hroom]
      exact IterSet.leads_insert h
    | leaves s hjob hmem hroom =>
      rw [hroom]
      exact IterSet.leads_erase h
    | rejoins s hjob hroom =>
      rw [hroom]
      exact IterSet.leads_insert h
    | readies accountId hjob hroom =>
      rw [hroom, GameRoom.members_readied]
      exact h
    | stays moves htakes hleaves hroom =>
      rw [hroom]
      exact h

/-- The two sides of a history that puts `x` in front wherever it can. -/
structure LedBy (x : SessionRef) (room room' : GameRoom) : Prop where
  same : SameButOrder room room'
  leads : room'.members.Leads x

theorem ledBy_next {x : SessionRef} (h : LedBy x room room') :
    Option.Rel (LedBy x) (roomNext this reconnectWindowMs room step)
      (roomNext this reconnectWindowMs room' (step.leadBy x)) := by
  rcases rel_cases (@sameButOrder_next this reconnectWindowMs _ _ _ _ h.same (alike_leadBy x step))
    with ⟨hleft, hright⟩ | ⟨after, after', hleft, hright, hsame⟩
  · rw [hleft, hright]
    exact .none
  · rw [hleft, hright]
    exact .some ⟨hsame, leads_next h.leads hright⟩

/-- There `x` wins every game it is left in. -/
theorem winner_ledBy {x s : SessionRef} (h : LedBy x room room') (hquits : QuitsGame room step s)
    (hleft : x ∈ room.members.erase s) :
    winner room' (step.leadBy x) = some (step.world.session x).accountId := by
  have hquits' := (quits_alike h.same (alike_leadBy x step)).mpr hquits
  unfold winner
  rw [winnerSession_of_quits hquits',
    IterSet.leads_erase h.leads ((h.same.members.erase s x).mp hleft)]
  rfl

/-- **The winners of a history do not depend on the order of `m_members`** exactly when every game
of it ends with one account left. -/
theorem winners_order_free_iff (this : RoomRef) (reconnectWindowMs : Int) (name : Bytes)
    (maxPlayers : Int) (steps : List RoomStep) :
    (∀ steps', List.Forall₂ Alike steps steps' →
      trace (roomNext this reconnectWindowMs) winner (.new name maxPlayers) steps =
        trace (roomNext this reconnectWindowMs) winner (.new name maxPlayers) steps') ↔
    Along (roomNext this reconnectWindowMs) OneAccountLeft (.new name maxPlayers) steps := by
  constructor
  · intro hfree
    -- in the history led by `x` the winner is `x`, wherever `x` is left
    have hled : ∀ x, Along (roomNext this reconnectWindowMs)
        (fun room step => ∀ s, QuitsGame room step s → x ∈ room.members.erase s →
          winner room step = some (step.world.session x).accountId)
        (.new name maxPlayers) steps := by
      intro x
      have hsteps : List.Forall₂ (fun step step' => step' = step.leadBy x) steps
          (steps.map (RoomStep.leadBy x)) :=
        List.forall₂_map_right_iff.mpr (List.forall₂_same.mpr fun _ _ => rfl)
      have halike : List.Forall₂ Alike steps (steps.map (RoomStep.leadBy x)) :=
        hsteps.imp fun step _ h => h ▸ alike_leadBy x step
      refine along_of_trace_eq (R := LedBy x) ?_ ?_ ⟨.refl _, IterSet.leads_empty⟩ hsteps
        (hfree _ halike)
      · rintro room room' step _ h rfl
        exact ledBy_next h
      · rintro room room' step _ h rfl hsame s hquits hleft
        rw [hsame, winner_ledBy h hquits hleft]
    refine along_of_family (fun room step h s hquits t ht u hu => ?_) hled
    exact Option.some.inj ((h t s hquits ht).symm.trans (h u s hquits hu))
  · intro hone steps' halike
    refine trace_eq_of_along (R := SameButOrder) ?_ ?_ (.refl _) halike hone
    · exact fun _ _ _ _ h halike => sameButOrder_next h halike
    · exact fun _ _ _ _ h halike hone => winner_alike h halike hone

/-- Three players are in a game when the first leaves it. -/
def threePlayers : List RoomStep :=
  [.job (.handleEnter 0), .job (.handleEnter 1), .job (.handleEnter 2), .job (.handleReady [97]),
    .job (.handleReady [98]), .job (.handleReady [99]), .job (.handleLeave 0)].map (quietStep 1000)

/-- The last one to enter is declared the winner, or the second if the iterators start with it. -/
theorem winners_order_seen : ∃ steps', List.Forall₂ Alike threePlayers steps' ∧
    (trace (roomNext 0 30000) winner (.new [65] 3) threePlayers).getLast? = some (some [99]) ∧
    (trace (roomNext 0 30000) winner (.new [65] 3) steps').getLast? = some (some [98]) := by
  refine ⟨threePlayers.map (RoomStep.leadBy 1), ?_, by decide, by decide⟩
  exact List.forall₂_map_right_iff.mpr (List.forall₂_same.mpr fun step _ => alike_leadBy 1 step)

end RealtimeServer
