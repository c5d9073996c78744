import RealtimeServer.Core.Outbound

/-!
# Members hear the same

All a room sends to its members it sends to all of them, from one thread, one job behind the other.
So whatever the rooms do, two sessions that are members of the same rooms hear the same bytes in the
same order, as long as nothing is addressed to one of them alone.

* `Hears s packets w w'`: from `w` to `w'` the session `s` is sent `packets`, or, if it goes down on
  the way, a beginning of them.
* `RoomCalls.heard`: what a room calls, either of two members hears, or neither of two strangers.
* **`members_agree`**: over any run. Who goes down has heard a beginning of what the other hears.
-/

namespace RealtimeServer

open Unordered Guarded

/-! ## What one session hears -/

/-- The session is sent the packets, or, where it goes down, a beginning of them. -/
structure Hears (s : SessionRef) (packets : List Bytes) (w w' : World) : Prop where
  sent : ∃ heard, w'.sentTo s = w.sentTo s ++ heard ∧ heard <+: packets ∧
    ((w'.session s).disconnected = false → heard = packets) ∧
    ((w.session s).disconnected = true → heard = [])
  down : (w.session s).disconnected = true → (w'.session s).disconnected = true

namespace Hears

variable {env : Env} {w w' w'' : World} {s t : SessionRef} {packets packets' : List Bytes}

/-- Nothing is sent to the session. -/
theorem none (hsent : w'.sentTo s = w.sentTo s)
    (hdown : (w.session s).disconnected = true → (w'.session s).disconnected = true) :
    Hears s [] w w' :=
  ⟨⟨[], by rw [hsent, List.append_nil], List.prefix_rfl, fun _ => rfl, fun _ => rfl⟩, hdown⟩

theorem refl (s : SessionRef) (w : World) : Hears s [] w w := none rfl id

theorem trans (h : Hears s packets w w') (h' : Hears s packets' w' w'') :
    Hears s (packets ++ packets') w w'' := by
  obtain ⟨⟨heard, hsent, hpre, hall, hnone⟩, hdown⟩ := h
  obtain ⟨⟨heard', hsent', hpre', hall', hnone'⟩, hdown'⟩ := h'
  refine ⟨⟨heard ++ heard', by rw [hsent', hsent, List.append_assoc], ?_, fun hup => ?_,
    fun hdisconnected => ?_⟩, fun hd => hdown' (hdown hd)⟩
  · cases hmid : (w'.session s).disconnected with
    | false =>
      rw [hall hmid]
      exact (List.prefix_append_right_inj packets).mpr hpre'
    | true =>
      -- the session went down in the first part, and hears nothing of the second
      rw [hnone' hmid, List.append_nil]
      exact hpre.trans (List.prefix_append _ _)
  · have hmid : (w'.session s).disconnected = false := by
      by_contra hdisconnected
      rw [Bool.not_eq_false] at hdisconnected
      exact absurd (hdown' hdisconnected) (by simp [hup])
    rw [hall hmid, hall' hup]
  · rw [hnone hdisconnected, hnone' (hdown hdisconnected), List.append_nil]

theorem then_none (h : Hears s packets w w') (h' : Hears s [] w' w'') : Hears s packets w w'' := by
  have hboth := h.trans h'
  rwa [List.append_nil] at hboth

theorem none_then (h : Hears s [] w w') (h' : Hears s packets w' w'') : Hears s packets w w'' :=
  h.trans h'

/-- The session is down already. -/
theorem of_down (h : (w.session s).disconnected = true) : Hears s packets w w :=
  ⟨⟨[], by rw [List.append_nil], List.nil_prefix, fun hup => absurd h (by simp [hup]),
    fun _ => rfl⟩, id⟩

theorem of_down_or (h : (w.session t).disconnected = true) :
    Hears s (if t = s then packets else []) w w := by
  by_cases hts : t = s
  · exact of_down (hts ▸ h)
  · rw [if_neg hts]
    exact refl s w

theorem sendShared (env : Env) (t : SessionRef) (packet : Bytes) (w : World) :
    Hears s (if t = s then [packet] else []) w (w.sendShared env t packet) := by
  unfold World.sendShared
  by_cases hdown : (w.session t).disconnected = true
  · rw [if_pos hdown]
    exact of_down_or hdown
  · have hcounted : ((w.countSent packet).session t).disconnected ≠ true := hdown
    rw [if_neg hdown]
    unfold World.countAndPost World.postSend
    rw [if_neg hcounted]
    by_cases hfails : env.wsaSendFails t (w.countSent packet).sent.length = true
    · rw [if_pos hfails]
      by_cases hts : t = s
      · subst hts
        have hafter : (((w.countSent packet).disconnect t).session t).disconnected = true := by
          rw [World.session_disconnect_self]
        exact ⟨⟨[], (List.append_nil _).symm, List.nil_prefix,
          fun hup => absurd (hup.symm.trans hafter) Bool.false_ne_true, fun _ => rfl⟩,
          fun _ => hafter⟩
      · rw [if_neg hts]
        refine none rfl fun hd => ?_
        rw [World.session_disconnect_ne (Ne.symm hts)]
        exact hd
    · rw [if_neg hfails]
      have hsent : World.sentTo { w.countSent packet with
            sent := (w.countSent packet).sent ++ [(t, packet)] } s =
          w.sentTo s ++ if t = s then [packet] else [] := by
        unfold World.sentTo World.countSent
        rw [List.filter_append, List.map_append]
        by_cases hts : t = s <;> simp [hts]
      refine ⟨⟨if t = s then [packet] else [], hsent, List.prefix_rfl, fun _ => rfl, fun hd => ?_⟩,
        fun hd => hd⟩
      rw [if_neg]
      rintro rfl
      exact hdown hd

/-- The bytes of a packet, if it passes the size test. -/
def checked (id : PacketID) (payload : Bytes) : List Bytes :=
  if headerSize + payload.length ≤ maxBufSize then [frame id.toUInt16 payload] else []

theorem sendRaw (env : Env) (t : SessionRef) (id : PacketID) (data : Bytes) (w : World) :
    Hears s (if t = s then checked id data else []) w (w.sendRaw env t id data) := by
  unfold checked
  by_cases hfits : headerSize + data.length ≤ maxBufSize
  · have hsame : w.sendRaw env t id data = w.sendShared env t (frame id.toUInt16 data) := by
      unfold World.sendRaw World.sendShared
      rw [if_neg (not_lt.mpr hfits)]
    rw [hsame, if_pos hfits]
    exact sendShared env t _ w
  · have hsame : w.sendRaw env t id data = w := by
      unfold World.sendRaw
      rw [if_pos (not_le.mp hfits), ite_self]
    rw [hsame, if_neg hfits, ite_self]
    exact refl s w

theorem send (env : Env) (t : SessionRef) (message : ServerMessage) (w : World) :
    Hears s (if t = s then checked message.packetId message.serialize else []) w
      (w.send env t message) :=
  sendRaw env t message.packetId message.serialize w

/-- A loop over different sessions. -/
theorem foldl {f : World → SessionRef → World}
    (hf : ∀ w t, Hears s (if t = s then packets else []) w (f w t)) {l : List SessionRef}
    (hl : l.Nodup) (w : World) : Hears s (if s ∈ l then packets else []) w (l.foldl f w) := by
  induction l generalizing w with
  | nil => exact refl s w
  | cons t l ih =>
    obtain ⟨hnot, hl⟩ := List.nodup_cons.mp hl
    have hrest := ih hl (f w t)
    have hfirst := hf w t
    by_cases hts : t = s
    · subst hts
      rw [if_neg hnot] at hrest
      rw [if_pos rfl] at hfirst
      rw [if_pos List.mem_cons_self]
      exact hfirst.then_none hrest
    · rw [if_neg hts] at hfirst
      rw [if_congr (by rw [List.mem_cons, or_iff_right (Ne.symm hts)]) rfl rfl]
      exact hfirst.none_then hrest

end Hears

/-! ## What two sessions hear -/

/-- The two sessions hear the same. -/
def HearAlike (s t : SessionRef) (w w' : World) : Prop :=
  ∃ packets, Hears s packets w w' ∧ Hears t packets w w'

section

variable {T : Bytes → Prop} {K : PacketID → Prop} {env : Env} {own : Option SessionRef}
  {members : IterSet SessionRef} {w w' w'' : World} {s t : SessionRef}

theorem HearAlike.trans (h : HearAlike s t w w') (h' : HearAlike s t w' w'') :
    HearAlike s t w w'' := by
  obtain ⟨packets, hs, ht⟩ := h
  obtain ⟨packets', hs', ht'⟩ := h'
  exact ⟨packets ++ packets', hs.trans hs', ht.trans ht'⟩

/-- What goes to all members, both hear or neither. -/
theorem HearAlike.of_members {packets : List Bytes} (halike : s ∈ members ↔ t ∈ members)
    (h : ∀ u, Hears u (if u ∈ members then packets else []) w w') : HearAlike s t w w' := by
  refine ⟨if s ∈ members then packets else [], h s, ?_⟩
  rw [if_congr halike rfl rfl]
  exact h t

/-- **A room** lets two members hear the same, unless its job is about one of them. -/
theorem RoomCalls.heard (h : RoomCalls T K env own members w w')
    (halike : s ∈ members ↔ t ∈ members) (hs : own ≠ some s) (ht : own ≠ some t) :
    HearAlike s t w w' := by
  induction h with
  | refl w => exact ⟨[], .refl s w, .refl t w⟩
  | trans h h' ih ih' => exact ih.trans ih'
  | @setRoom w u room mine =>
    have hkept : ∀ v, Hears v [] w (w.setRoom u room) := fun v =>
      .none rfl fun hd => by rwa [World.disconnected_setRoom]
    exact ⟨[], hkept s, hkept t⟩
  | @send w u message mine kind texts =>
    have hother : ∀ v, own ≠ some v → Hears v [] w (w.send env u message) := by
      intro v hv
      have hsend : Hears v _ w (w.send env u message) := Hears.send env u message w
      rwa [if_neg fun huv : u = v => hv (huv ▸ mine)] at hsend
    exact ⟨[], hother s hs, hother t ht⟩
  | broadcast w same kind texts =>
    subst same
    exact .of_members halike fun u =>
      Hears.foldl (fun w v => Hears.send env v _ w) (IterSet.nodup _) w
  | @broadcastExcept w room message u same mine kind texts =>
    subst same
    -- the one left out is neither of the two
    have hall : ∀ v, own ≠ some v → Hears v (if v ∈ room.members then
        Hears.checked message.packetId message.serialize else []) w
        (room.broadcastExcept env message u w) := by
      intro v hv
      refine Hears.foldl (fun w x => ?_) room.members.nodup w
      by_cases hx : x ≠ u
      · rw [if_pos hx]
        exact Hears.send env x message w
      · rw [if_neg hx, if_neg fun hxv => hv (by rw [mine, ← not_not.mp hx, hxv])]
        exact Hears.refl v w
    refine ⟨_, hall s hs, ?_⟩
    rw [if_congr halike rfl rfl]
    exact hall t ht
  | @broadcastShared w room actors same kind texts =>
    subst same
    unfold GameRoom.broadcastShared
    split
    · exact ⟨[], .refl s w, .refl t w⟩
    · exact .of_members halike fun u =>
        Hears.foldl (fun w v => Hears.sendShared env v _ w) room.members.nodup w
  | sendRawBroadcast w same kind raw =>
    subst same
    exact .of_members halike fun u =>
      Hears.foldl (fun w v => Hears.sendRaw env v _ _ w) (IterSet.nodup _) w

end

/-! ## Runs -/

section

variable {cfg : Config} {srv srv' : Server} {s t : SessionRef} {a : Action} {env : Env}

/-- In the step nothing is addressed to one of the two alone: it is no packet and no login of
either, no job about either, and a job or a tick of a room finds both among the members or
neither. -/
def TreatedAlike (cfg : Config) (s t : SessionRef) (srv : Server) (step : Action × Env) : Prop :=
  match step.1 with
  | .packet u _ => u ≠ s ∧ u ≠ t
  | .authCallback i _ _ => ∀ e ∈ srv.auth[i]?, e.1 ≠ s ∧ e.1 ≠ t
  | .job r => (∀ job ∈ srv.running (.job r) r, job.session ≠ some s ∧ job.session ≠ some t) ∧
      ∀ srv', next cfg srv step = some srv' →
        (s ∈ (srv'.room r).members ↔ t ∈ (srv'.room r).members)
  | .tickEnd r => s ∈ (srv.room r).members ↔ t ∈ (srv.room r).members
  | .accept _ | .disconnect _ | .removeIdleRooms => True

instance (cfg : Config) (s t : SessionRef) (srv : Server) :
    ∀ step, Decidable (TreatedAlike cfg s t srv step)
  | (.packet u _, _) => inferInstanceAs (Decidable (u ≠ s ∧ u ≠ t))
  | (.authCallback i _ _, _) =>
    inferInstanceAs (Decidable (∀ e ∈ srv.auth[i]?, e.1 ≠ s ∧ e.1 ≠ t))
  | (.job r, env) => inferInstanceAs (Decidable
      ((∀ job ∈ srv.running (.job r) r, job.session ≠ some s ∧ job.session ≠ some t) ∧
        ∀ srv', next cfg srv (.job r, env) = some srv' →
          (s ∈ (srv'.room r).members ↔ t ∈ (srv'.room r).members)))
  | (.tickEnd r, _) =>
    inferInstanceAs (Decidable (s ∈ (srv.room r).members ↔ t ∈ (srv.room r).members))
  | (.accept _, _) | (.disconnect _, _) | (.removeIdleRooms, _) => isTrue trivial

/-- A step outside the rooms, for neither of the two. -/
theorem hears_none (hs : s < srv.nextSession) (h : next cfg srv (a, env) = some srv')
    (hout : ¬ srv.Audience srv' a s) : Hears s [] srv.world srv'.world :=
  .none (sentTo_next h (Or.inr hout)) (sessions_next h hs).down

theorem alike_next (hs : s < srv.nextSession) (ht : t < srv.nextSession)
    (halike : TreatedAlike cfg s t srv (a, env)) (h : next cfg srv (a, env) = some srv') :
    HearAlike s t srv.world srv'.world := by
  have hquiet : ¬ srv.Audience srv' a s → ¬ srv.Audience srv' a t →
      HearAlike s t srv.world srv'.world :=
    fun hs' ht' => ⟨[], hears_none hs h hs', hears_none ht h ht'⟩
  cases a with
  | accept token => exact hquiet id id
  | disconnect u => exact hquiet id id
  | removeIdleRooms => exact hquiet id id
  | packet u packet => exact hquiet (fun hsu => halike.1 hsu.symm) fun htu => halike.2 htu.symm
  | authCallback i valid accountId =>
    refine hquiet ?_ ?_
    · rintro ⟨token, hpending⟩
      exact (halike _ hpending).1 rfl
    · rintro ⟨token, hpending⟩
      exact (halike _ hpending).2 rfl
  | job r =>
    obtain ⟨hown, hmembers⟩ := halike
    have hboth := hmembers srv' h
    obtain ⟨srv₁, hacts, rfl⟩ := next_acts h
    cases hacts with
    | @job r job jobs queue =>
      obtain ⟨hs', ht'⟩ := hown job (running_job queue)
      have hcalls : RoomCalls _ job.Sends env job.session _ srv.world _ :=
        calls_runJob queue (GameRoom.worded_any _ _) fun _ _ => trivial
      exact hcalls.heard hboth hs' ht'
  | tickEnd r =>
    obtain ⟨srv₁, hacts, rfl⟩ := next_acts h
    cases hacts with
    | tickEnd =>
      have hcalls : RoomCalls (fun _ => True) PacketID.Notice env none (srv.room r).members
          srv.world ((srv.room r).tickEnd env cfg.reconnectWindowMs srv.world).2 :=
        calls_tickEnd (fun _ _ => trivial) cfg.reconnectWindowMs
      exact hcalls.heard halike (by simp) (by simp)

/-- **Two members agree**: in a run in which nothing is addressed to one of them alone, they are
sent the same bytes in the same order; one that goes down is sent a beginning of them. -/
theorem members_agree (hs : s < srv.nextSession) (ht : t < srv.nextSession)
    {steps : List (Action × Env)} (halike : Along (next cfg) (TreatedAlike cfg s t) srv steps)
    (hrun : run (next cfg) srv steps = some srv') :
    ∃ packets heard heard',
      srv'.world.sentTo s = srv.world.sentTo s ++ heard ∧
      srv'.world.sentTo t = srv.world.sentTo t ++ heard' ∧
      heard <+: packets ∧ heard' <+: packets ∧
      (¬ srv'.Down s → heard = packets) ∧ (¬ srv'.Down t → heard' = packets) := by
  have hall : srv.nextSession ≤ srv'.nextSession ∧ HearAlike s t srv.world srv'.world := by
    refine run_invariant (I := fun mid => srv.nextSession ≤ mid.nextSession ∧
      HearAlike s t srv.world mid.world) ?_ ⟨le_refl _, [], .refl s _, .refl t _⟩ halike hrun
    rintro mid ⟨a, env⟩ mid' ⟨hle, hheard⟩ halike hnext
    exact ⟨hle.trans (nextSession_next hnext), hheard.trans
      (alike_next (lt_of_lt_of_le hs hle) (lt_of_lt_of_le ht hle) halike hnext)⟩
  obtain ⟨-, packets, ⟨⟨heard, hsent, hpre, hup, -⟩, -⟩, ⟨heard', hsent', hpre', hup', -⟩, -⟩ :=
    hall
  exact ⟨packets, heard, heard', hsent, hsent', hpre, hpre',
    fun hconnected => hup (Bool.eq_false_iff.mpr hconnected),
    fun hconnected => hup' (Bool.eq_false_iff.mpr hconnected)⟩

/-- A third player speaks and drops out; the send of the second notice to the first player fails. -/
def thirdSpeaks : List (Action × Env) :=
  quietly [.packet 2 (.chat (some [104])), .job 0, .disconnect 2] ++
    [(.job 0, { Env.quiet 1000 with sendFailsFrom := fun u => if u = 0 then some 0 else none })]

theorem members_agree_third :
    ∃ srv srv', run (next ⟨16, 30000, 60000⟩) .empty (quietly (lobby 3)) = some srv ∧
      run (next ⟨16, 30000, 60000⟩) srv thirdSpeaks = some srv' ∧ srv'.Down 0 ∧ ¬ srv'.Down 1 ∧
      ∃ packets heard heard', srv'.world.sentTo 0 = srv.world.sentTo 0 ++ heard ∧
        srv'.world.sentTo 1 = srv.world.sentTo 1 ++ heard' ∧ heard <+: packets ∧
        heard' <+: packets ∧ (¬ srv'.Down 0 → heard = packets) ∧
        (¬ srv'.Down 1 → heard' = packets) := by
  obtain ⟨srv, hbefore, hs, ht, halike, srv', hrun, hdown, hup⟩ :
      ∃ srv, run (next ⟨16, 30000, 60000⟩) .empty (quietly (lobby 3)) = some srv ∧
        0 < srv.nextSession ∧ 1 < srv.nextSession ∧
        Along (next ⟨16, 30000, 60000⟩) (TreatedAlike ⟨16, 30000, 60000⟩ 0 1) srv thirdSpeaks ∧
        ∃ srv', run (next ⟨16, 30000, 60000⟩) srv thirdSpeaks = some srv' ∧
          srv'.Down 0 ∧ ¬ srv'.Down 1 := by
    decide +kernel
  exact ⟨srv, srv', hbefore, hrun, hdown, hup, members_agree hs ht halike hrun⟩

end

end RealtimeServer
