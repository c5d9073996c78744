import RealtimeServer.Lib.CompactJson
import RealtimeServer.Utils.AuthService

/-!
# Which account an answer names

`ParseValidateResponse` looks for texts, and the answer of the session-server is a JSON object, in
which a string is escaped. What the one makes of the other:

* `parse_object`: of a flat object in its compact text the first member is taken whose key is
  `account_id`, or ends in it behind a quote of its own, and of its value what stands before the
  first quote of the escaped text (`cut`).
* **`validate_object_iff`**: which accounts are given back, and which objects that are not valid are
  taken for valid ones.
-/

namespace RealtimeServer

open Json

/-- `valid`. -/
def validName : Bytes := utf8 "valid"

/-- `account_id`. -/
def accountName : Bytes := utf8 "account_id"

def validMarker : Marker where
  name := validName
  opening := .yes
  plain := plain_of_all (by decide)
  head := by rintro b ⟨⟩; decide
  nonempty := by decide

def accountMarker : Marker where
  name := accountName
  opening := .string
  plain := plain_of_all (by decide)
  head := by rintro b ⟨⟩; decide
  nonempty := by decide

/-- `{"valid":true,"account_id":..}` -/
def validAnswer (accountId : Bytes) : List (Bytes × Value) :=
  [(validName, .bool true), (accountName, .string accountId)]

/-- What is taken of a string value. -/
def cut (s : Bytes) : Bytes := (escape s).takeWhile (· != 34)

variable {s rest needle body : Bytes} {members : List (Bytes × Value)}

/-! ## Searching -/

theorem text_validMarker : validMarker.text = validMark := by decide

theorem text_accountMarker : accountMarker.text = accountKey := by decide

theorem after_eq_find : after needle body =
    (find needle body).map fun pos => body.drop (pos + needle.length) := by
  induction body with
  | nil =>
    unfold after find
    split
    · rename_i hnone
      subst hnone
      rfl
    · rfl
  | cons b body ih =>
    unfold after find
    split
    · rw [Option.map_some, Nat.zero_add]
    · rw [ih, Option.map_map]
      congr 1
      funext pos
      show body.drop (pos + needle.length) = (b :: body).drop (pos + 1 + needle.length)
      rw [show pos + 1 + needle.length = pos + needle.length + 1 by omega, List.drop_succ_cons]

/-- The first quote is found, and ends what is taken. -/
theorem find_quote : ∃ size, find quote (s ++ 34 :: rest) = some size ∧
    (s ++ 34 :: rest).take size = s.takeWhile (· != 34) := by
  induction s with
  | nil => exact ⟨0, if_pos ⟨rest, rfl⟩, rfl⟩
  | cons b s ih =>
    by_cases hb : b = 34
    · subst hb
      exact ⟨0, if_pos ⟨s ++ 34 :: rest, rfl⟩, rfl⟩
    · obtain ⟨size, hsize, htake⟩ := ih
      have hnot : ¬ quote <+: b :: (s ++ 34 :: rest) := fun hpre =>
        hb (List.cons_prefix_cons.mp hpre).1.symm
      refine ⟨size + 1, ?_, ?_⟩
      · show find quote (b :: (s ++ 34 :: rest)) = some (size + 1)
        unfold find
        rw [if_neg hnot, hsize]
        rfl
      · rw [List.cons_append, List.take_succ_cons, htake,
          List.takeWhile_cons_of_pos (by simpa using hb)]

/-! ## What is taken of a value -/

theorem cut_eq_nil : cut s = [] ↔ s = [] := by
  cases s with
  | nil => exact ⟨fun _ => rfl, fun _ => rfl⟩
  | cons b s =>
    refine ⟨fun h => ?_, fun h => absurd h (by simp)⟩
    unfold cut at h
    rw [escape_cons] at h
    cases escaped b with
    | itself hplain htext => simp [htext, hplain.1] at h
    | quote _ htext => simp [htext] at h
    | other _ _ tail _ _ htext => simp [htext] at h

/-- **What is taken is the account** only if nothing of it is escaped. -/
theorem cut_eq_self : cut s = s ↔ ∀ b ∈ s, Plain b := by
  have hwhole (h : 34 ∉ s) : cut s = escape s := by
    refine List.takeWhile_eq_self_iff.mpr fun b hb => ?_
    have hne : b ≠ 34 := by
      rintro rfl
      exact h (quote_mem_escape.mp hb)
    simpa using hne
  constructor
  · intro h
    have hunquoted : 34 ∉ s := by
      rw [← h]
      exact fun hquote => absurd (List.mem_takeWhile_imp hquote) (by decide)
    exact escape_eq_self.mp ((hwhole hunquoted).symm.trans h)
  · intro h
    rw [hwhole fun hquote => (h 34 hquote).1 rfl, escape_plain h]

/-! ## What is made of an object -/

theorem not_found_iff (m : Marker) :
    find m.text (objectText members) = none ↔ members.find? m.hits = none := by
  have hafter := after_object m members
  rw [after_eq_find] at hafter
  cases hhit : members.find? m.hits with
  | none =>
    rw [hhit] at hafter
    simpa using hafter
  | some member =>
    rw [hhit] at hafter
    obtain ⟨rest, hrest⟩ := hafter
    obtain ⟨pos, hpos, -⟩ := Option.map_eq_some_iff.mp hrest
    simp [hpos]

/-- **Of an object** with a member that reads as valid, the first account is taken. -/
theorem parse_object : parseValidateResponse (objectText members) =
    if members.find? validMarker.hits = none then (false, [])
    else
      match members.find? accountMarker.hits with
      | some (_, .string accountId) => (!decide (accountId = []), cut accountId)
      | _ => (false, []) := by
  unfold parseValidateResponse
  rw [← text_validMarker, ← text_accountMarker]
  by_cases hvalid : members.find? validMarker.hits = none
  · rw [if_pos ((not_found_iff validMarker).mpr hvalid), if_pos hvalid]
  · rw [if_neg fun h => hvalid ((not_found_iff validMarker).mp h), if_neg hvalid]
    have hafter := after_object accountMarker members
    rw [after_eq_find] at hafter
    cases hhit : members.find? accountMarker.hits with
    | none => rw [(not_found_iff accountMarker).mpr hhit]
    | some member =>
      rw [hhit] at hafter
      obtain ⟨rest, hrest⟩ := hafter
      obtain ⟨pos, hpos, hdrop⟩ := Option.map_eq_some_iff.mp hrest
      obtain ⟨key, v⟩ := member
      obtain ⟨accountId, rfl⟩ :=
        Value.opening_eq_string.mp (hits_iff.mp (List.find?_some hhit)).2
      obtain ⟨size, hsize, htake⟩ := @find_quote (escape accountId) rest
      have hvalue : (objectText members).drop (pos + accountMarker.text.length) =
          escape accountId ++ 34 :: rest := hdrop
      simp only [hpos, hvalue, hsize, htake]
      show (!decide (cut accountId = []), cut accountId) = _
      simp only [cut_eq_nil]

/-- An object reads as valid by a member that is `true` under a key that ends in `valid` behind a
quote of its own, and names an account. -/
def Forged (members : List (Bytes × Value)) : Prop :=
  (∃ key, (key, .bool true) ∈ members ∧ 34 :: validName <:+ key) ∧
    ∃ key accountId, members.find? accountMarker.hits = some (key, .string accountId) ∧
      accountId ≠ []

/-- The account of a valid answer is given back if nothing of it is escaped. -/
theorem parse_validAnswer {accountId : Bytes} (hsome : accountId ≠ []) :
    parseValidateResponse (objectText (validAnswer accountId)) = (true, accountId) ↔
      ∀ b ∈ accountId, Plain b := by
  have hvalid : (validAnswer accountId).find? validMarker.hits ≠ none := by
    rw [ne_eq, List.find?_eq_none]
    exact fun h => h (validName, .bool true) List.mem_cons_self (by decide)
  have haccount : (validAnswer accountId).find? accountMarker.hits =
      some (accountName, .string accountId) := by
    have hfirst : accountMarker.hits (validName, .bool true) = false := by decide
    have hsecond : accountMarker.hits (accountName, .string accountId) = true :=
      decide_eq_true ⟨Or.inl rfl, rfl⟩
    unfold validAnswer
    rw [List.find?_cons, hfirst, List.find?_cons, hsecond]
  rw [parse_object, if_neg hvalid, haccount, ← cut_eq_self]
  simp [hsome]

/-- Where `valid` is `false`, another key has to end like it for the mark to be found. -/
theorem valid_found_iff (hfalse : ∀ v, (validName, v) ∈ members → v = .bool false) :
    members.find? validMarker.hits ≠ none ↔
      ∃ key, (key, .bool true) ∈ members ∧ 34 :: validName <:+ key := by
  rw [ne_eq, List.find?_eq_none]
  constructor
  · intro h
    obtain ⟨⟨key, v⟩, h⟩ := not_forall.mp h
    obtain ⟨hmem, hhit⟩ := Classical.not_imp.mp h
    obtain ⟨hends, hopening⟩ := hits_iff.mp (not_not.mp hhit)
    obtain rfl := Value.opening_eq_yes.mp hopening
    rcases hends with hname | hends
    · have hname' : key = validName := hname
      rw [hname'] at hmem
      exact absurd (hfalse _ hmem) (by simp)
    · exact ⟨key, hmem, hends⟩
  · rintro ⟨key, hmem, hends⟩ h
    exact h (key, .bool true) hmem (hits_iff.mpr ⟨Or.inr hends, rfl⟩)

/-- **What the parser makes of an answer**: of a token that is valid it gives the account back
exactly if nothing of it is escaped; and an object whose `valid` is `false` is refused exactly if it
is not `Forged`. -/
theorem validate_object_iff (accountId : Bytes) (members : List (Bytes × Value)) :
    (accountId ≠ [] → (parseValidateResponse (objectText (validAnswer accountId)) =
      (true, accountId) ↔ ∀ b ∈ accountId, Plain b)) ∧
    ((∀ v, (validName, v) ∈ members → v = .bool false) →
      ((parseValidateResponse (objectText members)).1 = false ↔ ¬ Forged members)) := by
  refine ⟨parse_validAnswer, fun hfalse => ?_⟩
  rw [parse_object]
  unfold Forged
  rw [← valid_found_iff hfalse]
  by_cases hvalid : members.find? validMarker.hits = none
  · simp [hvalid]
  · rw [if_neg hvalid]
    split
    · rename_i key accountId hhit
      simp [hhit, hvalid]
    · rename_i hnone
      refine ⟨fun _ => ?_, fun _ => rfl⟩
      rintro ⟨-, key, accountId, hhit, -⟩
      exact hnone key accountId hhit

/-- `alice` is given back, and an answer that is not valid is refused with a string in it that looks
valid. -/
theorem validate_object_alice :
    parseValidateResponse (objectText (validAnswer (utf8 "alice"))) = (true, utf8 "alice") ∧
      (parseValidateResponse (objectText [(validName, .bool false),
        (utf8 "note", .string (utf8 "\"valid\":true")),
        (accountName, .string (utf8 "alice"))])).1 = false := by
  refine ⟨((validate_object_iff _ []).1 (by decide)).mpr (plain_of_all (by decide)),
    ((validate_object_iff [] _).2 fun v hv => ?_).mpr ?_⟩
  · have hnote : validName ≠ utf8 "note" := by decide
    have haccount : validName ≠ accountName := by decide
    simpa [hnote, haccount] using hv
  · rintro ⟨⟨key, hmem, -⟩, -⟩
    simp at hmem

/-- **Two accounts with a quote in them** are taken for one; and an object that is not valid is
taken for valid by another of its keys. -/
theorem validate_object_confused :
    parseValidateResponse (objectText (validAnswer (utf8 "x\"1"))) = (true, utf8 "x\\") ∧
      parseValidateResponse (objectText (validAnswer (utf8 "x\"2"))) = (true, utf8 "x\\") ∧
      parseValidateResponse (objectText [(validName, .bool false),
        (utf8 "x\"valid", .bool true), (accountName, .string (utf8 "alice"))]) =
          (true, utf8 "alice") := by
  decide +kernel

end RealtimeServer
