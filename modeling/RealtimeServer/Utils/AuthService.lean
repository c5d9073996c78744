import RealtimeServer.Core.Server

/-!
# The answer of the session-server

Model of `ParseValidateResponse` and of what `AuthService::WorkerLoop` passes to the callback
(`Utils/AuthService.cpp`). The body is searched, not parsed.

* **`parseValidateResponse_sound`**: an accepted body says that the token is valid, and the account
  stands in it between the key and the next quote.
* `act_validate`: the callback of a pending validation is always an action of the server, so the
  guard `act` puts on it excludes no answer.
-/

namespace RealtimeServer

/-- `std::string::find`: the first position at which `needle` stands. -/
def find (needle : Bytes) : Bytes → Option Nat
  | [] => if needle = [] then some 0 else none
  | b :: body => if needle <+: b :: body then some 0 else (find needle body).map Nat.succ

/-- The text of a key and the quote its value opens with. -/
def accountKey : Bytes := utf8 "\"account_id\":\""

/-- What the session-server sends for a token that is valid. -/
def validMark : Bytes := utf8 "\"valid\":true"

/-- `'"'`. -/
def quote : Bytes := [34]

/-- `ParseValidateResponse`: its answer, and `outAccountId`. -/
def parseValidateResponse (body : Bytes) : Bool × Bytes :=
  if find validMark body = none then (false, [])
  else
    match find accountKey body with
    | none => (false, [])
    | some pos =>
      let value := body.drop (pos + accountKey.length)
      match find quote value with
      | none => (false, [])
      | some size =>
        let accountId := value.take size
        (!decide (accountId = []), accountId)

/-- `HttpClient::Response`. -/
structure HttpResponse where
  statusCode : Int
  body : Bytes

/-- `ok`. -/
def HttpResponse.ok (resp : HttpResponse) : Prop := 200 ≤ resp.statusCode ∧ resp.statusCode < 300

instance (resp : HttpResponse) : Decidable resp.ok := by
  unfold HttpResponse.ok; infer_instance

/-- What `WorkerLoop` calls the callback with. -/
def validate (resp : HttpResponse) : Bool × Bytes :=
  if resp.ok then parseValidateResponse resp.body else (false, [])

/-- What is found stands at the position. -/
theorem find_sound {needle body : Bytes} {pos : Nat} (h : find needle body = some pos) :
    ∃ before rest, before.length = pos ∧ body = before ++ (needle ++ rest) := by
  induction body generalizing pos with
  | nil =>
    unfold find at h
    split at h
    · rename_i hnone
      exact ⟨[], [], Option.some.inj h, by simp [hnone]⟩
    · exact absurd h (by simp)
  | cons b body ih =>
    unfold find at h
    split at h
    · rename_i hhere
      obtain ⟨rest, hrest⟩ := hhere
      exact ⟨[], rest, Option.some.inj h, hrest.symm⟩
    · obtain ⟨pos', hpos', rfl⟩ := Option.map_eq_some_iff.mp h
      obtain ⟨before, rest, rfl, hrest⟩ := ih hpos'
      exact ⟨b :: before, rest, rfl, by rw [hrest, List.cons_append]⟩

/-- Before the first quote there is none. -/
theorem find_quote_first {body : Bytes} {pos : Nat} (h : find quote body = some pos) :
    34 ∉ body.take pos := by
  induction body generalizing pos with
  | nil => simp
  | cons b body ih =>
    unfold find at h
    split at h
    · obtain rfl := Option.some.inj h
      simp
    · rename_i hhere
      obtain ⟨pos', hpos', rfl⟩ := Option.map_eq_some_iff.mp h
      have hb : b ≠ 34 := by
        rintro rfl
        exact hhere ⟨body, rfl⟩
      rw [List.take_succ_cons, List.mem_cons]
      rintro (hfirst | hmem)
      · exact hb hfirst.symm
      · exact ih hpos' hmem

/-- **An accepted answer** says so, and holds the account between its quotes. -/
theorem parseValidateResponse_sound {body accountId : Bytes}
    (h : parseValidateResponse body = (true, accountId)) :
    validMark <:+: body ∧ accountKey ++ accountId ++ quote <:+: body ∧ accountId ≠ [] ∧
      34 ∉ accountId := by
  unfold parseValidateResponse at h
  split at h
  · exact absurd h (by simp)
  · rename_i hvalid
    obtain ⟨mark, hmark⟩ := Option.ne_none_iff_exists'.mp hvalid
    obtain ⟨said, after, -, hsaid⟩ := find_sound hmark
    split at h
    · exact absurd h (by simp)
    · rename_i pos hpos
      obtain ⟨before, value, rfl, hvalue⟩ := find_sound hpos
      have hdrop : body.drop (before.length + accountKey.length) = value := by
        rw [hvalue, ← List.append_assoc, ← List.length_append, List.drop_left]
      simp only [hdrop] at h
      split at h
      · exact absurd h (by simp)
      · rename_i size hsize
        obtain ⟨account, rest, rfl, hrest⟩ := find_sound hsize
        have hfirst := find_quote_first hsize
        have htake : value.take account.length = account := by rw [hrest, List.take_left]
        rw [htake] at h hfirst
        obtain ⟨hfound, rfl⟩ := Prod.mk.inj h
        refine ⟨⟨said, after, ?_⟩, ⟨before, rest, ?_⟩, by simpa using hfound, hfirst⟩
        · rw [hsaid, List.append_assoc]
        · rw [hvalue, hrest]
          simp only [List.append_assoc]

/-- The session-server answers that the token is valid and the account's. -/
structure HttpResponse.Says (resp : HttpResponse) (accountId : Bytes) : Prop where
  ok : resp.ok
  valid : validMark <:+: resp.body
  account : accountKey ++ accountId ++ quote <:+: resp.body

theorem says_of_validate {resp : HttpResponse} {accountId : Bytes}
    (h : validate resp = (true, accountId)) : resp.Says accountId := by
  unfold validate at h
  split at h
  · rename_i hok
    obtain ⟨hvalid, haccount, -, -⟩ := parseValidateResponse_sound h
    exact ⟨hok, hvalid, haccount⟩
  · exact absurd h (by simp)

/-- The worker delivers an account exactly with a valid answer. -/
theorem validate_sound {resp : HttpResponse} (h : (validate resp).1 = true) :
    (validate resp).2 ≠ [] := by
  unfold validate at h ⊢
  split
  · rename_i hok
    rw [if_pos hok] at h
    exact (parseValidateResponse_sound (Prod.ext h rfl)).2.2.1
  · rename_i hok
    rw [if_neg hok] at h
    exact absurd h (by simp)

/-- Whatever the session-server answers, the callback of a pending validation can run. -/
theorem act_validate {cfg : Config} {env : Env} {srv : Server} {i : Nat} {s : SessionRef}
    {token : Bytes} (hpending : srv.auth[i]? = some (s, token)) (resp : HttpResponse) :
    act cfg env srv (.authCallback i (validate resp).1 (validate resp).2) =
      some ({ srv with auth := srv.auth.eraseIdx i }.loginCallback env s (validate resp).1
        (validate resp).2) := by
  unfold act
  simp only [hpending]
  rw [if_neg]
  rintro ⟨hvalid, hnone⟩
  exact validate_sound hvalid hnone

/-- An answer of the session-server. -/
example : parseValidateResponse (utf8 "\x7b\"valid\":true,\"account_id\":\"alice\"\x7d") =
    (true, utf8 "alice") := by decide

end RealtimeServer
