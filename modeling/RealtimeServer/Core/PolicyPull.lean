import RealtimeServer.Core.TrafficPolicy
import RealtimeServer.Lib.Decimal
import RealtimeServer.Lib.Int32
import RealtimeServer.Utils.AuthService

/-!
# What a pull of the policy reads

Model of `TryParseJsonIntByKey` and `IsJsonNullByKey` and of what `RefreshTrafficPolicy` makes of a
response (`Core/ServerCore.cpp`). The digits are added up in an `int` with no test of its range. An
`int` that overflows holds what two's complement leaves of the number, and `overflowed` notes it.

* `digits_spec`: the digit loop gives the number exactly, and overflows exactly if that is `2 ^ 31`
  or more.
* `parse_literal`, `refresh_spec`: what is read of a literal, and what a pull stores.
* **`literal_read_iff`**: the literals for which both are right are those between `-2 ^ 31` and
  `2 ^ 31`, both excluded.
-/

namespace RealtimeServer

open Signed Decimal

/-! ## Reading a number -/

/-- `"\"" + key + "\":"`. -/
def keyMarker (key : Bytes) : Bytes := 34 :: (key ++ [34, 58])

/-- `'-'`. -/
def minus : UInt8 := 45

/-- The text behind the key, without the white space before it. -/
def valueAt (json key : Bytes) : Option Bytes :=
  (find (keyMarker key) json).map fun pos =>
    (json.drop (pos + (keyMarker key).length)).dropWhile isSpace

/-- An `int` that is computed, and whether one of the operations has overflowed. -/
structure IntSum where
  value : Int
  overflowed : Bool
  deriving DecidableEq

/-- `value = value * 10 + (json[pos] - '0')`. -/
def IntSum.add (sum : IntSum) (b : UInt8) : IntSum :=
  let tens := sum.value * 10
  let next := int32 tens + digit b
  ⟨int32 next, sum.overflowed || !decide (Fits tens) || !decide (Fits next)⟩

/-- `-value`. -/
def IntSum.neg (sum : IntSum) : IntSum :=
  ⟨int32 (-sum.value), sum.overflowed || !decide (Fits (-sum.value))⟩

/-- The digit loop. -/
def sumDigits (digits : Bytes) : IntSum := digits.foldl IntSum.add ⟨0, false⟩

/-- `TryParseJsonIntByKey`; `none` where it returns `false`. -/
def tryParseJsonIntByKey (json key : Bytes) : Option IntSum :=
  match valueAt json key with
  | none => none
  | some text =>
    if text = [] ∨ text.take 4 = utf8 "null" then none
    else
      let neg := text.head? = some minus
      let digits := (if neg then text.tail else text).takeWhile isDigit
      if digits = [] then none
      else if neg then some (sumDigits digits).neg
      else some (sumDigits digits)

/-- `IsJsonNullByKey`. -/
def isJsonNullByKey (json key : Bytes) : Bool :=
  match valueAt json key with
  | none => false
  | some text => decide (text ≠ [] ∧ text.take 4 = utf8 "null")

/-! ## Storing it -/

/-- `"maxConnectionsPerMinuteTotal"`. -/
def connectionsKey : Bytes := utf8 "maxConnectionsPerMinuteTotal"

/-- How `RefreshTrafficPolicy` takes a response. -/
def policyResponse (resp : HttpResponse) : PolicyResponse :=
  if ¬ resp.ok then .failed
  else
    match tryParseJsonIntByKey resp.body connectionsKey with
    | some maxConnPerMinuteTotal =>
      if maxConnPerMinuteTotal.value > 0 then .limit maxConnPerMinuteTotal.value
      else if isJsonNullByKey resp.body connectionsKey then .null
      else .absent
    | none => if isJsonNullByKey resp.body connectionsKey then .null else .absent

/-- `RefreshTrafficPolicy` behind its request, with no other thread in between. -/
def Policy.refresh (nowMs : Int) (resp : HttpResponse) (st : Policy) : Option Policy := do
  let st ← st.respond (policyResponse resp)
  if st.pulling = .idle then pure st
  else do
    let st ← st.pull nowMs
    let st ← st.pull nowMs
    let st ← st.pull nowMs
    st.pull nowMs

/-! ## The digits -/

section

variable {json key digits : Bytes} {l : Literal} {sum : IntSum}

theorem add_spec {n : ℕ} {b : UInt8} (hb : isDigit b = true) (hvalue : sum.value = n)
    (hsmall : n < 2 ^ 31) (hfine : sum.overflowed = false) :
    ((sum.add b).overflowed = true ↔ 2 ^ 31 ≤ n * 10 + digit b) ∧
      (n * 10 + digit b < 2 ^ 31 → (sum.add b).value = (n * 10 + digit b : ℕ)) := by
  have hdigit := digit_lt hb
  unfold IntSum.add
  simp only [hvalue, hfine, Bool.false_or, Bool.or_eq_true, Bool.not_eq_true',
    decide_eq_false_iff_not]
  by_cases htens : Fits ((n : ℤ) * 10)
  · rw [int32_of_fits htens]
    unfold Fits at htens ⊢
    refine ⟨by omega, fun hsum => ?_⟩
    rw [int32_of_fits ⟨by omega, by omega⟩]
    push_cast
    rfl
  · unfold Fits at htens
    refine ⟨⟨fun _ => by omega, fun _ => Or.inl htens⟩, fun hsum => by omega⟩

/-- An overflow is not forgotten. -/
theorem overflowed_add {b : UInt8} (h : sum.overflowed = true) : (sum.add b).overflowed = true := by
  unfold IntSum.add
  simp [h]

/-- **The digit loop** overflows exactly if the number is not an `int`, and gives it if not. -/
theorem digits_spec (hdigits : ∀ b ∈ digits, isDigit b = true) :
    ((sumDigits digits).overflowed = true ↔ 2 ^ 31 ≤ natural digits) ∧
      (natural digits < 2 ^ 31 → (sumDigits digits).value = natural digits) := by
  induction digits using List.reverseRecOn with
  | nil => exact ⟨by decide, fun _ => rfl⟩
  | append_singleton digits b ih =>
    obtain ⟨hflag, hvalue⟩ := ih fun b' hb' => hdigits b' (List.mem_append_left _ hb')
    have hb := hdigits b (List.mem_append_right _ (List.mem_singleton_self b))
    have hsum : sumDigits (digits ++ [b]) = (sumDigits digits).add b := List.foldl_append
    rw [hsum, natural_concat]
    by_cases hsmall : natural digits < 2 ^ 31
    · have hfine : (sumDigits digits).overflowed = false :=
        Bool.eq_false_iff.mpr fun h => absurd (hflag.mp h) (not_le.mpr hsmall)
      exact add_spec hb (hvalue hsmall) hsmall hfine
    · have hover := overflowed_add (b := b) (hflag.mpr (not_lt.mp hsmall))
      exact ⟨⟨fun _ => by omega, fun _ => hover⟩, fun h => by omega⟩

/-! ## A literal behind the key -/

/-- Where the key first stands with a colon behind it, white space and the literal follow. -/
def LiteralAt (json key : Bytes) (l : Literal) : Prop :=
  l.sign ≠ .plus ∧ ∃ before spaces rest, (∀ b ∈ spaces, isSpace b = true) ∧ Ends rest ∧
    find (keyMarker key) json = some before.length ∧
      json = before ++ (keyMarker key ++ (spaces ++ (l.text ++ rest)))

theorem valueAt_literal (h : LiteralAt json key l) :
    ∃ rest, Ends rest ∧ valueAt json key = some (l.text ++ rest) := by
  obtain ⟨-, before, spaces, rest, hspaces, hends, hfirst, hjson⟩ := h
  refine ⟨rest, hends, ?_⟩
  have hdrop : json.drop (before.length + (keyMarker key).length) =
      spaces ++ (l.text ++ rest) := by
    rw [hjson, ← List.append_assoc, ← List.length_append, List.drop_left]
  unfold valueAt
  rw [hfirst, Option.map_some, hdrop, dropWhile_spaces hspaces]

/-- A literal is not `null`. -/
theorem not_null_of_literal {rest : Bytes} (hsign : l.sign ≠ .plus) :
    l.text ++ rest ≠ [] ∧ (l.text ++ rest).take 4 ≠ utf8 "null" := by
  obtain ⟨b, digits, hdigits, hb⟩ := exists_digits l
  have hn : b ≠ 110 := by
    rintro rfl
    exact absurd hb (by decide)
  unfold Literal.text
  rw [hdigits]
  cases hsign' : l.sign with
  | plus => exact absurd hsign' hsign
  | none =>
    refine ⟨by simp [Sign.text], fun hnull => hn ?_⟩
    exact (List.cons.inj (hnull : b :: (digits ++ rest).take 3 = 110 :: [117, 108, 108])).1
  | minus =>
    refine ⟨by simp [Sign.text], fun hnull => ?_⟩
    have hhead := (List.cons.inj
      (hnull : 45 :: (b :: (digits ++ rest)).take 3 = 110 :: [117, 108, 108])).1
    exact absurd hhead (by decide)

/-- **What is read of a literal**: its digits added up, and the sum negated behind a minus. -/
theorem parse_literal (h : LiteralAt json key l) : tryParseJsonIntByKey json key =
    some (if l.sign = .minus then (sumDigits l.digits).neg else sumDigits l.digits) := by
  obtain ⟨rest, hends, hvalue⟩ := valueAt_literal h
  obtain ⟨hsome, hnull⟩ := @not_null_of_literal l rest h.1
  have htake := takeWhile_digits (l := l) hends
  have hnot : ¬ (l.text ++ rest = [] ∨ (l.text ++ rest).take 4 = utf8 "null") := fun hor =>
    hor.elim hsome hnull
  unfold tryParseJsonIntByKey
  simp only [hvalue, if_neg hnot]
  cases hsign : l.sign with
  | plus => exact absurd hsign h.1
  | minus =>
    have htext : l.text ++ rest = minus :: (l.digits ++ rest) := by
      unfold Literal.text
      rw [hsign]
      rfl
    simp only [htext, List.head?_cons, if_true, List.tail_cons, htake, if_neg l.nonempty]
  | none =>
    obtain ⟨b, digits, hdigits, hb⟩ := exists_digits l
    have htext : l.text ++ rest = l.digits ++ rest := by
      unfold Literal.text
      rw [hsign]
      rfl
    have hhead : ¬ (l.digits ++ rest).head? = some minus := by
      rw [hdigits]
      intro hminus
      obtain rfl := Option.some.inj hminus
      exact absurd hb (by decide)
    simp only [htext, if_neg hhead, htake, if_neg l.nonempty, reduceCtorEq, if_false]

/-- It is the literal's number if that is below `2 ^ 31` without its sign, and overflows if not. -/
theorem parse_value {sum : IntSum} (h : LiteralAt json key l)
    (hsum : tryParseJsonIntByKey json key = some sum) :
    (sum.overflowed = true ↔ 2 ^ 31 ≤ natural l.digits) ∧
      (natural l.digits < 2 ^ 31 → sum.value = l.value) := by
  obtain ⟨hflag, hvalue⟩ := digits_spec l.decimal
  rw [parse_literal h] at hsum
  obtain rfl := Option.some.inj hsum
  unfold Literal.value
  by_cases hminus : l.sign = .minus
  · rw [if_pos hminus, if_pos hminus]
    by_cases hsmall : natural l.digits < 2 ^ 31
    · have hfits : Fits (-(sumDigits l.digits).value) := by
        rw [hvalue hsmall]
        exact ⟨by omega, by omega⟩
      unfold IntSum.neg
      refine ⟨?_, fun _ => ?_⟩
      · simp only [hfits, decide_true, Bool.not_true, Bool.or_false]
        exact hflag
      · exact (int32_of_fits hfits).trans (congrArg Neg.neg (hvalue hsmall))
    · have hover := hflag.mpr (not_lt.mp hsmall)
      have hneg : (sumDigits l.digits).neg.overflowed = true := by
        unfold IntSum.neg
        simp [hover]
      exact ⟨⟨fun _ => not_lt.mp hsmall, fun _ => hneg⟩, fun h => absurd h hsmall⟩
  · rw [if_neg hminus, if_neg hminus]
    exact ⟨hflag, hvalue⟩

/-! ## What is installed -/

/-- `true` with exactly the number, or `false` for one that is not an `int`, and no operation
overflows on the way. -/
def ReadsExactly (json key : Bytes) (n : Int) : Prop :=
  match tryParseJsonIntByKey json key with
  | some sum => sum.overflowed = false ∧ sum.value = n
  | none => ¬ Fits n

/-- The limit, the tokens and the window start. -/
def Policy.shared (st : Policy) : Int × Int × Int := (st.limit, st.tokens, st.lastRefillMs)

/-- A pull with this body stores the number where it is a positive `int`, and nothing else. -/
def InstallsExactly (body : Bytes) (n : Int) : Prop :=
  ∀ (statusCode nowMs : Int) (st : Policy), st.pulling = .idle →
    (st.refresh nowMs ⟨statusCode, body⟩).map Policy.shared =
      some (if (200 ≤ statusCode ∧ statusCode < 300) ∧ 0 < n ∧ Fits n then (n, n, nowMs)
        else st.shared)

/-- **What a pull stores**: a positive limit, or none; and nothing where there is neither. -/
theorem refresh_spec {resp : HttpResponse} {nowMs : Int} {st : Policy}
    (hidle : st.pulling = .idle) :
    (st.refresh nowMs resp).map Policy.shared =
      match policyResponse resp with
      | .limit maxConn => some (if maxConn > 0 then (maxConn, maxConn, nowMs) else st.shared)
      | .null => some (0, 0, nowMs)
      | .failed | .absent => some st.shared := by
  unfold Policy.refresh Policy.respond
  rw [hidle]
  cases policyResponse resp with
  | failed =>
    simp only [Option.bind_eq_bind, Option.bind_some, hidle, if_true]
    rfl
  | absent =>
    simp only [Option.bind_eq_bind, Option.bind_some, hidle, if_true]
    rfl
  | null => rfl
  | limit maxConn =>
    by_cases hpos : maxConn > 0
    · simp only [if_pos hpos]
      rfl
    · simp only [if_neg hpos, Option.bind_eq_bind, Option.bind_some, hidle, if_true]
      rfl

/-- A literal that is read exactly is installed exactly. -/
theorem installs_of_reads (h : LiteralAt json connectionsKey l)
    (hsmall : natural l.digits < 2 ^ 31) : InstallsExactly json l.value := by
  intro statusCode nowMs st hidle
  rw [refresh_spec hidle]
  obtain ⟨rest, -, hvalue⟩ := valueAt_literal h
  have hnull : isJsonNullByKey json connectionsKey = false := by
    unfold isJsonNullByKey
    rw [hvalue]
    exact decide_eq_false fun hnull => (not_null_of_literal h.1).2 hnull.2
  have hparse := parse_literal h
  obtain ⟨-, hexact⟩ := parse_value h hparse
  have hfits : Fits l.value := by
    unfold Literal.value
    split
    · exact ⟨by omega, by omega⟩
    · exact ⟨by omega, by omega⟩
  unfold policyResponse
  by_cases hok : 200 ≤ statusCode ∧ statusCode < 300
  · rw [if_neg (not_not.mpr (show (⟨statusCode, json⟩ : HttpResponse).ok from hok))]
    simp only [hparse, hexact hsmall, hnull]
    by_cases hpos : 0 < l.value
    · simp only [gt_iff_lt, hpos, hok, hfits, if_true, and_self]
    · simp only [gt_iff_lt, hpos, if_false, and_false, false_and, Bool.false_eq_true]
  · rw [if_pos (show ¬ (⟨statusCode, json⟩ : HttpResponse).ok from hok)]
    simp only [hok, false_and, if_false]

/-- **Which literals are read and installed right**: where the key is first followed by a colon,
white space and a decimal literal, `TryParseJsonIntByKey` gives that number exactly, or refuses it,
without an overflow, and `RefreshTrafficPolicy` installs it or changes nothing, exactly if the
digits make less than `2 ^ 31`. -/
theorem literal_read_iff (h : LiteralAt json key l) :
    (ReadsExactly json key l.value ∧ (key = connectionsKey → InstallsExactly json l.value)) ↔
      natural l.digits < 2 ^ 31 := by
  have hparse := parse_literal h
  obtain ⟨hflag, hexact⟩ := parse_value h hparse
  unfold ReadsExactly
  rw [hparse]
  constructor
  · rintro ⟨⟨hfine, -⟩, -⟩
    exact not_le.mp fun hbig => absurd (hflag.mpr hbig) (Bool.eq_false_iff.mp hfine)
  · intro hsmall
    refine ⟨⟨Bool.eq_false_iff.mpr fun hover => ?_, hexact hsmall⟩, ?_⟩
    · exact absurd (hflag.mp hover) (not_le.mpr hsmall)
    · rintro rfl
      exact installs_of_reads h hsmall

/-- The object with the limit alone in it. -/
def limitBody (digits : Bytes) : Bytes :=
  utf8 "\x7b\"maxConnectionsPerMinuteTotal\": " ++ digits ++ utf8 "\x7d"

/-- A limit of 120. -/
theorem literal_read_120 : ReadsExactly (limitBody (utf8 "120")) connectionsKey 120 ∧
    InstallsExactly (limitBody (utf8 "120")) 120 := by
  have hliteral : LiteralAt (limitBody (utf8 "120")) connectionsKey
      ⟨.none, utf8 "120", by decide, List.all_eq_true.mp (by decide)⟩ :=
    ⟨by decide, utf8 "\x7b", [32], utf8 "\x7d", List.all_eq_true.mp (by decide), by decide,
      by decide +kernel, by decide⟩
  obtain ⟨hread, hinstalls⟩ := (literal_read_iff hliteral).mpr (by decide)
  exact ⟨hread, hinstalls rfl⟩

/-- **A limit of 4294967297** is read as 1, and installed; and -2147483648, which is an `int`, is
read with an overflow. -/
theorem literal_read_wrapped :
    tryParseJsonIntByKey (limitBody (utf8 "4294967297")) connectionsKey = some ⟨1, true⟩ ∧
      ((Policy.start 1000).refresh 1000 ⟨200, limitBody (utf8 "4294967297")⟩).map Policy.shared =
        some (1, 1, 1000) ∧
      tryParseJsonIntByKey (limitBody (utf8 "-2147483648")) connectionsKey =
        some ⟨-2147483648, true⟩ := by
  decide +kernel

end

end RealtimeServer
