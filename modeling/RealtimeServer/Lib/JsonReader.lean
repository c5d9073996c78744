import Mathlib.Tactic.IntervalCases
import RealtimeServer.Lib.CompactJson
import RealtimeServer.Lib.Decimal

/-!
# Reading a flat object

A reader of JSON texts that are objects without arrays and objects in them, and how it stands to the
compact text of an object.

* `readObject text`: the members, in their order. Blanks are skipped, escapes are undone, and a text
  that is not JSON is refused.
* **`read_object`**: the compact text of an object is read as the object.
* **`objectText_le`**: no text of an object is shorter than the compact one.
* **`read_pasted_iff`**: a string that stands in a text as it is, not escaped, is read as itself
  exactly if nothing of it had to be escaped.
-/

namespace Json

/-! ## Strings -/

def hexValue (b : UInt8) : Option ℕ :=
  if 48 ≤ b ∧ b ≤ 57 then some (b.toNat - 48)
  else if 65 ≤ b ∧ b ≤ 70 then some (b.toNat - 55)
  else if 97 ≤ b ∧ b ≤ 102 then some (b.toNat - 87)
  else none

/-- The number that four hexadecimal digits denote. -/
def codeUnit (a b c d : UInt8) : Option ℕ := do
  let a ← hexValue a
  let b ← hexValue b
  let c ← hexValue c
  let d ← hexValue d
  pure (((a * 16 + b) * 16 + c) * 16 + d)

/-- A byte behind the first of a character's UTF-8. -/
def continuing (n : ℕ) : UInt8 := 128 ||| UInt8.ofNat (n % 64)

/-- The UTF-8 of a character. -/
def encode (n : ℕ) : List UInt8 :=
  if n < 0x80 then [UInt8.ofNat n]
  else if n < 0x800 then [192 ||| UInt8.ofNat (n / 64), continuing n]
  else if n < 0x10000 then [224 ||| UInt8.ofNat (n / 4096), continuing (n / 64), continuing n]
  else [240 ||| UInt8.ofNat (n / 262144), continuing (n / 4096), continuing (n / 64), continuing n]

/-- What stands for itself behind a backslash, or for a control character. -/
def unescape (b : UInt8) : Option UInt8 :=
  if b = 34 ∨ b = 92 ∨ b = 47 then some b
  else if b = 98 then some 8
  else if b = 116 then some 9
  else if b = 110 then some 10
  else if b = 102 then some 12
  else if b = 114 then some 13
  else none

/-- The second half of a surrogate pair, and what is behind it. -/
def takeLow : List UInt8 → Option (ℕ × List UInt8)
  | 92 :: 117 :: a :: b :: c :: d :: rest =>
    match codeUnit a b c d with
    | some low => if 0xDC00 ≤ low ∧ low < 0xE000 then some (low, rest) else none
    | none => none
  | _ => none

/-- The character a code unit begins, and what is behind it. A surrogate is half of one. -/
def takeUnit (unit : ℕ) (rest : List UInt8) : Option (List UInt8 × List UInt8) :=
  if 0xD800 ≤ unit ∧ unit < 0xDC00 then
    (takeLow rest).map fun (low, rest) =>
      (encode (0x10000 + (unit - 0xD800) * 0x400 + (low - 0xDC00)), rest)
  else if 0xDC00 ≤ unit ∧ unit < 0xE000 then none
  else some (encode unit, rest)

/-- The next byte of a string, or the next character if it is escaped. -/
def takeChar : List UInt8 → Option (List UInt8 × List UInt8)
  | 92 :: 117 :: a :: b :: c :: d :: rest => (codeUnit a b c d).bind fun unit => takeUnit unit rest
  | 92 :: b :: rest => (unescape b).map fun b => ([b], rest)
  | b :: rest => if Plain b then some ([b], rest) else none
  | [] => none

/-- A string behind its first quote, and what is behind its last. -/
def readString : ℕ → List UInt8 → Option (List UInt8 × List UInt8)
  | 0, _ => none
  | _ + 1, 34 :: rest => some ([], rest)
  | fuel + 1, text => do
    let (bytes, rest) ← takeChar text
    let (s, rest) ← readString fuel rest
    pure (bytes ++ s, rest)

/-! ## Values and members -/

/-- Nothing, or `e`, a sign and digits. -/
def exponentText : List UInt8 → Bool
  | [] => true
  | b :: text =>
    (b == 101 || b == 69) &&
      match text with
      | 43 :: digits | 45 :: digits => !digits.isEmpty && digits.all Decimal.isDigit
      | digits => !digits.isEmpty && digits.all Decimal.isDigit

/-- Nothing or a point and digits, and an exponent. -/
def fractionText : List UInt8 → Bool
  | 46 :: text =>
    !(text.takeWhile Decimal.isDigit).isEmpty && exponentText (text.dropWhile Decimal.isDigit)
  | text => exponentText text

/-- Digits without a leading zero, a fraction, an exponent. -/
def unsignedText (text : List UInt8) : Bool :=
  let digits := text.takeWhile Decimal.isDigit
  !digits.isEmpty && (digits.head? != some 48 || digits.length == 1) &&
    fractionText (text.dropWhile Decimal.isDigit)

/-- A number as JSON has it. -/
def numberText : List UInt8 → Bool
  | 45 :: text => unsignedText text
  | text => unsignedText text

def isBlank (b : UInt8) : Bool := b == 32 || b == 9 || b == 10 || b == 13

def skipBlanks (text : List UInt8) : List UInt8 := text.dropWhile isBlank

def readNumber (text : List UInt8) : Option (Value × List UInt8) :=
  if numberText (text.takeWhile isNumber) then
    some (.number (text.takeWhile isNumber) fun _ hb => List.mem_takeWhile_imp hb,
      text.dropWhile isNumber)
  else none

def readValue (fuel : ℕ) : List UInt8 → Option (Value × List UInt8)
  | 34 :: rest => (readString fuel rest).map fun (s, rest) => (.string s, rest)
  | 116 :: 114 :: 117 :: 101 :: rest => some (.bool true, rest)
  | 102 :: 97 :: 108 :: 115 :: 101 :: rest => some (.bool false, rest)
  | 110 :: 117 :: 108 :: 108 :: rest => some (.null, rest)
  | text => readNumber text

/-- The text behind a byte. -/
def expect (b : UInt8) : List UInt8 → Option (List UInt8)
  | [] => none
  | c :: rest => if c = b then some rest else none

/-- A member, with blanks before and behind it. -/
def readMember (fuel : ℕ) (text : List UInt8) :
    Option ((List UInt8 × Value) × List UInt8) := do
  let rest ← expect 34 (skipBlanks text)
  let (key, rest) ← readString fuel rest
  let rest ← expect 58 (skipBlanks rest)
  let (value, rest) ← readValue fuel (skipBlanks rest)
  pure ((key, value), skipBlanks rest)

/-- One member or more, and what is behind the closing brace; `size` is more than any string has. -/
def readMembers (size : ℕ) : ℕ → List UInt8 →
    Option (List (List UInt8 × Value) × List UInt8)
  | 0, _ => none
  | fuel + 1, text => do
    let (member, rest) ← readMember size text
    match rest with
    | 44 :: rest =>
      let (members, rest) ← readMembers size fuel rest
      pure (member :: members, rest)
    | 125 :: rest => pure ([member], rest)
    | _ => none

/-- A text that is an object, and nothing else. -/
def readObject (text : List UInt8) : Option (List (List UInt8 × Value)) := do
  let rest ← expect 123 (skipBlanks text)
  match skipBlanks rest with
  | 125 :: rest => if skipBlanks rest = [] then some [] else none
  | rest =>
    let (members, rest) ← readMembers text.length text.length rest
    if skipBlanks rest = [] then some members else none

/-! ## No text is shorter -/

variable {s bytes text rest : List UInt8} {b : UInt8} {fuel size : ℕ} {v : Value}
  {member : List UInt8 × Value} {members : List (List UInt8 × Value)}

theorem plain_of_high (h : 128 ≤ b.toNat) : Plain b := by
  refine ⟨?_, ?_, UInt8.le_iff_toNat_le.mpr (le_trans (by decide) h)⟩
  · rintro rfl
    exact absurd h (by decide)
  · rintro rfl
    exact absurd h (by decide)

theorem plain_or (first : UInt8) (h : 128 ≤ first.toNat) (low : UInt8) : Plain (first ||| low) := by
  refine plain_of_high (h.trans ?_)
  rw [UInt8.toNat_or]
  exact Nat.left_le_or

theorem plain_continuing (n : ℕ) : Plain (continuing n) := plain_or 128 (by decide) _

theorem length_escape_plain (h : ∀ b ∈ s, Plain b) : (escape s).length = s.length := by
  rw [escape_plain h]

theorem length_escapeByte_le (b : UInt8) : (escapeByte b).length ≤ 6 := by
  unfold escapeByte
  split_ifs <;> simp

/-- A character is not longer escaped in the compact way than as a code unit. -/
theorem length_encode_le (n : ℕ) : (escape (encode n)).length ≤ 6 := by
  unfold encode
  split_ifs
  · rw [escape_cons, List.length_append]
    exact length_escapeByte_le _
  · rw [length_escape_plain (by simp [plain_or, plain_continuing])]
    simp
  · rw [length_escape_plain (by simp [plain_or, plain_continuing])]
    simp
  · rw [length_escape_plain (by simp [plain_or, plain_continuing])]
    simp

theorem length_unescape_le {c : UInt8} (h : unescape b = some c) :
    (escape [c]).length ≤ 2 := by
  unfold unescape at h
  split_ifs at h with hself
  · obtain rfl := Option.some.inj h
    rcases hself with rfl | rfl | rfl <;> decide
  all_goals
    obtain rfl := Option.some.inj h
    decide

theorem length_takeLow {low : ℕ} (h : takeLow text = some (low, rest)) :
    rest.length + 6 = text.length := by
  unfold takeLow at h
  split at h
  · split at h
    · split_ifs at h
      obtain ⟨-, rfl⟩ := Prod.mk.inj (Option.some.inj h)
      rfl
    · exact absurd h (by simp)
  · exact absurd h (by simp)

theorem takeUnit_le {unit : ℕ} (h : takeUnit unit text = some (bytes, rest)) :
    (escape bytes).length + rest.length ≤ text.length + 6 := by
  unfold takeUnit at h
  split_ifs at h
  · obtain ⟨⟨low, rest'⟩, hlow, heq⟩ := Option.map_eq_some_iff.mp h
    obtain ⟨rfl, rfl⟩ := Prod.mk.inj heq
    have hencode := length_encode_le (0x10000 + (unit - 0xD800) * 0x400 + (low - 0xDC00))
    have hlength := length_takeLow hlow
    omega
  · obtain ⟨rfl, rfl⟩ := Prod.mk.inj (Option.some.inj h)
    have hencode := length_encode_le unit
    omega

theorem takeChar_le (h : takeChar text = some (bytes, rest)) :
    (escape bytes).length + rest.length ≤ text.length := by
  unfold takeChar at h
  split at h
  · obtain ⟨unit, -, hunit⟩ := Option.bind_eq_some_iff.mp h
    exact takeUnit_le hunit
  · obtain ⟨c, hc, heq⟩ := Option.map_eq_some_iff.mp h
    obtain ⟨rfl, rfl⟩ := Prod.mk.inj heq
    have hlength := length_unescape_le hc
    simp only [List.length_cons]
    omega
  · split_ifs at h with hplain
    obtain ⟨rfl, rfl⟩ := Prod.mk.inj (Option.some.inj h)
    rw [length_escape_plain (by simpa using hplain)]
    simp only [List.length_cons, List.length_nil]
    omega
  · exact absurd h (by simp)

theorem escape_append (s s' : List UInt8) : escape (s ++ s') = escape s ++ escape s' :=
  List.flatMap_append

theorem readString_le (h : readString fuel text = some (s, rest)) :
    (escape s).length + 1 + rest.length ≤ text.length := by
  induction fuel generalizing s text with
  | zero => exact absurd h (by simp [readString])
  | succ fuel ih =>
    unfold readString at h
    split at h
    · exact absurd h (by simp)
    · rename_i heq
      obtain ⟨rfl, rfl⟩ := Prod.mk.inj (Option.some.inj h)
      simp [escape]
      omega
    · rename_i heq _
      obtain rfl := Nat.succ.inj heq
      obtain ⟨⟨bytes, rest₁⟩, hchar, h⟩ := Option.bind_eq_some_iff.mp h
      obtain ⟨⟨s', rest₂⟩, hstring, h⟩ := Option.bind_eq_some_iff.mp h
      obtain ⟨rfl, rfl⟩ := Prod.mk.inj (Option.some.inj h)
      have hfirst := takeChar_le hchar
      have hrest := ih hstring
      rw [escape_append, List.length_append]
      omega

theorem expect_eq_some (h : expect b text = some rest) : text = b :: rest := by
  cases text with
  | nil => exact absurd h (by simp [expect])
  | cons c text =>
    change (if c = b then some text else none) = some rest at h
    split_ifs at h with hc
    rw [hc, Option.some.inj h]

theorem skipBlanks_le (text : List UInt8) : (skipBlanks text).length ≤ text.length :=
  List.length_dropWhile_le _ _

theorem readNumber_le (h : readNumber text = some (v, rest)) :
    (v.write rest).length ≤ text.length := by
  unfold readNumber at h
  split_ifs at h
  obtain ⟨rfl, rfl⟩ := Prod.mk.inj (Option.some.inj h)
  change (text.takeWhile isNumber ++ text.dropWhile isNumber).length ≤ _
  rw [List.takeWhile_append_dropWhile]

theorem readValue_le (h : readValue fuel text = some (v, rest)) :
    (v.write rest).length ≤ text.length := by
  unfold readValue at h
  split at h
  · obtain ⟨⟨s, rest'⟩, hstring, heq⟩ := Option.map_eq_some_iff.mp h
    obtain ⟨rfl, rfl⟩ := Prod.mk.inj heq
    have hlength := readString_le hstring
    simp only [Value.write, stringText, List.length_cons, List.length_append]
    omega
  · obtain ⟨rfl, rfl⟩ := Prod.mk.inj (Option.some.inj h)
    exact le_refl _
  · obtain ⟨rfl, rfl⟩ := Prod.mk.inj (Option.some.inj h)
    exact le_refl _
  · obtain ⟨rfl, rfl⟩ := Prod.mk.inj (Option.some.inj h)
    exact le_refl _
  · exact readNumber_le h

/-- A value is as long before anything. -/
theorem length_write (v : Value) (rest : List UInt8) :
    (v.write rest).length = (v.write []).length + rest.length := by
  cases v with
  | bool b => cases b <;> simp [Value.write] <;> omega
  | string s =>
    simp [Value.write, stringText]
    omega
  | number text numeric => simp [Value.write]
  | null =>
    simp [Value.write]
    omega

theorem length_memberText (member : List UInt8 × Value) (rest : List UInt8) :
    (memberText member rest).length =
      (escape member.1).length + 3 + (member.2.write rest).length := by
  simp only [memberText, stringText, List.length_cons, List.length_append]
  omega

theorem readMember_le (h : readMember fuel text = some (member, rest)) :
    (memberText member rest).length ≤ text.length := by
  unfold readMember at h
  obtain ⟨text₁, hquote, h⟩ := Option.bind_eq_some_iff.mp h
  obtain ⟨⟨key, text₂⟩, hkey, h⟩ := Option.bind_eq_some_iff.mp h
  obtain ⟨text₃, hcolon, h⟩ := Option.bind_eq_some_iff.mp h
  obtain ⟨⟨value, text₄⟩, hvalue, h⟩ := Option.bind_eq_some_iff.mp h
  obtain ⟨rfl, rfl⟩ := Prod.mk.inj (Option.some.inj h)
  have hstart := skipBlanks_le text
  rw [expect_eq_some hquote, List.length_cons] at hstart
  have hmiddle := skipBlanks_le text₂
  rw [expect_eq_some hcolon, List.length_cons] at hmiddle
  have hstring := readString_le hkey
  have hread := readValue_le hvalue
  have hblank := skipBlanks_le text₃
  have hend := skipBlanks_le text₄
  rw [length_write] at hread
  rw [length_memberText, length_write]
  simp only at hread hstring ⊢
  omega

theorem membersText_cons (h : members ≠ []) :
    membersText (member :: members) = memberText member (44 :: membersText members) := by
  cases members with
  | nil => exact absurd rfl h
  | cons member' members => rfl

theorem readMembers_le (h : readMembers size fuel text = some (members, rest)) :
    members ≠ [] ∧ (membersText members).length + rest.length ≤ text.length := by
  induction fuel generalizing members text with
  | zero => exact absurd h (by simp [readMembers])
  | succ fuel ih =>
    unfold readMembers at h
    obtain ⟨⟨member, text₁⟩, hmember, h⟩ := Option.bind_eq_some_iff.mp h
    have hfirst := readMember_le hmember
    rw [length_memberText, length_write] at hfirst
    simp only at h
    split at h
    · obtain ⟨⟨members', text₂⟩, hmembers, h⟩ := Option.bind_eq_some_iff.mp h
      obtain ⟨rfl, rfl⟩ := Prod.mk.inj (Option.some.inj h)
      obtain ⟨hnonempty, hlength⟩ := ih hmembers
      change _ + text₂.length ≤ _ at hlength
      refine ⟨List.cons_ne_nil _ _, ?_⟩
      rw [membersText_cons hnonempty, length_memberText, length_write]
      simp only [List.length_cons] at hfirst ⊢
      omega
    · obtain ⟨rfl, rfl⟩ := Prod.mk.inj (Option.some.inj h)
      refine ⟨List.cons_ne_nil _ _, ?_⟩
      change (memberText member [125]).length + _ ≤ _
      rw [length_memberText, length_write]
      simp only [List.length_cons, List.length_nil] at hfirst ⊢
      omega
    · exact absurd h (by simp)

/-- **The compact text is the shortest** of those that are read as the object. -/
theorem objectText_le (h : readObject text = some members) :
    (objectText members).length ≤ text.length := by
  unfold readObject at h
  obtain ⟨text₁, hbrace, h⟩ := Option.bind_eq_some_iff.mp h
  have hstart := skipBlanks_le text
  rw [expect_eq_some hbrace, List.length_cons] at hstart
  have hblank := skipBlanks_le text₁
  split at h
  · rename_i heq
    split_ifs at h
    obtain rfl := Option.some.inj h
    rw [heq, List.length_cons] at hblank
    simp [objectText, membersText]
    omega
  · obtain ⟨⟨members', text₂⟩, hmembers, h⟩ := Option.bind_eq_some_iff.mp h
    simp only at h
    split_ifs at h
    obtain rfl := Option.some.inj h
    have hlength := (readMembers_le hmembers).2
    rw [objectText, List.length_cons]
    omega

/-! ## The compact text is read -/

theorem control_read {n : ℕ} (h : n < 32) (rest : List UInt8) :
    takeChar (escapeByte (UInt8.ofNat n) ++ rest) = some ([UInt8.ofNat n], rest) := by
  interval_cases n <;> rfl

theorem takeChar_escapeByte (b : UInt8) (rest : List UInt8) :
    takeChar (escapeByte b ++ rest) = some ([b], rest) := by
  cases escaped b with
  | itself hplain htext =>
    rw [htext, List.singleton_append]
    unfold takeChar
    split
    · rename_i heq
      exact absurd (List.cons.inj heq).1 hplain.2.1
    · rename_i heq
      exact absurd (List.cons.inj heq).1 hplain.2.1
    · rename_i heq
      obtain ⟨rfl, rfl⟩ := List.cons.inj heq
      exact if_pos hplain
    · rename_i heq
      exact absurd heq (by simp)
  | quote hquote _ =>
    subst hquote
    rfl
  | other hquote hplain _ _ _ _ =>
    by_cases hslash : b = 92
    · subst hslash
      rfl
    · have hlt : b.toNat < 32 := by
        by_contra hle
        exact hplain ⟨hquote, hslash, UInt8.le_iff_toNat_le.mpr (not_lt.mp hle)⟩
      have hread := control_read hlt rest
      rwa [UInt8.ofNat_toNat] at hread

theorem head_escapeByte (b : UInt8) (rest : List UInt8) :
    ∃ c text, escapeByte b ++ rest = c :: text ∧ c ≠ 34 := by
  cases escaped b with
  | itself hplain htext => exact ⟨b, rest, by rw [htext]; rfl, hplain.1⟩
  | quote _ htext => exact ⟨92, _, by rw [htext]; rfl, by decide⟩
  | other _ _ tail _ _ htext => exact ⟨92, _, by rw [htext]; rfl, by decide⟩

theorem readString_escape (h : s.length < fuel) :
    readString fuel (escape s ++ 34 :: rest) = some (s, rest) := by
  induction s generalizing fuel with
  | nil =>
    cases fuel with
    | zero => exact absurd h (Nat.not_lt_zero _)
    | succ fuel => rfl
  | cons b s ih =>
    cases fuel with
    | zero => exact absurd h (Nat.not_lt_zero _)
    | succ fuel =>
      rw [escape_cons, List.append_assoc]
      obtain ⟨c, text, htext, hc⟩ := head_escapeByte b (escape s ++ 34 :: rest)
      have hchar := takeChar_escapeByte b (escape s ++ 34 :: rest)
      rw [htext] at hchar ⊢
      unfold readString
      split
      · rename_i heq
        exact absurd heq (by simp)
      · rename_i heq
        exact absurd (List.cons.inj heq).1 hc
      · rename_i heq _
        obtain rfl := Nat.succ.inj heq
        rw [hchar]
        change (readString fuel (escape s ++ 34 :: rest)).bind _ = _
        rw [ih (Nat.lt_of_succ_lt_succ h)]
        rfl

/-- The number is one of JSON. -/
def Value.Readable : Value → Prop
  | number text _ => numberText text = true
  | string _ | bool _ | null => True

/-- The value's string, if it is one, is shorter. -/
def Value.Within (size : ℕ) : Value → Prop
  | string s => s.length < size
  | number .. | bool _ | null => True

theorem skipBlanks_cons (h : isBlank b = false) : skipBlanks (b :: rest) = b :: rest :=
  List.dropWhile_cons_of_neg (by simp [h])

theorem Closes.skipBlanks_eq (h : Closes rest) : skipBlanks rest = rest := by
  obtain ⟨b, tail, rfl, rfl | rfl⟩ := h
  · exact skipBlanks_cons (by decide)
  · exact skipBlanks_cons (by decide)

theorem readNumber_write (numeric : ∀ b ∈ text, isNumber b = true) (h : numberText text = true)
    (hrest : Closes rest) : readNumber (text ++ rest) = some (.number text numeric, rest) := by
  have hnot : ∀ b tail, rest = b :: tail → ¬ isNumber b = true := by
    obtain ⟨c, tail, rfl, hc⟩ := hrest
    rintro b tail' heq
    obtain ⟨rfl, -⟩ := List.cons.inj heq
    rcases hc with rfl | rfl <;> decide
  have htake : (text ++ rest).takeWhile isNumber = text := by
    rw [List.takeWhile_append_of_pos numeric]
    obtain ⟨b, tail, rfl, -⟩ := hrest
    rw [List.takeWhile_cons_of_neg (hnot b tail rfl), List.append_nil]
  have hdrop : (text ++ rest).dropWhile isNumber = rest := by
    rw [List.dropWhile_append_of_pos numeric]
    obtain ⟨b, tail, rfl, -⟩ := hrest
    exact List.dropWhile_cons_of_neg (hnot b tail rfl)
  unfold readNumber
  rw [if_pos (by rw [htake]; exact h)]
  simp only [htake, hdrop]

theorem readValue_write (hreadable : v.Readable) (hwithin : v.Within size)
    (hrest : Closes rest) : readValue size (v.write rest) = some (v, rest) := by
  cases v with
  | string s =>
    change (readString size (escape s ++ 34 :: rest)).map _ = _
    rw [readString_escape hwithin]
    rfl
  | bool b => cases b <;> rfl
  | null => rfl
  | number text numeric =>
    change readValue size (text ++ rest) = _
    cases text with
    | nil => exact absurd (show numberText [] = true from hreadable) (by decide)
    | cons c text =>
      have hc := numeric c List.mem_cons_self
      have hread := readNumber_write numeric hreadable hrest
      unfold readValue
      split
      · rename_i heq
        obtain rfl := (List.cons.inj heq).1
        exact absurd hc (by decide)
      · rename_i heq
        obtain rfl := (List.cons.inj heq).1
        exact absurd hc (by decide)
      · rename_i heq
        obtain rfl := (List.cons.inj heq).1
        exact absurd hc (by decide)
      · rename_i heq
        obtain rfl := (List.cons.inj heq).1
        exact absurd hc (by decide)
      · exact hread

/-- What a value begins with is no blank. -/
theorem skipBlanks_write (hreadable : v.Readable) :
    skipBlanks (v.write rest) = v.write rest := by
  cases v with
  | string s => exact skipBlanks_cons (by decide)
  | bool b => cases b <;> exact skipBlanks_cons (by decide)
  | null => exact skipBlanks_cons (by decide)
  | number text numeric =>
    cases text with
    | nil => exact absurd (show numberText [] = true from hreadable) (by decide)
    | cons c text =>
      refine skipBlanks_cons ?_
      have hc := numeric c List.mem_cons_self
      rw [← Bool.not_eq_true]
      intro hblank
      simp only [isBlank, Bool.or_eq_true, beq_iff_eq] at hblank
      rcases hblank with ((rfl | rfl) | rfl) | rfl <;> exact absurd hc (by decide)

theorem readMember_write (hreadable : member.2.Readable) (hkey : member.1.length < size)
    (hwithin : member.2.Within size) (hrest : Closes rest) :
    readMember size (memberText member rest) = some (member, rest) := by
  unfold readMember memberText stringText
  rw [skipBlanks_cons (by decide)]
  change (readString size (escape member.1 ++ 34 :: 58 :: member.2.write rest)).bind _ = _
  rw [readString_escape hkey, Option.bind_some]
  change (expect 58 (skipBlanks (58 :: member.2.write rest))).bind _ = _
  rw [skipBlanks_cons (by decide)]
  change (readValue size (skipBlanks (member.2.write rest))).bind _ = _
  rw [skipBlanks_write hreadable, readValue_write hreadable hwithin hrest, Option.bind_some]
  change some ((member.1, member.2), skipBlanks rest) = _
  rw [hrest.skipBlanks_eq]

/-- What the members need to be read with strings of less than `size`. -/
def Readables (size : ℕ) (members : List (List UInt8 × Value)) : Prop :=
  ∀ member ∈ members, member.2.Readable ∧ member.1.length < size ∧ member.2.Within size

theorem readMembers_write (hnonempty : members ≠ []) (hreadable : Readables size members)
    (hfuel : members.length ≤ fuel) :
    readMembers size fuel (membersText members) = some (members, []) := by
  induction members generalizing fuel with
  | nil => exact absurd rfl hnonempty
  | cons member members ih =>
    cases fuel with
    | zero => exact absurd hfuel (by simp)
    | succ fuel =>
      obtain ⟨⟨hvalue, hkey, hwithin⟩, hbehind⟩ := List.forall_mem_cons.mp hreadable
      unfold readMembers
      cases members with
      | nil =>
        have hread : readMember size (memberText member [125]) = some (member, [125]) :=
          readMember_write hvalue hkey hwithin ⟨125, [], rfl, Or.inr rfl⟩
        change (readMember size (memberText member [125])).bind _ = _
        rw [hread]
        rfl
      | cons member' members =>
        have hread : readMember size (memberText member (44 :: membersText (member' :: members))) =
            some (member, 44 :: membersText (member' :: members)) :=
          readMember_write hvalue hkey hwithin ⟨44, _, rfl, Or.inl rfl⟩
        have hmembers := ih (List.cons_ne_nil _ _) hbehind (Nat.le_of_succ_le_succ hfuel)
        change (readMember size (memberText member _)).bind _ = _
        rw [hread, Option.bind_some]
        change (readMembers size fuel (membersText (member' :: members))).bind _ = _
        rw [hmembers]
        rfl

theorem length_member_lt (member : List UInt8 × Value) (rest : List UInt8) :
    member.1.length < (memberText member rest).length ∧
      member.2.Within (memberText member rest).length := by
  have hkey := length_le_escape member.1
  rw [length_memberText, length_write]
  refine ⟨by omega, ?_⟩
  cases hvalue : member.2 with
  | string s =>
    have hstring := length_le_escape s
    change s.length < _
    simp only [Value.write, stringText, List.length_cons, List.length_append, List.length_nil]
    omega
  | number text numeric => trivial
  | bool b => trivial
  | null => trivial

theorem Value.Within.mono {size' : ℕ} (h : v.Within size) (hle : size ≤ size') :
    v.Within size' := by
  cases v with
  | string s => exact lt_of_lt_of_le h hle
  | number text numeric => trivial
  | bool b => trivial
  | null => trivial

theorem readables (hreadable : ∀ member ∈ members, member.2.Readable)
    (hsize : (membersText members).length ≤ size) : Readables size members := by
  induction members with
  | nil => exact fun member hmember => absurd hmember List.not_mem_nil
  | cons member members ih =>
    obtain ⟨hvalue, hbehind⟩ := List.forall_mem_cons.mp hreadable
    obtain ⟨rest, htext, hrest⟩ : ∃ rest, membersText (member :: members) = memberText member rest ∧
        (members = [] ∨ (membersText members).length ≤ rest.length) := by
      cases members with
      | nil => exact ⟨[125], rfl, Or.inl rfl⟩
      | cons member' members =>
        exact ⟨44 :: membersText (member' :: members), rfl, Or.inr (by simp)⟩
    have hlength := length_memberText member rest
    rw [length_write] at hlength
    rw [htext] at hsize
    obtain ⟨hkey, hwithin⟩ := length_member_lt member rest
    refine List.forall_mem_cons.mpr ⟨⟨hvalue, by omega, hwithin.mono hsize⟩, ?_⟩
    rcases hrest with rfl | hrest
    · exact fun member hmember => absurd hmember List.not_mem_nil
    · exact ih hbehind (by omega)

theorem length_members_le (members : List (List UInt8 × Value)) :
    members.length ≤ (membersText members).length := by
  induction members with
  | nil => exact Nat.zero_le _
  | cons member members ih =>
    cases members with
    | nil =>
      change 1 ≤ (memberText member [125]).length
      rw [length_memberText]
      omega
    | cons member' members =>
      rw [membersText_cons (List.cons_ne_nil _ _), length_memberText, length_write]
      simp only [List.length_cons] at ih ⊢
      omega

/-- **The compact text** of an object is read as the object. -/
theorem read_object (hreadable : ∀ member ∈ members, member.2.Readable) :
    readObject (objectText members) = some members := by
  unfold readObject objectText
  rw [skipBlanks_cons (by decide)]
  change (match skipBlanks (membersText members) with
    | 125 :: rest => if skipBlanks rest = [] then some [] else none
    | rest => (readMembers _ _ rest).bind fun (members, rest) =>
      if skipBlanks rest = [] then some members else none) = _
  cases members with
  | nil => rfl
  | cons member members =>
    obtain ⟨text, htext⟩ : ∃ text, membersText (member :: members) = 34 :: text := by
      cases members with
      | nil => exact ⟨_, rfl⟩
      | cons member' members => exact ⟨_, rfl⟩
    have hread : readMembers (123 :: membersText (member :: members)).length
        (123 :: membersText (member :: members)).length (membersText (member :: members)) =
        some (member :: members, []) := by
      have hlength := length_members_le (member :: members)
      refine readMembers_write (List.cons_ne_nil _ _) (readables hreadable ?_) ?_
      · exact Nat.le_succ _
      · rw [List.length_cons (a := 123)]
        omega
    rw [htext, skipBlanks_cons (by decide)]
    rw [htext] at hread
    change (readMembers _ _ (34 :: text)).bind _ = _
    rw [hread]
    rfl

/-- **A string pasted into a text** as it is comes out as it went in exactly if it has nothing to
escape: every escape is longer than what it stands for, and no text of the object is shorter than
the compact one. -/
theorem read_pasted_iff {before behind : List UInt8}
    (htext : objectText members = before ++ (escape s ++ behind))
    (hreadable : ∀ member ∈ members, member.2.Readable) :
    readObject (before ++ (s ++ behind)) = some members ↔ ∀ b ∈ s, Plain b := by
  constructor
  · intro hread
    have hle := objectText_le hread
    rw [htext] at hle
    simp only [List.length_append] at hle
    have hescape := length_le_escape s
    exact plain_of_length (by omega)
  · intro hplain
    rw [escape_plain hplain] at htext
    rw [← htext]
    exact read_object hreadable

/-! ## Integers -/

theorem unsignedText_digitsOf (n : ℕ) : unsignedText (Decimal.digitsOf n) = true := by
  have hdigits := Decimal.isDigit_digitsOf n
  have htake : (Decimal.digitsOf n).takeWhile Decimal.isDigit = Decimal.digitsOf n :=
    List.takeWhile_eq_self_iff.mpr hdigits
  have hdrop : (Decimal.digitsOf n).dropWhile Decimal.isDigit = [] :=
    List.dropWhile_eq_nil_iff.mpr hdigits
  unfold unsignedText
  rw [htake, hdrop]
  rcases Nat.eq_zero_or_pos n with rfl | hpos
  · rw [Decimal.digitsOf_of_lt (by decide)]
    decide
  · simp [Decimal.digitsOf_ne_nil, Decimal.head_digitsOf hpos, fractionText, exponentText]

theorem isNumber_of_isDigit (h : Decimal.isDigit b = true) : isNumber b = true := by
  change (Decimal.isDigit b || b == 43 || b == 45 || b == 46 || b == 69 || b == 101) = true
  rw [h]
  rfl

theorem isNumber_intText (n : ℤ) : ∀ b ∈ Decimal.intText n, isNumber b = true := by
  have hdigits : ∀ b ∈ Decimal.digitsOf n.natAbs, isNumber b = true := fun b hb =>
    isNumber_of_isDigit (Decimal.isDigit_digitsOf _ b hb)
  unfold Decimal.intText
  split_ifs
  · intro b hb
    rcases List.mem_cons.mp hb with rfl | hb
    · decide
    · exact hdigits b hb
  · exact hdigits

/-- The number. -/
def Value.int (n : ℤ) : Value := .number (Decimal.intText n) (isNumber_intText n)

theorem numberText_digitsOf (n : ℕ) : numberText (Decimal.digitsOf n) = true := by
  have hunsigned := unsignedText_digitsOf n
  obtain ⟨b, digits, hdigits⟩ := List.exists_cons_of_ne_nil (Decimal.digitsOf_ne_nil n)
  have hb := Decimal.isDigit_digitsOf n b (hdigits ▸ List.mem_cons_self)
  rw [hdigits] at hunsigned ⊢
  unfold numberText
  split
  · rename_i heq
    obtain rfl := (List.cons.inj heq).1
    exact absurd hb (by decide)
  · exact hunsigned

theorem readable_string (s : List UInt8) : (Value.string s).Readable := trivial

theorem readable_int (n : ℤ) : (Value.int n).Readable := by
  change numberText (Decimal.intText n) = true
  unfold Decimal.intText
  split_ifs
  · exact unsignedText_digitsOf _
  · exact numberText_digitsOf _

end Json
