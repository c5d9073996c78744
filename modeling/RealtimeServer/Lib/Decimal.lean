import Mathlib.Data.List.TakeWhile
import RealtimeServer.Lib.Int32

/-!
# Decimal literals in a text

* `isSpace`, `isDigit`: what `isspace` and `isdigit` say of a byte in the "C" locale.
* `natural digits`: the number that digits denote, the highest first.
* `Literal`: an optional sign and digits, with the number they denote.
* `digitsOf n`: the digits of a number. **`natural_digitsOf`**: they denote it.
* `Ends rest`: a literal before `rest` does not go on in it. `takeWhile_digits`: then the digits are
  what `isDigit` takes.
* `stoi`: `std::stoi`, which skips white space and stops behind the digits. **`stoi_eq_some`**: what
  it reads is the number of the literal the text `Leads` with, if that is an `int`.
-/

namespace Decimal

/-- `isspace`: blank, tab, line feed, vertical tab, form feed, carriage return. -/
def isSpace (b : UInt8) : Bool := b == 32 || (9 ≤ b && b ≤ 13)

/-- `isdigit`. -/
def isDigit (b : UInt8) : Bool := 48 ≤ b && b ≤ 57

/-- `b - '0'`. -/
def digit (b : UInt8) : ℕ := b.toNat - 48

/-- The number that digits denote, the highest first. -/
def natural (digits : List UInt8) : ℕ := digits.foldl (fun n b => n * 10 + digit b) 0

theorem natural_concat (digits : List UInt8) (b : UInt8) :
    natural (digits ++ [b]) = natural digits * 10 + digit b := List.foldl_append

inductive Sign
  | none | plus | minus
  deriving DecidableEq

def Sign.text : Sign → List UInt8
  | none => []
  | plus => [43]
  | minus => [45]

/-- An optional sign, and digits. -/
structure Literal where
  sign : Sign
  digits : List UInt8
  nonempty : digits ≠ []
  decimal : ∀ b ∈ digits, isDigit b = true

namespace Literal

variable (l : Literal)

def text : List UInt8 := l.sign.text ++ l.digits

/-- The number it denotes. -/
def value : ℤ := if l.sign = .minus then -(natural l.digits : ℤ) else natural l.digits

end Literal

/-- The text does not go on with a digit. -/
def Ends (rest : List UInt8) : Prop := ∀ b ∈ rest.head?, isDigit b = false

instance (rest : List UInt8) : Decidable (Ends rest) :=
  decidable_of_iff (rest.head?.all fun b => !isDigit b) (by simp [Ends, Option.all_eq_true])

section

variable {l : Literal} {rest : List UInt8} {b : UInt8}

theorem digit_lt (h : isDigit b = true) : digit b < 10 := by
  simp only [isDigit, Bool.and_eq_true, decide_eq_true_eq, UInt8.le_iff_toNat_le] at h
  have hhigh : b.toNat ≤ 57 := h.2
  unfold digit
  omega

theorem not_isSpace_of_isDigit (h : isDigit b = true) : isSpace b = false := by
  simp only [isDigit, Bool.and_eq_true, decide_eq_true_eq, UInt8.le_iff_toNat_le] at h
  have hlow : 48 ≤ b.toNat := h.1
  have hblank : b ≠ 32 := by
    rintro rfl
    exact absurd hlow (by decide)
  have hrange : ¬ b ≤ 13 := fun hle => by
    have hle' : b.toNat ≤ 13 := UInt8.le_iff_toNat_le.mp hle
    omega
  simp [isSpace, hblank, hrange]

/-- The digits of a literal are taken, and no more. -/
theorem takeWhile_digits (h : Ends rest) : (l.digits ++ rest).takeWhile isDigit = l.digits := by
  rw [List.takeWhile_append_of_pos l.decimal]
  cases rest with
  | nil => rw [List.takeWhile_nil, List.append_nil]
  | cons b rest =>
    have hb : ¬ isDigit b = true := by
      rw [h b rfl]
      exact Bool.false_ne_true
    rw [List.takeWhile_cons_of_neg hb, List.append_nil]

/-- A literal begins with its sign or with a digit. -/
theorem exists_digits (l : Literal) : ∃ b digits, l.digits = b :: digits ∧ isDigit b = true := by
  obtain ⟨b, digits, hdigits⟩ := List.exists_cons_of_ne_nil l.nonempty
  exact ⟨b, digits, hdigits, l.decimal b (hdigits ▸ List.mem_cons_self)⟩

/-- A literal does not begin with a space. -/
theorem dropWhile_spaces {spaces : List UInt8} (h : ∀ b ∈ spaces, isSpace b = true) :
    (spaces ++ (l.text ++ rest)).dropWhile isSpace = l.text ++ rest := by
  rw [List.dropWhile_append_of_pos h]
  obtain ⟨b, digits, hdigits, hb⟩ := exists_digits l
  unfold Literal.text
  rw [hdigits]
  cases l.sign with
  | none => exact List.dropWhile_cons_of_neg (by simp [not_isSpace_of_isDigit hb])
  | plus => rfl
  | minus => rfl

/-! ## `std::stoi` -/

/-- An optional sign, and what stands behind it. -/
def takeSign : List UInt8 → Sign × List UInt8
  | [] => (.none, [])
  | b :: text =>
    if b = 43 then (.plus, text) else if b = 45 then (.minus, text) else (.none, b :: text)

/-- `strtol` in base 10; `none` where it finds no number. -/
def strtol (text : List UInt8) : Option ℤ :=
  let (sign, text) := takeSign (text.dropWhile isSpace)
  let digits := text.takeWhile isDigit
  if digits = [] then none
  else some (if sign = .minus then -(natural digits : ℤ) else natural digits)

/-- `std::stoi`; `none` where it throws. -/
def stoi (text : List UInt8) : Option ℤ :=
  (strtol text).filter fun value => decide (Signed.Fits value)

/-- The text begins with a literal, behind white space. -/
structure Leads (text spaces : List UInt8) (l : Literal) (rest : List UInt8) : Prop where
  text : text = spaces ++ (l.text ++ rest)
  spaces : ∀ b ∈ spaces, isSpace b = true
  ends : Ends rest

variable {text spaces : List UInt8}

theorem leads_text (l : Literal) : Leads l.text [] l [] := by
  refine ⟨?_, nofun, nofun⟩
  rw [List.nil_append, List.append_nil]

theorem takeSign_text (l : Literal) (rest : List UInt8) :
    takeSign (l.text ++ rest) = (l.sign, l.digits ++ rest) := by
  obtain ⟨b, digits, hdigits, hb⟩ := exists_digits l
  unfold Literal.text
  rw [hdigits]
  cases l.sign with
  | none =>
    have hplus : b ≠ 43 := by
      rintro rfl
      exact absurd hb (by decide)
    have hminus : b ≠ 45 := by
      rintro rfl
      exact absurd hb (by decide)
    show (if b = 43 then (Sign.plus, digits ++ rest)
      else if b = 45 then (Sign.minus, digits ++ rest) else (Sign.none, b :: (digits ++ rest))) = _
    rw [if_neg hplus, if_neg hminus]
    rfl
  | plus => rfl
  | minus => rfl

/-- What a text begins with is read. -/
theorem strtol_of_leads (h : Leads text spaces l rest) : strtol text = some l.value := by
  unfold strtol
  rw [h.text, dropWhile_spaces h.spaces, takeSign_text]
  simp only [takeWhile_digits h.ends, if_neg l.nonempty]
  rfl

theorem takeSign_spec (text : List UInt8) :
    text = (takeSign text).1.text ++ (takeSign text).2 := by
  unfold takeSign
  cases text with
  | nil => rfl
  | cons b text =>
    by_cases hplus : b = 43
    · simp [hplus, Sign.text]
    · by_cases hminus : b = 45
      · simp [hminus, Sign.text]
      · simp [hplus, hminus, Sign.text]

/-- **`strtol` reads the literal** its text begins with. -/
theorem strtol_eq_some {v : ℤ} :
    strtol text = some v ↔ ∃ spaces l rest, Leads text spaces l rest ∧ l.value = v := by
  constructor
  · intro h
    unfold strtol at h
    have hsign := takeSign_spec (text.dropWhile isSpace)
    generalize takeSign (text.dropWhile isSpace) = signed at h hsign
    obtain ⟨sign, signed⟩ := signed
    obtain ⟨hdigits, hvalue⟩ := Option.ite_none_left_eq_some.mp h
    refine ⟨text.takeWhile isSpace, ⟨sign, signed.takeWhile isDigit, hdigits, ?_⟩,
      signed.dropWhile isDigit, ⟨?_, ?_, ?_⟩, Option.some.inj hvalue⟩
    · exact fun b hb => List.mem_takeWhile_imp hb
    · show text = text.takeWhile isSpace ++
        ((sign.text ++ signed.takeWhile isDigit) ++ signed.dropWhile isDigit)
      rw [List.append_assoc, List.takeWhile_append_dropWhile, ← hsign,
        List.takeWhile_append_dropWhile]
    · exact fun b hb => List.mem_takeWhile_imp hb
    · intro b hb
      have := List.head?_dropWhile_not isDigit signed
      rw [hb] at this
      simpa using this
  · rintro ⟨spaces, l, rest, hleads, rfl⟩
    exact strtol_of_leads hleads

theorem stoi_eq_some {v : ℤ} : stoi text = some v ↔
    ∃ spaces l rest, Leads text spaces l rest ∧ l.value = v ∧ Signed.Fits v := by
  unfold stoi
  rw [Option.filter_eq_some_iff, strtol_eq_some]
  constructor
  · rintro ⟨⟨spaces, l, rest, hleads, hvalue⟩, hfits⟩
    exact ⟨spaces, l, rest, hleads, hvalue, of_decide_eq_true hfits⟩
  · rintro ⟨spaces, l, rest, hleads, hvalue, hfits⟩
    exact ⟨⟨spaces, l, rest, hleads, hvalue⟩, decide_eq_true hfits⟩

/-- A text that is a literal begins with no other. -/
theorem eq_of_leads {l' : Literal} (h : Leads l'.text spaces l rest) :
    spaces = [] ∧ rest = [] ∧ l.value = l'.value := by
  have hvalue : l.value = l'.value :=
    Option.some.inj ((strtol_of_leads h).symm.trans (strtol_of_leads (leads_text l')))
  have hbegin := @dropWhile_spaces l' [] [] nofun
  rw [List.nil_append, List.append_nil] at hbegin
  have htext : l'.text = l.text ++ rest := by
    rw [← hbegin, h.text]
    exact dropWhile_spaces h.spaces
  have hspaces : spaces = [] := by
    have hlength := congrArg List.length h.text
    rw [htext, @List.length_append _ spaces] at hlength
    exact List.length_eq_zero_iff.mp (by omega)
  have hdigits : l'.digits = l.digits ++ rest := by
    have hsigned := takeSign_text l' []
    rw [List.append_nil, List.append_nil, htext, takeSign_text] at hsigned
    exact (Prod.mk.inj hsigned).2.symm
  refine ⟨hspaces, ?_, hvalue⟩
  cases hrest : rest with
  | nil => rfl
  | cons b more =>
    have hdigit := l'.decimal b (hdigits ▸ List.mem_append_right _ (hrest ▸ List.mem_cons_self))
    rw [h.ends b (hrest ▸ rfl)] at hdigit
    exact absurd hdigit (by simp)

/-! ## The digits of a number -/

/-- The digits of `n`, the highest first, and no more than it has. -/
def digitsOf (n : ℕ) : List UInt8 :=
  if n < 10 then [48 + UInt8.ofNat n] else digitsOf (n / 10) ++ [48 + UInt8.ofNat (n % 10)]

theorem isDigit_add {d : ℕ} (h : d < 10) :
    isDigit (48 + UInt8.ofNat d) = true ∧ digit (48 + UInt8.ofNat d) = d := by
  revert d
  decide

theorem digitsOf_of_lt {n : ℕ} (h : n < 10) : digitsOf n = [48 + UInt8.ofNat n] := by
  rw [digitsOf, if_pos h]

theorem digitsOf_of_le {n : ℕ} (h : 10 ≤ n) :
    digitsOf n = digitsOf (n / 10) ++ [48 + UInt8.ofNat (n % 10)] := by
  rw [digitsOf, if_neg (not_lt.mpr h)]

theorem isDigit_digitsOf (n : ℕ) : ∀ b ∈ digitsOf n, isDigit b = true := by
  induction n using Nat.strong_induction_on with
  | _ n ih =>
    rcases Nat.lt_or_ge n 10 with hlt | hle
    · rw [digitsOf_of_lt hlt]
      intro b hb
      rw [List.mem_singleton.mp hb]
      exact (isDigit_add hlt).1
    · rw [digitsOf_of_le hle]
      intro b hb
      rcases List.mem_append.mp hb with hb | hb
      · exact ih (n / 10) (by omega) b hb
      · rw [List.mem_singleton.mp hb]
        exact (isDigit_add (Nat.mod_lt n (by decide))).1

theorem digitsOf_ne_nil (n : ℕ) : digitsOf n ≠ [] := by
  unfold digitsOf
  split_ifs <;> simp

/-- **They denote the number.** -/
theorem natural_digitsOf (n : ℕ) : natural (digitsOf n) = n := by
  induction n using Nat.strong_induction_on with
  | _ n ih =>
    rcases Nat.lt_or_ge n 10 with hlt | hle
    · rw [digitsOf_of_lt hlt]
      change 0 * 10 + digit (48 + UInt8.ofNat n) = n
      rw [(isDigit_add hlt).2]
      omega
    · rw [digitsOf_of_le hle, natural_concat, ih (n / 10) (by omega),
        (isDigit_add (Nat.mod_lt n (by decide))).2]
      omega

/-- There is no zero before them. -/
theorem head_digitsOf {n : ℕ} (h : 0 < n) : (digitsOf n).head? ≠ some 48 := by
  induction n using Nat.strong_induction_on with
  | _ n ih =>
    rcases Nat.lt_or_ge n 10 with hlt | hle
    · rw [digitsOf_of_lt hlt]
      intro heq
      have hdigit := (isDigit_add hlt).2
      rw [Option.some.inj heq] at hdigit
      exact absurd hdigit (by change 0 ≠ n; omega)
    · obtain ⟨b, digits, hdigits⟩ := List.exists_cons_of_ne_nil (digitsOf_ne_nil (n / 10))
      have hbefore := ih (n / 10) (by omega) (by omega)
      rw [hdigits] at hbefore
      rw [digitsOf_of_le hle, hdigits]
      exact hbefore

/-- The text of an integer. -/
def intText (n : ℤ) : List UInt8 :=
  if n < 0 then 45 :: digitsOf n.natAbs else digitsOf n.natAbs

end

end Decimal
