import Mathlib.Data.List.Infix
import Mathlib.Data.List.TakeWhile

/-!
# Compact JSON, searched

A flat object in its compact encoding, and what a search for the text of a key finds in it.

* `escape s`: a string between its quotes. `escape_eq_self`: what stands for itself.
* `Value`, `objectText`: the values of a flat object, and its text.
* `after needle body`: the text behind the first place where `needle` stands.
* **`after_object`**: a search for a quoted name with a colon and the beginning of a value behind it
  finds the first member whose value begins so and whose key is the name, or ends in it behind a
  quote of its own.
-/

namespace Json

/-! ## Strings -/

/-- A byte that stands for itself in a string. -/
def Plain (b : UInt8) : Prop := b ≠ 34 ∧ b ≠ 92 ∧ 32 ≤ b

instance (b : UInt8) : Decidable (Plain b) := by
  unfold Plain; infer_instance

def hexDigit (n : UInt8) : UInt8 := if n < 10 then 48 + n else 87 + n

/-- A byte of a string: the quote, the backslash and the control characters are escaped. -/
def escapeByte (b : UInt8) : List UInt8 :=
  if b = 34 then [92, 34]
  else if b = 92 then [92, 92]
  else if b = 8 then [92, 98]
  else if b = 9 then [92, 116]
  else if b = 10 then [92, 110]
  else if b = 12 then [92, 102]
  else if b = 13 then [92, 114]
  else if b < 32 then [92, 117, 48, 48, hexDigit (b / 16), hexDigit (b % 16)]
  else [b]

/-- A string between its quotes. -/
def escape (s : List UInt8) : List UInt8 := s.flatMap escapeByte

/-- A string before what follows it. -/
def stringText (s rest : List UInt8) : List UInt8 := 34 :: (escape s ++ 34 :: rest)

/-- The three ways a byte is written. -/
inductive Escaped (b : UInt8) (text : List UInt8) : Prop
  | itself (plain : Plain b) (text : text = [b])
  | quote (byte : b = 34) (text : text = [92, 34])
  | other (byte : b ≠ 34) (plain : ¬ Plain b) (tail : List UInt8) (nonempty : tail ≠ [])
      (unquoted : 34 ∉ tail) (text : text = 92 :: tail)

theorem control_escaped : ∀ n < 32, ∃ tail, escapeByte (UInt8.ofNat n) = 92 :: tail ∧ tail ≠ [] ∧
    34 ∉ tail := by
  intro n hn
  refine ⟨(escapeByte (UInt8.ofNat n)).tail, ?_⟩
  revert n
  decide

theorem escaped (b : UInt8) : Escaped b (escapeByte b) := by
  by_cases hquote : b = 34
  · subst hquote
    exact .quote rfl rfl
  by_cases hslash : b = 92
  · subst hslash
    exact .other (by decide) (by decide) [92] (by decide) (by decide) rfl
  by_cases hcontrol : b < 32
  · obtain ⟨tail, htext, hnonempty, hunquoted⟩ := control_escaped b.toNat hcontrol
    rw [UInt8.ofNat_toNat] at htext
    exact .other hquote (fun h => absurd h.2.2 (UInt8.not_le.mpr hcontrol)) tail hnonempty
      hunquoted htext
  · have hge : 32 ≤ b := UInt8.not_lt.mp hcontrol
    refine .itself ⟨hquote, hslash, hge⟩ ?_
    have hne : ∀ c : UInt8, c < 32 → b ≠ c := by
      rintro c hc rfl
      exact hcontrol hc
    unfold escapeByte
    rw [if_neg hquote, if_neg hslash, if_neg (hne 8 (by decide)), if_neg (hne 9 (by decide)),
      if_neg (hne 10 (by decide)), if_neg (hne 12 (by decide)), if_neg (hne 13 (by decide)),
      if_neg hcontrol]

variable {s rest needle body : List UInt8} {b : UInt8}

theorem escape_cons : escape (b :: s) = escapeByte b ++ escape s := List.flatMap_cons

theorem plain_of_all (h : s.all (fun b => decide (Plain b)) = true) : ∀ b ∈ s, Plain b :=
  fun b hb => of_decide_eq_true (List.all_eq_true.mp h b hb)

theorem escape_plain (h : ∀ b ∈ s, Plain b) : escape s = s := by
  induction s with
  | nil => rfl
  | cons b s ih =>
    have hb := h b List.mem_cons_self
    rw [escape_cons, ih fun c hc => h c (List.mem_cons_of_mem b hc)]
    cases escaped b with
    | itself _ htext => rw [htext, List.singleton_append]
    | quote hquote _ => exact absurd hquote hb.1
    | other _ hplain => exact absurd hb hplain

/-- Only a quote is written with a quote. -/
theorem quote_mem_escape : 34 ∈ escape s ↔ 34 ∈ s := by
  induction s with
  | nil => exact Iff.rfl
  | cons b s ih =>
    rw [escape_cons, List.mem_append, List.mem_cons, ih]
    refine or_congr_left ?_
    cases escaped b with
    | itself _ htext => rw [htext, List.mem_singleton]
    | quote hquote htext =>
      rw [htext, hquote]
      simp
    | other hquote _ tail _ hunquoted htext =>
      rw [htext, List.mem_cons]
      simp [hunquoted, Ne.symm hquote]

theorem length_le_escape (s : List UInt8) : s.length ≤ (escape s).length := by
  induction s with
  | nil => exact le_refl _
  | cons b s ih =>
    rw [escape_cons, List.length_append, List.length_cons]
    cases escaped b with
    | itself _ htext => rw [htext, List.length_singleton]; omega
    | quote _ htext => rw [htext]; simp; omega
    | other _ _ tail _ _ htext => rw [htext, List.length_cons]; omega

/-- What is escaped gets longer. -/
theorem plain_of_length (h : (escape s).length = s.length) : ∀ b ∈ s, Plain b := by
  induction s with
  | nil => exact fun b hb => absurd hb List.not_mem_nil
  | cons b s ih =>
    have hle := length_le_escape s
    rw [escape_cons, List.length_append, List.length_cons] at h
    cases escaped b with
    | itself hplain htext =>
      rw [htext, List.length_singleton] at h
      intro c hc
      rcases List.mem_cons.mp hc with rfl | hc
      · exact hplain
      · exact ih (by omega) c hc
    | quote _ htext =>
      rw [htext] at h
      simp only [List.length_cons, List.length_nil] at h
      omega
    | other _ _ tail hnonempty _ htext =>
      have hpos := List.length_pos_iff.mpr hnonempty
      rw [htext, List.length_cons] at h
      omega

/-- **What stands for itself** has nothing to escape. -/
theorem escape_eq_self : escape s = s ↔ ∀ b ∈ s, Plain b :=
  ⟨fun h => plain_of_length (congrArg List.length h), escape_plain⟩

/-! ## Searching -/

/-- The text behind the first place where `needle` stands. -/
def after (needle : List UInt8) : List UInt8 → Option (List UInt8)
  | [] => if needle = [] then some [] else none
  | b :: body =>
    if needle <+: b :: body then some ((b :: body).drop needle.length) else after needle body

theorem after_skip (h : ¬ needle <+: b :: body) : after needle (b :: body) = after needle body :=
  if_neg h

/-- How a value begins: like a string, or with `true`. -/
inductive Opening
  | string | yes
  deriving DecidableEq

def Opening.text : Opening → List UInt8
  | string => [34]
  | yes => [116, 114, 117, 101]

/-- What is searched for: a quoted name, a colon, and how a value begins. -/
structure Marker where
  name : List UInt8
  opening : Opening
  plain : ∀ b ∈ name, Plain b
  /-- The name does not begin like what may stand behind a string. -/
  head : ∀ b ∈ name.head?, b ≠ 58 ∧ b ≠ 44 ∧ b ≠ 125
  nonempty : name ≠ []

namespace Marker

variable (m : Marker)

abbrev value : List UInt8 := m.opening.text

def text : List UInt8 := 34 :: (m.name ++ 34 :: 58 :: m.value)

/-- The key is the name, or ends in it behind a quote of its own. -/
def Ends (key : List UInt8) : Prop := key = m.name ∨ 34 :: m.name <:+ key

instance (key : List UInt8) : Decidable (m.Ends key) := by
  unfold Ends; infer_instance

end Marker

variable {m : Marker}

theorem after_other (h : b ≠ 34) : after m.text (b :: body) = after m.text body :=
  after_skip fun hpre => h (List.cons_prefix_cons.mp hpre).1.symm

/-- There is nothing to find before the first quote. -/
theorem after_unquoted {before : List UInt8} (h : 34 ∉ before) :
    after m.text (before ++ body) = after m.text body := by
  induction before with
  | nil => rfl
  | cons b before ih =>
    rw [List.mem_cons, not_or] at h
    rw [List.cons_append, after_other (Ne.symm h.1), ih h.2]

/-- A plain name and its quote stand at the beginning of a string only if they are all of it. -/
theorem prefix_escape {name c : List UInt8} (h : ∀ b ∈ name, Plain b) :
    name ++ 34 :: c <+: escape s ++ 34 :: rest ↔ s = name ∧ c <+: rest := by
  induction s generalizing name with
  | nil =>
    cases name with
    | nil => simp [escape]
    | cons n name =>
      have hn := (h n List.mem_cons_self).1
      simp [escape, hn]
  | cons b s ih =>
    rw [escape_cons]
    cases name with
    | nil =>
      cases escaped b with
      | itself hplain htext => simp [htext, hplain.1.symm]
      | quote _ htext => simp [htext]
      | other _ _ tail _ _ htext => simp [htext]
    | cons n name =>
      have hn := h n List.mem_cons_self
      have ih' := @ih name fun c hc => h c (List.mem_cons_of_mem n hc)
      cases escaped b with
      | itself _ htext =>
        rw [htext, List.singleton_append, List.cons_append, List.cons_append,
          List.cons_prefix_cons, ih', List.cons.injEq]
        tauto
      | quote hquote htext =>
        have hne : b ≠ n := fun hb => hn.1 (hb ▸ hquote)
        simp [htext, hn.2.1, hne]
      | other _ hplain tail _ _ htext =>
        have hne : b ≠ n := fun hb => hplain (hb ▸ hn)
        simp [htext, hn.2.1, hne]

theorem prefix_string : m.text <+: 34 :: (escape s ++ 34 :: rest) ↔
    s = m.name ∧ 58 :: m.value <+: rest := by
  unfold Marker.text
  rw [List.cons_prefix_cons, prefix_escape m.plain]
  simp

/-- What the text behind a match is: the rest without the colon and the beginning of the value. -/
theorem drop_string (h : s = m.name) :
    (34 :: (escape s ++ 34 :: rest)).drop m.text.length = rest.drop (m.value.length + 1) := by
  subst h
  have hlength : m.text.length = (34 :: (m.name ++ [34])).length + (m.value.length + 1) := by
    unfold Marker.text
    simp only [List.length_cons, List.length_append, List.length_nil]
    omega
  have htext : 34 :: (escape m.name ++ 34 :: rest) = 34 :: (m.name ++ [34]) ++ rest := by
    rw [escape_plain m.plain]
    simp
  rw [hlength, htext, ← List.drop_drop, List.drop_left]

/-- What stands behind a value: a comma or the end of the object. -/
def Closes (rest : List UInt8) : Prop := ∃ b tail, rest = b :: tail ∧ (b = 44 ∨ b = 125)

/-- What stands behind a string: a colon, or what stands behind a value. -/
def Follows (rest : List UInt8) : Prop := (∃ tail, rest = 58 :: tail) ∨ Closes rest

theorem after_closing (h : Follows rest) : after m.text (34 :: rest) = after m.text rest := by
  refine after_skip fun hpre => ?_
  obtain ⟨b, tail, rfl, hb⟩ : ∃ b tail, rest = b :: tail ∧ (b = 58 ∨ b = 44 ∨ b = 125) := by
    rcases h with ⟨tail, rfl⟩ | ⟨b, tail, rfl, hb⟩
    · exact ⟨58, tail, rfl, Or.inl rfl⟩
    · exact ⟨b, tail, rfl, Or.inr hb⟩
  obtain ⟨n, name, hname⟩ := List.exists_cons_of_ne_nil m.nonempty
  have hhead := m.head n (by rw [hname]; rfl)
  unfold Marker.text at hpre
  rw [hname] at hpre
  have hbyte : n = b := (List.cons_prefix_cons.mp (List.cons_prefix_cons.mp hpre).2).1
  rcases hb with rfl | rfl | rfl
  · exact hhead.1 hbyte
  · exact hhead.2.1 hbyte
  · exact hhead.2.2 hbyte

/-- A quote within a string is found if the string ends in the name behind it. -/
theorem after_escape (hrest : Follows rest) : after m.text (escape s ++ 34 :: rest) =
    if 34 :: m.name <:+ s ∧ 58 :: m.value <+: rest then some (rest.drop (m.value.length + 1))
    else after m.text rest := by
  induction s with
  | nil =>
    rw [if_neg fun h => absurd (List.IsSuffix.length_le h.1) (by simp)]
    exact after_closing hrest
  | cons b s ih =>
    have hsuffix : 34 :: m.name <:+ b :: s ↔ (b = 34 ∧ s = m.name) ∨ 34 :: m.name <:+ s := by
      rw [List.suffix_cons_iff, List.cons.injEq]
      tauto
    rw [escape_cons, List.append_assoc]
    cases escaped b with
    | itself hplain htext =>
      rw [htext, List.singleton_append, after_other hplain.1, ih]
      simp only [hsuffix, hplain.1, false_and, false_or]
    | quote hquote htext =>
      have hslash : (92 : UInt8) ≠ 34 := by decide
      rw [htext, List.cons_append, List.singleton_append, after_other hslash]
      by_cases hhere : s = m.name ∧ 58 :: m.value <+: rest
      · rw [if_pos ⟨hsuffix.mpr (Or.inl ⟨hquote, hhere.1⟩), hhere.2⟩]
        exact (if_pos (prefix_string.mpr hhere)).trans (congrArg some (drop_string hhere.1))
      · have hlater : (34 :: m.name <:+ b :: s ∧ 58 :: m.value <+: rest) ↔
            34 :: m.name <:+ s ∧ 58 :: m.value <+: rest := by
          rw [hsuffix]
          tauto
        rw [after_skip fun hpre => hhere (prefix_string.mp hpre), ih]
        simp only [hlater]
    | other hquote _ tail _ hunquoted htext =>
      have hnone : 34 ∉ 92 :: tail := by
        rw [List.mem_cons, not_or]
        exact ⟨by decide, hunquoted⟩
      rw [htext, after_unquoted hnone, ih]
      simp only [hsuffix, hquote, false_and, false_or]

/-- **A string** is found if it ends in the name and is followed as the marker says. -/
theorem after_string (hrest : Follows rest) : after m.text (stringText s rest) =
    if m.Ends s ∧ 58 :: m.value <+: rest then some (rest.drop (m.value.length + 1))
    else after m.text rest := by
  unfold stringText Marker.Ends
  by_cases hhere : s = m.name ∧ 58 :: m.value <+: rest
  · rw [if_pos ⟨Or.inl hhere.1, hhere.2⟩]
    exact (if_pos (prefix_string.mpr hhere)).trans (congrArg some (drop_string hhere.1))
  · rw [after_skip fun hpre => hhere (prefix_string.mp hpre), after_escape hrest]
    simp only [or_and_right, hhere, false_or]

/-! ## Objects -/

/-- A byte of a number. -/
def isNumber (b : UInt8) : Bool :=
  (48 ≤ b && b ≤ 57) || b == 43 || b == 45 || b == 46 || b == 69 || b == 101

/-- The values of a flat object. -/
inductive Value
  | string (s : List UInt8)
  | number (text : List UInt8) (numeric : ∀ b ∈ text, isNumber b = true)
  | bool (b : Bool)
  | null

namespace Value

/-- A value before what follows it. -/
def write (rest : List UInt8) : Value → List UInt8
  | string s => stringText s rest
  | number text _ => text ++ rest
  | bool true => [116, 114, 117, 101] ++ rest
  | bool false => [102, 97, 108, 115, 101] ++ rest
  | null => [110, 117, 108, 108] ++ rest

/-- How the value begins. -/
def opening : Value → Option Opening
  | string _ => some .string
  | bool true => some .yes
  | number .. | bool false | null => none

theorem opening_eq_string {v : Value} : v.opening = some .string ↔ ∃ s, v = .string s := by
  cases v with
  | bool b => cases b <;> simp [opening]
  | string s => simp [opening]
  | number text numeric => simp [opening]
  | null => simp [opening]

theorem opening_eq_yes {v : Value} : v.opening = some .yes ↔ v = .bool true := by
  cases v with
  | bool b => cases b <;> simp [opening]
  | string s => simp [opening]
  | number text numeric => simp [opening]
  | null => simp [opening]

/-- What is left of a value behind its opening. -/
def opened (rest : List UInt8) : Value → List UInt8
  | string s => escape s ++ 34 :: rest
  | number text _ => text ++ rest
  | bool _ | null => rest

end Value

/-- A member before what follows it. -/
def memberText (member : List UInt8 × Value) (rest : List UInt8) : List UInt8 :=
  stringText member.1 (58 :: member.2.write rest)

/-- The members, a comma between two, and the closing brace. -/
def membersText : List (List UInt8 × Value) → List UInt8
  | [] => [125]
  | [member] => memberText member [125]
  | member :: members => memberText member (44 :: membersText members)

/-- The compact text of a flat object. -/
def objectText (members : List (List UInt8 × Value)) : List UInt8 := 123 :: membersText members

variable {v : Value} {members : List (List UInt8 × Value)}

/-- A number and what follows it do not begin like a string or like `true`. -/
theorem not_opening_number {o : Opening} {text : List UInt8} (h : ∀ b ∈ text, isNumber b = true)
    (hrest : Closes rest) : ¬ o.text <+: text ++ rest := by
  obtain ⟨c, tail, rfl, hc⟩ := hrest
  have hhead : ∀ b body, b ≠ 34 → b ≠ 116 → ¬ o.text <+: b :: body := by
    rintro b body hquote ht hpre
    cases o with
    | string => exact hquote (List.cons_prefix_cons.mp hpre).1.symm
    | yes => exact ht (List.cons_prefix_cons.mp hpre).1.symm
  cases text with
  | nil =>
    rcases hc with rfl | rfl
    · exact hhead 44 tail (by decide) (by decide)
    · exact hhead 125 tail (by decide) (by decide)
  | cons b text =>
    have hb := h b List.mem_cons_self
    refine hhead b _ ?_ ?_
    · rintro rfl
      exact absurd hb (by decide)
    · rintro rfl
      exact absurd hb (by decide)

/-- A value is found where it begins as the marker says. -/
theorem opening_iff {o : Opening} (hrest : Closes rest) :
    o.text <+: v.write rest ↔ v.opening = some o := by
  cases v with
  | number text numeric => simp [Value.write, Value.opening, not_opening_number numeric hrest]
  | string s => cases o <;> simp [Value.write, Value.opening, stringText, Opening.text]
  | null => cases o <;> simp [Value.write, Value.opening, Opening.text]
  | bool b =>
    cases b with
    | true => cases o <;> simp [Value.write, Value.opening, Opening.text]
    | false => cases o <;> simp [Value.write, Value.opening, Opening.text]

theorem drop_opening {o : Opening} (h : v.opening = some o) :
    (v.write rest).drop o.text.length = v.opened rest := by
  cases v with
  | number text numeric => exact absurd h (by simp [Value.opening])
  | null => exact absurd h (by simp [Value.opening])
  | string s =>
    obtain rfl := Option.some.inj h
    rfl
  | bool b =>
    cases b with
    | true =>
      obtain rfl := Option.some.inj h
      rfl
    | false => exact absurd h (by simp [Value.opening])

/-- There is nothing to find in a value that is not behind a key. -/
theorem after_value (hrest : Closes rest) :
    after m.text (v.write rest) = after m.text rest := by
  cases v with
  | number text numeric =>
    refine after_unquoted fun hquote => ?_
    exact absurd (numeric 34 hquote) (by decide)
  | null => exact @after_unquoted _ _ [110, 117, 108, 108] (by decide)
  | bool b =>
    cases b with
    | true => exact @after_unquoted _ _ [116, 114, 117, 101] (by decide)
    | false => exact @after_unquoted _ _ [102, 97, 108, 115, 101] (by decide)
  | string s =>
    refine (after_string (Or.inr hrest)).trans (if_neg fun h => ?_)
    obtain ⟨b, tail, rfl, hb⟩ := hrest
    have hcolon : 58 = b := (List.cons_prefix_cons.mp h.2).1
    rcases hb with rfl | rfl <;> exact absurd hcolon (by decide)

/-- The marker stands in the member. -/
def Marker.hits (m : Marker) (member : List UInt8 × Value) : Bool :=
  decide (m.Ends member.1 ∧ member.2.opening = some m.opening)

theorem hits_iff {member : List UInt8 × Value} :
    m.hits member = true ↔ m.Ends member.1 ∧ member.2.opening = some m.opening :=
  decide_eq_true_iff

theorem after_member {member : List UInt8 × Value} (hrest : Closes rest) :
    after m.text (memberText member rest) =
      if m.hits member then some (member.2.opened rest) else after m.text rest := by
  have hstart : 58 :: m.value <+: 58 :: member.2.write rest ↔
      member.2.opening = some m.opening := by
    rw [List.cons_prefix_cons, and_iff_right rfl, opening_iff hrest]
  unfold memberText Marker.hits
  rw [after_string (Or.inl ⟨_, rfl⟩)]
  simp only [hstart, decide_eq_true_eq]
  split
  · rename_i hhit
    exact congrArg some (drop_opening hhit.2)
  · rw [after_other (by decide), after_value hrest]

theorem after_members (m : Marker) (members : List (List UInt8 × Value)) :
    match members.find? m.hits with
    | some member => ∃ rest, after m.text (membersText members) = some (member.2.opened rest)
    | none => after m.text (membersText members) = none := by
  induction members with
  | nil =>
    show after m.text [125] = none
    rw [after_other (by decide)]
    exact if_neg (by simp [Marker.text])
  | cons member members ih =>
    obtain ⟨rest, hrest, htext, hbehind⟩ : ∃ rest, Closes rest ∧
        membersText (member :: members) = memberText member rest ∧
        after m.text rest = after m.text (membersText members) := by
      cases members with
      | nil => exact ⟨[125], ⟨125, [], rfl, Or.inr rfl⟩, rfl, rfl⟩
      | cons member' members => exact ⟨_, ⟨44, _, rfl, Or.inl rfl⟩, rfl, after_other (by decide)⟩
    rw [htext, after_member hrest, List.find?_cons]
    cases hhit : m.hits member with
    | true => exact ⟨rest, rfl⟩
    | false =>
      rw [hbehind]
      exact ih

/-- **What a search finds in an object**: the first member that the marker stands in. -/
theorem after_object (m : Marker) (members : List (List UInt8 × Value)) :
    match members.find? m.hits with
    | some member => ∃ rest, after m.text (objectText members) = some (member.2.opened rest)
    | none => after m.text (objectText members) = none := by
  have hopen : after m.text (objectText members) = after m.text (membersText members) :=
    after_other (by decide)
  rw [hopen]
  exact after_members m members

end Json
