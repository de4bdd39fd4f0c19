import Redelivery.Json.Skip
import Redelivery.Proofs.Json.Scalar

/-!
# What a document may look like

A text of a document has many forms: blanks stand between its tokens, characters of a string
may be escaped, a number may have a fraction and an exponent.  Here is what these forms are,
told without the readers, and what the readers make of numbers and strings in any of them.

Main definitions:

* `Json.Blank`: blanks between tokens.
* `Json.Numeral`, `Json.Numeral.number`: a number as it is written, and which number it is.
* `Json.Spells`, `Json.Quotable`: what stands between the quotes of a string that is read, and
  of one that is passed over.
* `Json.Bracketed`: a list or an object, with blanks wherever they may stand.
* `Json.WellFormed`: a value of any kind.

Main results:

* Theorem `Json.Numeral.readNumber?_text`: a number is read as the one that it is.
* Theorem `Json.Spells.readText_eq`: a string is read as what it spells.
-/

namespace Redelivery
namespace Json

/-! ## Blanks -/

/-- Nothing but blanks. -/
def Blank (s : List Char) : Prop := ∀ c ∈ s, isBlank c = true

instance : DecidablePred Blank := fun s => decidable_of_iff (s.all isBlank = true) List.all_eq_true

theorem blank_nil : Blank [] := nofun

theorem Blank.append {s t : List Char} (h : Blank s) (h' : Blank t) : Blank (s ++ t) :=
  fun c hc => (List.mem_append.1 hc).elim (h c) (h' c)

theorem skipBlanks_blank {blanks : List Char} (h : Blank blanks) (s : List Char) :
    skipBlanks (blanks ++ s) = skipBlanks s :=
  List.dropWhile_append_of_pos h

theorem skipBlanks_cons {c : Char} (h : isBlank c = false) (s : List Char) :
    skipBlanks (c :: s) = c :: s :=
  List.dropWhile_cons_of_neg (by simp [h])

/-- Blanks before a value make no difference to its reader. -/
theorem atValue_blank {α : Type} (read : Reader α) {blanks : List Char} (h : Blank blanks)
    (s : List Char) : atValue read (blanks ++ s) = atValue read s := by
  unfold atValue
  rw [skipBlanks_blank h]

/-- A number does not go on with a blank. -/
theorem inNumber_of_isBlank {c : Char} (h : isBlank c = true) : inNumber c = false := by
  simp only [isBlank, Bool.or_eq_true, decide_eq_true_eq] at h
  rcases h with ((rfl | rfl) | rfl) | rfl <;> rfl

/-- What begins with blanks, or with a character that no number has, does not go on with a
number. -/
theorem ends_blank_append {blanks rest : List Char} (h : Blank blanks) (ends : Ends rest) :
    Ends (blanks ++ rest) := by
  cases blanks with
  | nil => exact ends
  | cons blank blanks =>
      rintro c ⟨rfl⟩
      exact inNumber_of_isBlank (h _ List.mem_cons_self)

theorem ends_cons {c : Char} (h : inNumber c = false) (s : List Char) : Ends (c :: s) := by
  rintro c' ⟨rfl⟩
  exact h

/-- A value begins with a character that is neither a blank nor a closing bracket. -/
def Starts (text : List Char) : Prop :=
  ∃ c s, text = c :: s ∧ isBlank c = false ∧ c ≠ ']'

theorem Starts.skipBlanks_append {text : List Char} (h : Starts text) (rest : List Char) :
    skipBlanks (text ++ rest) = text ++ rest := by
  rcases h with ⟨c, s, rfl, hc, -⟩
  exact skipBlanks_cons hc (s ++ rest)

/-! ## Numbers -/

/-- An exponent as it is written. -/
structure Exponent where
  mark : Char
  sign : Option Char
  digits : List Char
  mark_eq : mark = 'e' ∨ mark = 'E'
  sign_eq : ∀ c ∈ sign, c = '+' ∨ c = '-'
  digits_ne_nil : digits ≠ []
  isDigit_digits : ∀ c ∈ digits, Digits.isDigit c = true

namespace Exponent

def text (e : Exponent) : List Char := e.mark :: (e.sign.toList ++ e.digits)

def value (e : Exponent) : Int :=
  if e.sign = some '-' then -(Digits.value e.digits : Int) else Digits.value e.digits

end Exponent

/-- A number as it is written. -/
structure Numeral where
  negative : Bool
  whole : List Char
  fraction : Option (List Char)
  exponent : Option Exponent
  whole_ne_nil : whole ≠ []
  isDigit_whole : ∀ c ∈ whole, Digits.isDigit c = true
  /-- No digit follows on a zero in front. -/
  zero_alone : whole.head? = some '0' → whole.length = 1
  fraction_ne_nil : ∀ digits ∈ fraction, digits ≠ []
  isDigit_fraction : ∀ digits ∈ fraction, ∀ c ∈ digits, Digits.isDigit c = true

namespace Numeral

/-- The point and the digits after it. -/
def fractionText (n : Numeral) : List Char := n.fraction.elim [] ('.' :: ·)

def exponentText (n : Numeral) : List Char := n.exponent.elim [] Exponent.text

/-- The number without its sign. -/
def unsigned (n : Numeral) : List Char := n.whole ++ (n.fractionText ++ n.exponentText)

def text (n : Numeral) : List Char := if n.negative then '-' :: n.unsigned else n.unsigned

/-- The number that is written, unless it is out of range. -/
def number (n : Numeral) : Except Fault Number :=
  match n.fraction, n.exponent with
  | none, none => wholeNumber n.negative n.whole
  | fraction, exponent =>
      floatNumber n.negative n.whole (fraction.getD []) ((exponent.map Exponent.value).getD 0)

end Numeral

section

variable {digits rest : List Char}

/-- Digits end where no digit comes next. -/
theorem span_digits (all : ∀ c ∈ digits, Digits.isDigit c = true)
    (stops : ∀ c ∈ rest.head?, Digits.isDigit c = false) :
    Digits.span (digits ++ rest) = (digits, rest) := by
  rw [Digits.span_append_of_stops stops, Digits.span_of_all all]
  rfl

theorem exists_digit (nonempty : digits ≠ []) (all : ∀ c ∈ digits, Digits.isDigit c = true) :
    ∃ d more, digits = d :: more ∧ Digits.isDigit d = true := by
  rcases List.exists_cons_of_ne_nil nonempty with ⟨d, more, rfl⟩
  exact ⟨d, more, rfl, all d List.mem_cons_self⟩

theorem readExponentDigits_digits (nonempty : digits ≠ [])
    (all : ∀ c ∈ digits, Digits.isDigit c = true)
    (stops : ∀ c ∈ rest.head?, Digits.isDigit c = false) :
    readExponentDigits (digits ++ rest) = .ok (Digits.value digits, rest) := by
  have hspan := span_digits all stops
  rcases exists_digit nonempty all with ⟨d, more, rfl, hd⟩
  rw [List.cons_append] at hspan ⊢
  unfold readExponentDigits
  simp only [if_pos hd, hspan]

theorem skipDigits_digits (nonempty : digits ≠ [])
    (all : ∀ c ∈ digits, Digits.isDigit c = true)
    (stops : ∀ c ∈ rest.head?, Digits.isDigit c = false) :
    skipDigits (digits ++ rest) = .ok rest := by
  rw [skipDigits, span_digits all stops]
  simp [nonempty]

theorem ne_sign_of_isDigit {d : Char} (h : Digits.isDigit d = true) : d ≠ '-' ∧ d ≠ '+' := by
  constructor
  · rintro rfl
    cases h
  · rintro rfl
    cases h

/-- What follows on the mark of an exponent is its sign or a digit. -/
theorem Exponent.readExponent_eq (e : Exponent) (ends : Ends rest) :
    readExponent (e.text ++ rest) = .ok (some e.value, rest) := by
  have hdigits := readExponentDigits_digits e.digits_ne_nil e.isDigit_digits ends.stops
  rw [text, value, readExponent.eq_def, List.cons_append]
  simp only [if_pos e.mark_eq]
  cases hsign : e.sign with
  | none =>
      rcases exists_digit e.digits_ne_nil e.isDigit_digits with ⟨d, more, heq, hd⟩
      rcases ne_sign_of_isDigit hd with ⟨hminus, hplus⟩
      rw [heq, List.cons_append] at hdigits
      simp [heq, hminus, hplus, hdigits, Except.map]
  | some sign =>
      rcases e.sign_eq sign hsign with rfl | rfl
      · simp [hdigits, Except.map]
      · simp [hdigits, Except.map]

theorem Exponent.skipExponent_eq (e : Exponent) (ends : Ends rest) :
    skipExponent (e.text ++ rest) = .ok rest := by
  have hdigits := skipDigits_digits e.digits_ne_nil e.isDigit_digits ends.stops
  rw [text, skipExponent.eq_def, List.cons_append]
  simp only [if_pos e.mark_eq]
  cases hsign : e.sign with
  | none =>
      rcases exists_digit e.digits_ne_nil e.isDigit_digits with ⟨d, more, heq, hd⟩
      rcases ne_sign_of_isDigit hd with ⟨hminus, hplus⟩
      rw [heq, List.cons_append] at hdigits
      simp [heq, hminus, hplus, hdigits]
  | some sign =>
      rcases e.sign_eq sign hsign with rfl | rfl
      · simpa using hdigits
      · simpa using hdigits

end

namespace Numeral

variable (n : Numeral) {rest : List Char}

theorem readExponent_eq (ends : Ends rest) :
    readExponent (n.exponentText ++ rest) = .ok (n.exponent.map Exponent.value, rest) := by
  rw [exponentText]
  cases n.exponent with
  | none => exact ends.readExponent_eq
  | some e => exact e.readExponent_eq ends

theorem skipExponent_eq (ends : Ends rest) : skipExponent (n.exponentText ++ rest) = .ok rest := by
  rw [exponentText]
  cases n.exponent with
  | none =>
      change skipExponent rest = .ok rest
      cases rest with
      | nil => rfl
      | cons c rest =>
          have hnot := ends c rfl
          simp only [inNumber, Bool.or_eq_false_iff, decide_eq_false_iff_not] at hnot
          simp [skipExponent, hnot.1.2, hnot.2]
  | some e => exact e.skipExponent_eq ends

/-- An exponent is no digit, nor a point. -/
theorem stops_exponentText (ends : Ends rest) :
    ∀ c ∈ (n.exponentText ++ rest).head?, Digits.isDigit c = false ∧ c ≠ '.' := by
  rw [exponentText]
  cases n.exponent with
  | none =>
      intro c hc
      have hnot := ends c hc
      simp only [inNumber, Bool.or_eq_false_iff, decide_eq_false_iff_not] at hnot
      exact ⟨hnot.1.1.1, hnot.1.1.2⟩
  | some e =>
      rintro c ⟨rfl⟩
      rcases e.mark_eq with hmark | hmark
      · rw [hmark]
        decide
      · rw [hmark]
        decide

theorem tail_of_none (h : n.fraction = none) (rest : List Char) :
    n.fractionText ++ (n.exponentText ++ rest) = n.exponentText ++ rest := by
  rw [fractionText, h]
  rfl

theorem tail_of_some {digits : List Char} (h : n.fraction = some digits) (rest : List Char) :
    n.fractionText ++ (n.exponentText ++ rest) =
      '.' :: (digits ++ (n.exponentText ++ rest)) := by
  rw [fractionText, h]
  rfl

/-- What follows on the digits in front is no digit. -/
theorem stops_fractionText (ends : Ends rest) :
    ∀ c ∈ (n.fractionText ++ (n.exponentText ++ rest)).head?, Digits.isDigit c = false := by
  rw [fractionText]
  cases n.fraction with
  | none => exact fun c hc => (n.stops_exponentText ends c hc).1
  | some digits =>
      rintro c ⟨rfl⟩
      rfl

theorem readWhole_eq (stops : ∀ c ∈ rest.head?, Digits.isDigit c = false) :
    readWhole (n.whole ++ rest) = .ok (n.whole, rest) := by
  unfold readWhole
  rw [span_digits n.isDigit_whole stops]
  dsimp only
  rw [if_neg (by simp [n.whole_ne_nil]), if_neg]
  rintro ⟨hzero, hlength⟩
  exact absurd (n.zero_alone hzero) (Nat.ne_of_gt hlength)

/-- A number is read as the one that it is. -/
theorem readNumber_unsigned {x : Number} (h : n.number = .ok x) (ends : Ends rest) :
    readNumber n.negative (n.unsigned ++ rest) = .ok (x, rest) := by
  have hexponent := n.readExponent_eq ends
  rw [unsigned, List.append_assoc, List.append_assoc, readNumber,
    n.readWhole_eq (n.stops_fractionText ends), ok_bind]
  dsimp only
  unfold number at h
  cases hfraction : n.fraction with
  | none =>
      rw [hfraction] at h
      rw [n.tail_of_none hfraction]
      split
      case h_1 s heq => exact absurd rfl (n.stops_exponentText ends '.' (by rw [heq]; rfl)).2
      case h_2 =>
        rw [hexponent, ok_bind]
        cases hvalue : n.exponent with
        | none =>
            rw [hvalue] at h
            exact bind_eq_ok.2 ⟨x, h, rfl⟩
        | some e =>
            rw [hvalue] at h
            exact bind_eq_ok.2 ⟨x, h, rfl⟩
  | some digits =>
      rw [hfraction] at h
      have hdigits : readFraction (digits ++ (n.exponentText ++ rest)) =
          .ok (digits, n.exponentText ++ rest) := by
        unfold readFraction
        rw [span_digits (n.isDigit_fraction digits hfraction)
          fun c hc => (n.stops_exponentText ends c hc).1]
        dsimp only
        rw [if_neg (by simp [n.fraction_ne_nil digits hfraction])]
      rw [n.tail_of_some hfraction]
      refine bind_eq_ok.2 ⟨_, hdigits, bind_eq_ok.2 ⟨_, hexponent, ?_⟩⟩
      exact bind_eq_ok.2 ⟨x, h, rfl⟩

/-- A number begins with its sign or with a digit. -/
theorem exists_text_eq :
    ∃ c s, n.text = c :: s ∧ (c = '-' ∨ Digits.isDigit c = true) := by
  rcases exists_digit n.whole_ne_nil n.isDigit_whole with ⟨d, digits, hwhole, hd⟩
  rw [text]
  split
  case isTrue => exact ⟨_, _, rfl, .inl rfl⟩
  case isFalse =>
    rw [unsigned, hwhole]
    exact ⟨_, _, rfl, .inr hd⟩

theorem readNumber?_text {x : Number} (h : n.number = .ok x) (ends : Ends rest) :
    readNumber? (n.text ++ rest) = some (.ok (x, rest)) := by
  have hread := n.readNumber_unsigned h ends
  rw [text]
  cases hnegative : n.negative with
  | true =>
      rw [hnegative] at hread
      exact congrArg some hread
  | false =>
      rw [hnegative] at hread
      rcases exists_digit n.whole_ne_nil n.isDigit_whole with ⟨d, digits, hwhole, hd⟩
      rw [if_neg Bool.false_ne_true]
      rw [unsigned, hwhole, List.cons_append, List.cons_append] at hread ⊢
      unfold readNumber?
      split
      case h_1 heq =>
        obtain ⟨rfl, -⟩ := List.cons.inj heq
        cases hd
      case h_2 c s _ heq =>
        obtain ⟨rfl, rfl⟩ := List.cons.inj heq
        rw [if_pos hd, hread]
      case h_3 heq => cases heq

/-- A number is passed over whatever it is. -/
theorem skipNumber_unsigned (ends : Ends rest) : skipNumber (n.unsigned ++ rest) = .ok rest := by
  have hexponent := n.skipExponent_eq ends
  have hwhole : ¬(n.whole.isEmpty = true ∨ (n.whole.head? = some '0' ∧ 1 < n.whole.length)) := by
    rintro (hnil | ⟨hzero, hlength⟩)
    · exact n.whole_ne_nil (List.isEmpty_iff.1 hnil)
    · exact absurd (n.zero_alone hzero) (Nat.ne_of_gt hlength)
  rw [unsigned, List.append_assoc, List.append_assoc, skipNumber,
    span_digits n.isDigit_whole (n.stops_fractionText ends)]
  dsimp only
  rw [if_neg hwhole]
  cases hfraction : n.fraction with
  | none =>
      rw [n.tail_of_none hfraction]
      split
      case h_1 s heq => exact absurd rfl (n.stops_exponentText ends '.' (by rw [heq]; rfl)).2
      case h_2 => exact hexponent
  | some digits =>
      have hdigits : skipDigits (digits ++ (n.exponentText ++ rest)) =
          .ok (n.exponentText ++ rest) :=
        skipDigits_digits (n.fraction_ne_nil digits hfraction)
          (n.isDigit_fraction digits hfraction) fun c hc => (n.stops_exponentText ends c hc).1
      rw [n.tail_of_some hfraction]
      exact bind_eq_ok.2 ⟨_, hdigits, hexponent⟩

end Numeral

/-! ## Strings -/

/-- What stands between the quotes of a string spells a text: a character stands for itself or is
escaped, by a letter, by the four digits of its number, or by those of a surrogate pair. -/
inductive Spells : List Char → List Char → Prop
  | nil : Spells [] []
  | plain {c : Char} {body chars : List Char} (quote : c ≠ '"') (backslash : c ≠ '\\')
      (control : ¬c.toNat < 0x20) (rest : Spells body chars) : Spells (c :: body) (c :: chars)
  | escaped {e c : Char} {body chars : List Char} (stands : escaped? e = some c)
      (rest : Spells body chars) : Spells ('\\' :: e :: body) (c :: chars)
  | unit {h₁ h₂ h₃ h₄ : Char} {unit : Nat} {body chars : List Char}
      (digits : hexUnit? h₁ h₂ h₃ h₄ = some unit) (single : ¬(0xd800 ≤ unit ∧ unit < 0xe000))
      (rest : Spells body chars) :
      Spells ('\\' :: 'u' :: h₁ :: h₂ :: h₃ :: h₄ :: body) (Char.ofNat unit :: chars)
  | pair {h₁ h₂ h₃ h₄ l₁ l₂ l₃ l₄ : Char} {high low : Nat} {body chars : List Char}
      (highDigits : hexUnit? h₁ h₂ h₃ h₄ = some high) (isHigh : 0xd800 ≤ high ∧ high < 0xdc00)
      (lowDigits : hexUnit? l₁ l₂ l₃ l₄ = some low) (isLow : 0xdc00 ≤ low ∧ low < 0xe000)
      (rest : Spells body chars) :
      Spells ('\\' :: 'u' :: h₁ :: h₂ :: h₃ :: h₄ :: '\\' :: 'u' :: l₁ :: l₂ :: l₃ :: l₄ :: body)
        (Char.ofNat ((high - 0xd800) * 0x400 + (low - 0xdc00) + 0x10000) :: chars)

/-- A string is read as what it spells. -/
theorem Spells.readChars_eq {body chars : List Char} (h : Spells body chars) (rest : List Char) :
    readChars none (body ++ '"' :: rest) = .ok (chars, rest) := by
  induction h with
  | nil => rfl
  | plain quote backslash control rest ih =>
      simp [readChars, quote, backslash, control, ih, Except.map]
  | escaped stands rest ih =>
      rw [List.cons_append, List.cons_append, readChars_escaped stands, ih]
      rfl
  | @unit h₁ h₂ h₃ h₄ unit body chars digits single rest ih =>
      have hjoin : joinUnit none unit = .ok (.char (Char.ofNat unit)) := by
        rw [joinUnit, if_neg (by omega), if_neg (by omega)]
      simp only [List.cons_append]
      rw [readChars, digits]
      dsimp only
      rw [hjoin]
      dsimp only
      rw [ih]
      rfl
  | @pair h₁ h₂ h₃ h₄ l₁ l₂ l₃ l₄ high low body chars highDigits isHigh lowDigits isLow rest ih =>
      have hhigh : joinUnit none high = .ok (.half high) := by
        rw [joinUnit, if_neg (by omega), if_pos isHigh]
      have hlow : joinUnit (some high) low = .ok
          (.char (Char.ofNat ((high - 0xd800) * 0x400 + (low - 0xdc00) + 0x10000))) := by
        rw [joinUnit, if_pos isLow]
      simp only [List.cons_append]
      rw [readChars, highDigits]
      dsimp only
      rw [hhigh]
      dsimp only
      rw [readChars, lowDigits]
      dsimp only
      rw [hlow]
      dsimp only
      rw [ih]
      rfl

theorem Spells.readText_eq {name : String} {body : List Char} (h : Spells body name.toList)
    (rest : List Char) : readText (body ++ '"' :: rest) = .ok (name, rest) := by
  rw [readText, h.readChars_eq]
  exact congrArg (fun name => Except.ok (name, rest)) String.ofList_toList

/-- What may stand between the quotes of a string, whether or not it spells a text: halves of
surrogate pairs may stand alone. -/
inductive Quotable : List Char → Prop
  | nil : Quotable []
  | plain {c : Char} {body : List Char} (quote : c ≠ '"') (backslash : c ≠ '\\')
      (control : ¬c.toNat < 0x20) (rest : Quotable body) : Quotable (c :: body)
  | escaped {e c : Char} {body : List Char} (stands : escaped? e = some c)
      (rest : Quotable body) : Quotable ('\\' :: e :: body)
  | unit {h₁ h₂ h₃ h₄ : Char} {unit : Nat} {body : List Char}
      (digits : hexUnit? h₁ h₂ h₃ h₄ = some unit) (rest : Quotable body) :
      Quotable ('\\' :: 'u' :: h₁ :: h₂ :: h₃ :: h₄ :: body)

/-- A string is passed over whatever it spells. -/
theorem Quotable.skipText_eq {body : List Char} (h : Quotable body) (rest : List Char) :
    skipText (body ++ '"' :: rest) = .ok rest := by
  induction h with
  | nil => rfl
  | plain quote backslash control rest ih => simp [skipText, quote, backslash, control, ih]
  | @escaped e c body stands rest ih =>
      have hunit : e ≠ 'u' := by
        rintro rfl
        cases stands
      simp [skipText, hunit, stands, ih]
  | unit digits rest ih => simp [skipText, digits, ih]

/-! ## Lists and objects -/

/-- The character that opens it. -/
def Open.opener : Open → Char
  | .list => '['
  | .object => '\x7b'

section

variable {κ : Type} {o : Open} {Key : κ → List Char → Prop}

/-- What follows an item of a list or an object: the closing character, or a comma and the next
item.  An item is a value behind its key. -/
inductive Trail (o : Open) (Key : κ → List Char → Prop) : List (κ × List Char) → List Char → Prop
  | close {blanks : List Char} (blank : Blank blanks) : Trail o Key [] (blanks ++ [o.closer])
  | next {key : κ} {lead value text before between inner : List Char} {items : List (κ × List Char)}
      (blank : Blank before) (blank' : Blank between) (blank'' : Blank inner) (leads : Key key lead)
      (trail : Trail o Key items text) :
      Trail o Key ((key, value) :: items)
        (before ++ ',' :: (between ++ (lead ++ (inner ++ (value ++ text)))))

/-- A list or an object with these items, each with its key and the text of its value. -/
inductive Bracketed (o : Open) (Key : κ → List Char → Prop) :
    List (κ × List Char) → List Char → Prop
  | empty {blanks : List Char} (blank : Blank blanks) :
      Bracketed o Key [] (o.opener :: (blanks ++ [o.closer]))
  | items {key : κ} {lead value text before inner : List Char} {items : List (κ × List Char)}
      (blank : Blank before) (blank' : Blank inner) (leads : Key key lead)
      (trail : Trail o Key items text) :
      Bracketed o Key ((key, value) :: items)
        (o.opener :: (before ++ (lead ++ (inner ++ (value ++ text)))))

theorem inNumber_closer (o : Open) : inNumber o.closer = false := by
  cases o <;> rfl

/-- A value ends where another item or the closing character follows. -/
theorem Trail.ends {items : List (κ × List Char)} {text : List Char} (h : Trail o Key items text)
    (rest : List Char) : Ends (text ++ rest) := by
  cases h with
  | close blank =>
      rw [List.append_assoc]
      exact ends_blank_append blank (ends_cons (inNumber_closer o) rest)
  | next blank =>
      rw [List.append_assoc]
      exact ends_blank_append blank (ends_cons rfl _)

end

/-- The key of a member with its colon, after whose quote `body` stands. -/
def keyText (body blanks : List Char) : List Char := '"' :: (body ++ '"' :: (blanks ++ [':']))

/-- What comes before the value of an item: nothing in a list, and a key in an object. -/
inductive Leads : Open → List Char → Prop
  | list : Leads .list []
  | object {body blanks : List Char} (quotable : Quotable body) (blank : Blank blanks) :
      Leads .object (keyText body blanks)

/-- The key spells a name. -/
inductive Names (name : String) : List Char → Prop
  | intro {body blanks : List Char} (spells : Spells body name.toList) (blank : Blank blanks) :
      Names name (keyText body blanks)

/-- A character that stands for itself in a string. -/
def isPlain (c : Char) : Bool := c ≠ '"' && c ≠ '\\' && !(c.toNat < 0x20 : Bool)

/-- A name with nothing to escape spells itself. -/
theorem names_plain {name : String} (plain : name.toList.all isPlain = true) :
    Names name (keyText name.toList []) := by
  have hspells : ∀ s : List Char, s.all isPlain = true → Spells s s := by
    intro s
    induction s with
    | nil => exact fun _ => .nil
    | cons c s ih =>
        intro hs
        simp only [List.all_cons, isPlain, Bool.and_eq_true, decide_eq_true_eq,
          Bool.not_eq_true', decide_eq_false_iff_not] at hs
        obtain ⟨⟨⟨quote, backslash⟩, control⟩, hrest⟩ := hs
        exact .plain quote backslash control (ih hrest)
  exact .intro (hspells _ plain) blank_nil

/-! ## Values -/

/-- A text is a value, whatever it says. -/
inductive WellFormed : List Char → Prop
  | null : WellFormed ['n', 'u', 'l', 'l']
  | true : WellFormed ['t', 'r', 'u', 'e']
  | false : WellFormed ['f', 'a', 'l', 's', 'e']
  | number (n : Numeral) : WellFormed n.text
  | string {body : List Char} (quotable : Quotable body) : WellFormed ('"' :: (body ++ ['"']))
  | nested {o : Open} {items : List (Unit × List Char)} {text : List Char}
      (layout : Bracketed o (fun _ => Leads o) items text)
      (values : ∀ item ∈ items, WellFormed item.2) : WellFormed text

theorem Numeral.starts (n : Numeral) : Starts n.text := by
  rcases n.exists_text_eq with ⟨c, s, htext, rfl | hdigit⟩
  · exact ⟨_, s, htext, rfl, by decide⟩
  · refine ⟨c, s, htext, isBlank_of_isDigit hdigit, ?_⟩
    rintro rfl
    cases hdigit

theorem Bracketed.starts {κ : Type} {o : Open} {Key : κ → List Char → Prop}
    {items : List (κ × List Char)} {text : List Char} (h : Bracketed o Key items text) :
    Starts text := by
  have hopener : isBlank o.opener = false ∧ o.opener ≠ ']' := by cases o <;> decide
  cases h with
  | empty => exact ⟨_, _, rfl, hopener⟩
  | items => exact ⟨_, _, rfl, hopener⟩

theorem WellFormed.starts {text : List Char} (h : WellFormed text) : Starts text := by
  cases h with
  | null => exact ⟨_, _, rfl, by decide⟩
  | true => exact ⟨_, _, rfl, by decide⟩
  | false => exact ⟨_, _, rfl, by decide⟩
  | number n => exact n.starts
  | string => exact ⟨_, _, rfl, by decide⟩
  | nested layout => exact layout.starts

end Json
end Redelivery
