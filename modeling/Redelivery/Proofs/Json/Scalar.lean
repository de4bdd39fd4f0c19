import Mathlib.Data.List.TakeWhile
import Redelivery.Json.Record
import Redelivery.Json.Value

/-!
# What is written of a scalar is read

A reader that has found its value does not care for what comes after it, as long as that does
not go on with a number.  So it is enough to look at the text of a value by itself: the digits
of a natural number are read as that number, and a string comes back from between its quotes,
whatever had to be escaped in it.

Main definitions:

* `Json.Ends`: what comes next does not go on with a number.
* `Json.Reads`: what is written as a value is read as something, before anything.
* `Json.Inverts`: a double is read as what it was written from.

Main results:

* Theorem `Json.readNumber?_append`: a number ends where nothing goes on with it.
* Theorem `Json.readNumber?_repr`: a natural number is read as itself.
* Theorem `Json.readText_quote`: so is a string.
-/

namespace Redelivery

namespace Digits

/-- Digits end where no digit comes next. -/
theorem span_append_of_stops {rest : List Char} (stops : ∀ c ∈ rest.head?, isDigit c = false)
    (s : List Char) : span (s ++ rest) = ((span s).1, (span s).2 ++ rest) := by
  induction s with
  | nil =>
      cases rest with
      | nil => rfl
      | cons c rest => simp [span, stops c rfl]
  | cons c s ih =>
      obtain ⟨hdigits, hrest⟩ := Prod.mk.inj ih
      by_cases hc : isDigit c = true
      · simp only [span, List.cons_append, List.takeWhile_cons_of_pos hc,
          List.dropWhile_cons_of_pos hc]
        rw [show List.takeWhile isDigit (s ++ rest) = _ from hdigits,
          show List.dropWhile isDigit (s ++ rest) = _ from hrest]
        rfl
      · simp [span, hc]

/-- A text of digits is taken whole. -/
theorem span_of_all {s : List Char} (h : ∀ c ∈ s, isDigit c = true) : span s = (s, []) := by
  rw [span, List.takeWhile_eq_self_iff.2 h, List.dropWhile_eq_nil_iff.2 h]

/-- The digits of a natural number are digits. -/
theorem isDigit_of_mem_toDigits {n : Nat} {c : Char} (h : c ∈ Nat.toDigits 10 n) :
    isDigit c = true := by
  have hdigit : c.isDigit = true := Nat.isDigit_of_mem_toDigits (by decide) (by decide) h
  simpa [isDigit, Char.isDigit, Char.le_def] using hdigit

/-- They write the number. -/
theorem value_toDigits (n : Nat) : value (Nat.toDigits 10 n) = n := by
  rw [value, valueFrom, ← Nat.ofDigitChars_eq_foldl, Nat.ofDigitChars_ten_toDigits]

/-- No number but zero begins with a zero. -/
theorem head?_toDigits {n : Nat} (h : (Nat.toDigits 10 n).head? = some '0') : n = 0 := by
  induction n using Nat.strongRecOn with
  | ind n ih =>
      rw [Nat.toDigits_eq_if (by decide)] at h
      split at h
      case isTrue hlt => exact Nat.digitChar_eq_zero.1 (by simpa using h)
      case isFalse hge =>
        have hfirst : (Nat.toDigits 10 (n / 10)).head? = some '0' := by
          rcases List.exists_cons_of_ne_nil (Nat.toDigits_ne_nil (n := n / 10) (b := 10)) with
            ⟨d, digits, hdigits⟩
          rw [hdigits] at h ⊢
          exact h
        have hzero := ih (n / 10) (by omega) hfirst
        omega

end Digits

namespace Json

/-! ## Readers that succeed -/

section

variable {ε α β : Type} {x : Except ε α} {b : β}

theorem bind_eq_ok {f : α → Except ε β} :
    x >>= f = .ok b ↔ ∃ a, x = .ok a ∧ f a = .ok b := by
  cases x with
  | error => exact ⟨nofun, nofun⟩
  | ok a => exact ⟨fun h => ⟨a, rfl, h⟩, fun ⟨_, ha, h⟩ => Except.ok.inj ha ▸ h⟩

theorem map_eq_ok {f : α → β} : x.map f = .ok b ↔ ∃ a, x = .ok a ∧ f a = b := by
  cases x with
  | error => exact ⟨nofun, nofun⟩
  | ok a =>
      exact ⟨fun h => ⟨a, rfl, Except.ok.inj h⟩, fun ⟨_, ha, h⟩ => by rw [ha, ← h]; rfl⟩

theorem ok_bind (a : α) (f : α → Except ε β) : Except.ok a >>= f = f a := rfl

end

/-! ## Where a number ends -/

/-- A character that a number may go on with. -/
def inNumber (c : Char) : Bool := Digits.isDigit c || c = '.' || c = 'e' || c = 'E'

/-- What comes next does not go on with a number. -/
def Ends (rest : List Char) : Prop := ∀ c ∈ rest.head?, inNumber c = false

section

variable {rest left s : List Char}

theorem Ends.stops (h : Ends rest) : ∀ c ∈ rest.head?, Digits.isDigit c = false := by
  intro c hc
  have hnot := h c hc
  simp only [inNumber, Bool.or_eq_false_iff] at hnot
  exact hnot.1.1.1

theorem Ends.span_append (h : Ends rest) (s : List Char) :
    Digits.span (s ++ rest) = ((Digits.span s).1, (Digits.span s).2 ++ rest) :=
  Digits.span_append_of_stops h.stops s

/-- No exponent follows. -/
theorem Ends.readExponent_eq (h : Ends rest) : readExponent rest = .ok (none, rest) := by
  cases rest with
  | nil => rfl
  | cons c rest =>
      have hnot := h c rfl
      simp only [inNumber, Bool.or_eq_false_iff, decide_eq_false_iff_not] at hnot
      simp [readExponent, hnot.1.2, hnot.2]

end

/-- What the reader takes does not depend on what comes after it, unless that goes on with a
number. -/
def Local {α : Type} (read : Reader α) : Prop :=
  ∀ (s left rest : List Char) (a : α), Ends rest → read s = .ok (a, left) →
    read (s ++ rest) = .ok (a, left ++ rest)

theorem Local.map {α β : Type} {read : Reader α} (h : Local read) (f : α → β) :
    Local fun s => (read s).map fun (a, s) => (f a, s) := by
  intro s left rest b ends hread
  rcases map_eq_ok.1 hread with ⟨⟨a, more⟩, hs, heq⟩
  rcases Prod.mk.inj heq with ⟨rfl, rfl⟩
  exact map_eq_ok.2 ⟨_, h _ _ _ _ ends hs, rfl⟩

/-- What takes nothing is local. -/
theorem local_of_value {α : Type} (x : Except Fault α) :
    Local (fun s => x >>= fun a => pure (a, s)) := by
  intro s left rest a _ hread
  rcases bind_eq_ok.1 hread with ⟨a, rfl, hpure⟩
  cases hpure
  rfl

theorem local_readWhole : Local readWhole := by
  intro s left rest digits ends read
  have hspan := ends.span_append s
  unfold readWhole at read ⊢
  rcases hs : Digits.span s with ⟨whole, more⟩
  rw [hs] at read hspan
  rw [hspan]
  dsimp only at read ⊢
  split at read
  case isTrue => split at read <;> cases read
  case isFalse hdigits =>
    rw [if_neg hdigits]
    split at read
    case isTrue => cases read
    case isFalse hzero =>
      cases read
      rw [if_neg hzero]

theorem local_readFraction : Local readFraction := by
  intro s left rest digits ends read
  have hspan := ends.span_append s
  unfold readFraction at read ⊢
  rcases hs : Digits.span s with ⟨fraction, more⟩
  rw [hs] at read hspan
  rw [hspan]
  dsimp only at read ⊢
  split at read
  case isTrue => split at read <;> cases read
  case isFalse hdigits =>
    cases read
    rw [if_neg hdigits]

theorem local_readExponentDigits : Local readExponentDigits := by
  intro s left rest n ends read
  cases s with
  | nil => cases read
  | cons c s =>
      have hspan := ends.span_append (c :: s)
      rw [List.cons_append] at hspan ⊢
      unfold readExponentDigits at read ⊢
      dsimp only at read ⊢
      split at read
      case isTrue hdigit =>
        cases read
        rw [if_pos hdigit, hspan]
      case isFalse => cases read

theorem local_readExponent : Local readExponent := by
  intro s left rest exponent ends read
  have hdigits := fun f : Nat → Option Int => local_readExponentDigits.map f
  cases s with
  | nil =>
      cases read
      exact ends.readExponent_eq
  | cons c s =>
      rw [List.cons_append]
      unfold readExponent at read ⊢
      by_cases hmark : c = 'e' ∨ c = 'E'
      · simp only [if_pos hmark] at read ⊢
        split at read
        case h_1 => exact hdigits (fun n => some (-n)) _ _ _ _ ends read
        case h_2 => exact hdigits (fun n => some n) _ _ _ _ ends read
        case h_3 hminus hplus =>
          -- A sign would have been seen before, and there is something to read.
          cases s with
          | nil => cases read
          | cons d s =>
              rw [List.cons_append]
              split
              case h_1 heq =>
                obtain ⟨rfl, -⟩ := List.cons.inj heq
                exact absurd rfl (hminus s)
              case h_2 heq =>
                obtain ⟨rfl, -⟩ := List.cons.inj heq
                exact absurd rfl (hplus s)
              case h_3 => exact hdigits (fun n => some n) _ _ _ _ ends read
      · simp only [if_neg hmark] at read ⊢
        cases read
        rfl

theorem local_readNumber (negative : Bool) : Local (readNumber negative) := by
  intro s left rest number ends read
  unfold readNumber at read ⊢
  rcases bind_eq_ok.1 read with ⟨⟨whole, s₁⟩, hwhole, read⟩
  rw [local_readWhole _ _ _ _ ends hwhole, ok_bind]
  dsimp only at read ⊢
  split at read
  case h_1 s₂ =>
    rcases bind_eq_ok.1 read with ⟨⟨fraction, s₃⟩, hfraction, read⟩
    rcases bind_eq_ok.1 read with ⟨⟨exponent, s₄⟩, hexponent, read⟩
    rcases bind_eq_ok.1 read with ⟨number, hnumber, read⟩
    cases read
    simp only [List.cons_append]
    rw [local_readFraction _ _ _ _ ends hfraction, ok_bind]
    dsimp only
    rw [local_readExponent _ _ _ _ ends hexponent, ok_bind]
    dsimp only
    rw [hnumber, ok_bind]
    rfl
  case h_2 hpoint =>
    rcases bind_eq_ok.1 read with ⟨⟨exponent, s₂⟩, hexponent, read⟩
    split
    case h_1 s₂ heq =>
      -- A point would have been seen before, or goes on with the number.
      cases s₁ with
      | nil => exact absurd (ends '.' (by rw [← List.nil_append rest, heq]; rfl)) (by decide)
      | cons c s₁ =>
          obtain ⟨rfl, -⟩ := List.cons.inj heq
          exact absurd rfl (hpoint s₁)
    case h_2 =>
      rw [local_readExponent _ _ _ _ ends hexponent, ok_bind]
      dsimp only at read ⊢
      cases exponent with
      | none => exact local_of_value _ _ _ _ _ ends read
      | some e => exact local_of_value _ _ _ _ _ ends read

theorem readNumber?_append {s left rest : List Char} {number : Number} (ends : Ends rest)
    (read : readNumber? s = some (.ok (number, left))) :
    readNumber? (s ++ rest) = some (.ok (number, left ++ rest)) := by
  unfold readNumber? at read ⊢
  split at read
  case h_1 s =>
    exact congrArg some (local_readNumber true _ _ _ _ ends (Option.some.inj read))
  case h_2 c s hminus =>
    split at read
    case isTrue hdigit =>
      rw [List.cons_append]
      split
      case h_1 heq =>
        obtain ⟨rfl, -⟩ := List.cons.inj heq
        cases hdigit
      case h_2 c' s' _ heq =>
        obtain ⟨rfl, rfl⟩ := List.cons.inj heq
        rw [if_pos hdigit]
        exact congrArg some (local_readNumber false _ _ _ _ ends (Option.some.inj read))
      case h_3 heq => cases heq
    case isFalse => cases read
  case h_3 => cases read

/-! ## Typed numbers -/

theorem skipBlanks_append {s : List Char} (h : skipBlanks s ≠ []) (rest : List Char) :
    skipBlanks (s ++ rest) = skipBlanks s ++ rest := by
  unfold skipBlanks at h ⊢
  rw [List.dropWhile_append, if_neg (by simpa using h)]

/-- Blanks before a value are passed over whatever comes after it. -/
theorem local_atValue {α : Type} {read : Reader α} (h : Local read) : Local (atValue read) := by
  intro s left rest a ends hread
  unfold atValue at hread ⊢
  split at hread
  case h_1 => cases hread
  case h_2 hblanks =>
    have hne : skipBlanks s ≠ [] := hblanks
    rw [skipBlanks_append hne]
    split
    case h_1 hnil => exact absurd (List.append_eq_nil_iff.1 hnil).1 hne
    case h_2 => exact h _ _ _ _ ends hread

theorem local_readDouble : Local readDouble := by
  refine local_atValue ?_
  intro s left rest x ends read
  dsimp only at read ⊢
  split at read
  case h_1 => cases read
  case h_2 => cases read
  case h_3 hs =>
    obtain ⟨rfl, rfl⟩ := Prod.mk.inj (Except.ok.inj read)
    rw [readNumber?_append ends hs]
  case h_4 hs =>
    obtain ⟨rfl, rfl⟩ := Prod.mk.inj (Except.ok.inj read)
    rw [readNumber?_append ends hs]

theorem local_readInteger (low high : Int) (expected : String) :
    Local (readInteger low high expected) := by
  refine local_atValue ?_
  intro s left rest i ends read
  dsimp only at read ⊢
  split at read
  case h_1 => cases read
  case h_2 => cases read
  case h_3 hs =>
    rw [readNumber?_append ends hs]
    dsimp only
    split at read
    case isTrue hrange =>
      cases read
      rw [if_pos hrange]
    case isFalse => cases read
  case h_4 => cases read

/-- A natural number is written with a digit in front. -/
theorem exists_repr_eq (n : Nat) :
    ∃ d digits, n.repr.toList = d :: digits ∧ Digits.isDigit d = true := by
  rw [Nat.repr_eq_ofList_toDigits, String.toList_ofList]
  rcases List.exists_cons_of_ne_nil (Nat.toDigits_ne_nil (n := n) (b := 10)) with
    ⟨d, digits, hdigits⟩
  exact ⟨d, digits, hdigits,
    Digits.isDigit_of_mem_toDigits (n := n) (hdigits ▸ List.mem_cons_self)⟩

/-- The digits of a natural number are read as that number. -/
theorem readNumber?_repr {n : Nat} (h : n < 2 ^ 64) :
    readNumber? n.repr.toList = some (.ok (.integer n, [])) := by
  have hnumber : readNumber false n.repr.toList = .ok (.integer n, []) := by
    rw [Nat.repr_eq_ofList_toDigits, String.toList_ofList]
    have hspan := Digits.span_of_all fun c => Digits.isDigit_of_mem_toDigits (n := n) (c := c)
    have hwhole : readWhole (Nat.toDigits 10 n) = .ok (Nat.toDigits 10 n, []) := by
      unfold readWhole
      rw [hspan]
      dsimp only
      rw [if_neg (by simp), if_neg]
      rintro ⟨hzero, hlength⟩
      rw [Digits.head?_toDigits hzero] at hlength
      exact absurd hlength (by decide)
    have hvalue : wholeNumber false (Nat.toDigits 10 n) = .ok (.integer n) := by
      unfold wholeNumber
      rw [Digits.value_toDigits]
      dsimp only
      rw [if_neg Bool.false_ne_true, if_pos h]
    unfold readNumber
    rw [hwhole, ok_bind]
    exact bind_eq_ok.2 ⟨_, rfl, bind_eq_ok.2 ⟨_, hvalue, rfl⟩⟩
  rcases exists_repr_eq n with ⟨d, digits, hdigits, hdigit⟩
  rw [← hnumber, hdigits]
  unfold readNumber?
  split
  case h_1 heq =>
    obtain ⟨rfl, -⟩ := List.cons.inj heq
    cases hdigit
  case h_2 c s _ heq =>
    obtain ⟨rfl, rfl⟩ := List.cons.inj heq
    rw [if_pos hdigit]
  case h_3 heq => cases heq

/-! ## Written and read -/

/-- What is written as the value is read as `a`, whatever comes after it. -/
def Reads {α : Type} (read : Reader α) (value : Value) (a : α) : Prop :=
  ∀ rest, Ends rest → read (value.write.toList ++ rest) = .ok (a, rest)

theorem Local.reads {α : Type} {read : Reader α} (h : Local read) {value : Value} {a : α}
    (hread : read value.write.toList = .ok (a, [])) : Reads read value a :=
  fun rest ends => h _ _ rest a ends hread

theorem Reads.map {α β : Type} {read : Reader α} {value : Value} {a : α}
    (h : Reads read value a) (f : α → β) :
    Reads (fun s => (read s).map fun (a, s) => (f a, s)) value (f a) :=
  fun rest ends => map_eq_ok.2 ⟨_, h rest ends, rfl⟩

/-- A whole document is read. -/
theorem Reads.parse_eq {α : Type} {read : Reader α} {value : Value} {a : α}
    (h : Reads read value a) : parse read value.write = .ok a := by
  have hread := h [] nofun
  rw [List.append_nil] at hread
  rw [parse, hread]
  rfl

theorem isBlank_of_isDigit {c : Char} (h : Digits.isDigit c = true) : isBlank c = false := by
  by_contra hblank
  simp only [isBlank, Bool.not_eq_false, Bool.or_eq_true, decide_eq_true_eq] at hblank
  rcases hblank with ((rfl | rfl) | rfl) | rfl <;> cases h

/-- A natural number in the range is read. -/
theorem reads_integer (high : Int) {n : Nat} (hhigh : n < high) (hbits : n < 2 ^ 64)
    (expected : String) : Reads (readInteger 0 high expected) (.integer n) n := by
  refine (local_readInteger 0 high expected).reads ?_
  have hwrite : (Value.integer n).write = n.repr := by rw [Value.write]; rfl
  rcases exists_repr_eq n with ⟨d, digits, hdigits, hdigit⟩
  have hblanks : skipBlanks n.repr.toList = n.repr.toList := by
    rw [hdigits, skipBlanks, List.dropWhile_cons_of_neg (by simp [isBlank_of_isDigit hdigit])]
  rw [hwrite, readInteger, atValue, hblanks, hdigits]
  dsimp only
  rw [← hdigits, readNumber?_repr hbits]
  dsimp only
  rw [if_pos ⟨Int.natCast_nonneg n, hhigh⟩]

theorem reads_uint64 (n : UInt64) (expected : String) :
    Reads (readUInt64 expected) (.integer n.toNat) n := by
  have hread := reads_integer (2 ^ 64) (by exact_mod_cast n.toNat_lt) n.toNat_lt expected
  have hmap := hread.map fun i => UInt64.ofNat i.toNat
  rwa [Int.toNat_natCast, UInt64.ofNat_toNat] at hmap

theorem reads_uint32 (n : UInt32) : Reads readUInt32 (.integer n.toNat) n := by
  have hread := reads_integer (2 ^ 32) (by exact_mod_cast n.toNat_lt)
    (n.toNat_lt.trans (by decide)) "u32"
  have hmap := hread.map fun i => UInt32.ofNat i.toNat
  rwa [Int.toNat_natCast, UInt32.ofNat_toNat] at hmap

/-- The double is read as itself from what it is written as. -/
def Inverts (x : Binary64) : Prop := readDouble (Value.number x).toList = .ok (x, [])

theorem Inverts.reads {x : Binary64} (h : Inverts x) : Reads readDouble (.float x) x := by
  refine local_readDouble.reads ?_
  rw [Value.write]
  exact h

/-! ## Strings -/

/-- A letter that stands for a character is read as the character. -/
theorem readChars_escaped {e c : Char} (h : escaped? e = some c) (s : List Char) :
    readChars none ('\\' :: e :: s) =
      (readChars none s).map fun (text, s) => (c :: text, s) := by
  have hunit : e ≠ 'u' := by
    rintro rfl
    cases h
  simp [readChars, hunit, h]

/-- A control is written with four digits in base sixteen, which are those of its number. -/
theorem hexUnit?_of_lt : ∀ n < 0x20,
    ("\\u00" ++ (if n < 0x10 then "0" else "") ++ String.ofList (Nat.toDigits 16 n)).toList =
        ['\\', 'u', '0', '0', Nat.digitChar (n / 16), Nat.digitChar (n % 16)] ∧
      hexUnit? '0' '0' (Nat.digitChar (n / 16)) (Nat.digitChar (n % 16)) = some n := by
  decide +kernel

/-- A character is written with a letter that stands for it, with the digits of its number, or
as it is. -/
theorem escape_cases (c : Char) :
    (∃ e, escaped? e = some c ∧ (Value.escape c).toList = ['\\', e]) ∨
      (c.toNat < 0x20 ∧ Value.escape c = "\\u00" ++ (if c.toNat < 0x10 then "0" else "") ++
        String.ofList (Nat.toDigits 16 c.toNat)) ∨
      (c ≠ '"' ∧ c ≠ '\\' ∧ ¬c.toNat < 0x20 ∧ (Value.escape c).toList = [c]) := by
  by_cases hquote : c = '"'
  · subst hquote
    exact .inl ⟨'"', rfl, rfl⟩
  by_cases hbackslash : c = '\\'
  · subst hbackslash
    exact .inl ⟨'\\', rfl, rfl⟩
  by_cases hback : c = '\x08'
  · subst hback
    exact .inl ⟨'b', rfl, rfl⟩
  by_cases hfeed : c = '\x0c'
  · subst hfeed
    exact .inl ⟨'f', rfl, rfl⟩
  by_cases hline : c = '\n'
  · subst hline
    exact .inl ⟨'n', rfl, rfl⟩
  by_cases hreturn : c = '\r'
  · subst hreturn
    exact .inl ⟨'r', rfl, rfl⟩
  by_cases htab : c = '\t'
  · subst htab
    exact .inl ⟨'t', rfl, rfl⟩
  have hescape : Value.escape c = if c.toNat < 0x20 then
      "\\u00" ++ (if c.toNat < 0x10 then "0" else "") ++ Quoted.hex c else c.toString := by
    rw [Value.escape, if_neg hquote, if_neg hbackslash, if_neg hback, if_neg hfeed, if_neg hline,
      if_neg hreturn, if_neg htab]
  by_cases hcontrol : c.toNat < 0x20
  · exact .inr (.inl ⟨hcontrol, by rw [hescape, if_pos hcontrol]; rfl⟩)
  · refine .inr (.inr ⟨hquote, hbackslash, hcontrol, ?_⟩)
    rw [hescape, if_neg hcontrol, Char.toString_eq_singleton, String.toList_singleton]

/-- A character that may have been escaped is read as itself. -/
theorem readChars_escape (c : Char) (s : List Char) :
    readChars none ((Value.escape c).toList ++ s) =
      (readChars none s).map fun (text, s) => (c :: text, s) := by
  rcases escape_cases c with ⟨e, hescaped, htext⟩ | ⟨hcontrol, htext⟩ |
    ⟨hquote, hbackslash, hcontrol, htext⟩
  · rw [htext]
    exact readChars_escaped hescaped s
  · rcases hexUnit?_of_lt c.toNat hcontrol with ⟨hdigits, hunit⟩
    have hjoin : joinUnit none c.toNat = .ok (.char c) := by
      rw [joinUnit, if_neg (by omega), if_neg (by omega), Char.ofNat_toNat]
    rw [htext, hdigits]
    simp only [List.cons_append, List.nil_append]
    rw [readChars, hunit]
    dsimp only
    rw [hjoin]
  · rw [htext]
    simp [readChars, hquote, hbackslash, hcontrol]

/-- A string is read from between its quotes. -/
theorem readText_quote (name : String) (s : List Char) :
    ∃ text, (Value.quote name).toList ++ s = '"' :: text ∧ readText text = .ok (name, s) := by
  have hchars : ∀ chars : List Char,
      readChars none (chars.flatMap (fun c => (Value.escape c).toList) ++ '"' :: s) =
        .ok (chars, s) := by
    intro chars
    induction chars with
    | nil => rfl
    | cons c chars ih =>
        rw [List.flatMap_cons, List.append_assoc, readChars_escape, ih]
        rfl
  refine ⟨name.toList.flatMap (fun c => (Value.escape c).toList) ++ '"' :: s, ?_, ?_⟩
  · simp [Value.quote, String.toList_join, List.flatMap_map]
  · rw [readText, hchars]
    exact congrArg (fun name => Except.ok (name, s)) String.ofList_toList

end Json

end Redelivery
