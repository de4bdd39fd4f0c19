import Redelivery.Proofs.Json.Grammar

/-!
# Well-formed values are passed over

Whoever passes over a value keeps the lists and objects that are open on a list of their own,
and looks for the end of the innermost.  A value that stands anywhere inside them is passed over
as a whole: after it, what was open before is open, and the text goes on behind the value.  This
is by induction on the value; for the items of a list or an object, on those that are left.

Main definitions:

* `Json.Skipped.goOn`: passing over what is left after a step.
* `Json.Passes`: a text is passed over as a whole, wherever it stands.

Main results:

* Theorem `Json.WellFormed.passes`: a well-formed value is passed over as a whole.
* Theorem `Json.WellFormed.skipValue_eq`: what is left is what comes after the value.
-/

namespace Redelivery
namespace Json

/-! ## Steps -/

/-- Passes over what is left after a step, for at most so many tokens. -/
def Skipped.goOn : Skipped → Nat → Except Fault (List Char)
  | .finished s, _ => .ok s
  | .value opened s, fuel => skipValues opened s fuel

theorem skipValues_succ (opened : List Open) (s : List Char) (fuel : Nat) :
    skipValues opened s (fuel + 1) = skipStep opened s >>= fun next => next.goOn fuel := by
  rw [skipValues]
  refine bind_congr fun next => ?_
  cases next <;> rfl

/-- What comes first in an item of a list or an object that is open: its value, or its key. -/
def skipLead (inner : Open) (outer : List Open) (s : List Char) : Except Fault Skipped :=
  match inner with
  | .list => .ok (.value (.list :: outer) s)
  | .object => (skipKey s).map (.value (.object :: outer))

section

variable {inner : Open} {outer opened : List Open} {blanks s rest : List Char}

/-- A list or an object is at its end. -/
theorem skipAfter_closer (h : Blank blanks) :
    skipAfter (inner :: outer) (blanks ++ inner.closer :: s) = skipAfter outer s := by
  have hcloser : isBlank inner.closer = false ∧ inner.closer ≠ ',' := by cases inner <;> decide
  rw [skipAfter, skipBlanks_blank h, skipBlanks_cons hcloser.1]
  dsimp only
  rw [if_neg hcloser.2, if_pos rfl]

/-- Another item follows. -/
theorem skipAfter_comma (h : Blank blanks) :
    skipAfter (inner :: outer) (blanks ++ ',' :: s) = skipLead inner outer s := by
  rw [skipAfter, skipBlanks_blank h, skipBlanks_cons rfl]
  cases inner <;> rfl

/-- A list or an object is empty. -/
theorem skipOpened_closer (h : Blank blanks) :
    skipOpened inner outer (blanks ++ inner.closer :: s) = skipAfter outer s := by
  have hcloser : isBlank inner.closer = false := by cases inner <;> rfl
  unfold skipOpened
  rw [skipBlanks_blank h, skipBlanks_cons hcloser]
  dsimp only
  rw [if_pos rfl]

/-- A list or an object begins with an item. -/
theorem skipOpened_of_ne {c : Char} (h : skipBlanks s = c :: rest) (hne : c ≠ inner.closer) :
    skipOpened inner outer s = skipLead inner outer s := by
  unfold skipOpened
  rw [h]
  dsimp only
  rw [if_neg hne]
  cases inner <;> rfl

/-- A token that opens a list or an object. -/
theorem skipStep_opener (h : Blank blanks) :
    skipStep opened (blanks ++ inner.opener :: s) = skipOpened inner opened s := by
  have hopener : isBlank inner.opener = false := by cases inner <;> rfl
  rw [skipStep, skipBlanks_blank h, skipBlanks_cons hopener]
  cases inner <;> rfl

/-- A key is passed over up to its colon. -/
theorem skipKey_keyText {before body : List Char} (h : Blank before) (quotable : Quotable body)
    (blank : Blank blanks) (s : List Char) :
    skipKey (before ++ (keyText body blanks ++ s)) = .ok s := by
  have hkey : keyText body blanks ++ s = '"' :: (body ++ '"' :: (blanks ++ ':' :: s)) := by
    simp [keyText]
  rw [hkey, skipKey, skipBlanks_blank h, skipBlanks_cons rfl]
  refine bind_eq_ok.2 ⟨_, quotable.skipText_eq _, ?_⟩
  rw [skipBlanks_blank blank, skipBlanks_cons rfl]
  rfl

/-- What comes before a value is passed over, but for blanks. -/
theorem skipLead_leads {before lead inside : List Char} (h : Blank before) (blank : Blank inside)
    (leads : Leads inner lead) (outer : List Open) (s : List Char) :
    ∃ blanks, Blank blanks ∧ skipLead inner outer (before ++ (lead ++ (inside ++ s))) =
      .ok (.value (inner :: outer) (blanks ++ s)) := by
  cases leads with
  | list =>
      refine ⟨before ++ inside, h.append blank, ?_⟩
      rw [List.nil_append, List.append_assoc]
      rfl
  | object quotable blank' =>
      refine ⟨inside, blank, ?_⟩
      rw [skipLead, skipKey_keyText h quotable blank']
      rfl

/-- What follows on an opening character, if it is no closing one. -/
theorem skipOpened_leads {before lead inside value : List Char} (h : Blank before)
    (blank : Blank inside) (leads : Leads inner lead) (starts : Starts value) (outer : List Open)
    (s : List Char) :
    skipOpened inner outer (before ++ (lead ++ (inside ++ (value ++ s)))) =
      skipLead inner outer (before ++ (lead ++ (inside ++ (value ++ s)))) := by
  cases leads with
  | list =>
      rcases starts with ⟨c, text, rfl, hc, hne⟩
      have hvalue : skipBlanks (before ++ ([] ++ (inside ++ (c :: text ++ s)))) =
          c :: (text ++ s) := by
        rw [skipBlanks_blank h, List.nil_append, skipBlanks_blank blank]
        exact skipBlanks_cons hc (text ++ s)
      exact skipOpened_of_ne hvalue hne
  | @object body blanks =>
      have hkey : skipBlanks (before ++ (keyText body blanks ++ (inside ++ (value ++ s)))) =
          '"' :: (body ++ '"' :: (blanks ++ [':']) ++ (inside ++ (value ++ s))) := by
        rw [skipBlanks_blank h]
        rfl
      exact skipOpened_of_ne hkey (by decide)

end

/-! ## Values -/

/-- The text is passed over as a whole where a value is due, in so many steps at most as it has
characters. -/
def Passes (text : List Char) : Prop :=
  ∃ cost ≤ text.length, ∀ (blanks rest : List Char) (opened : List Open) (fuel : Nat),
    Blank blanks → Ends rest → skipValues opened (blanks ++ (text ++ rest)) (cost + fuel) =
      skipAfter opened rest >>= fun next => next.goOn fuel

/-- A scalar is passed over in one step. -/
theorem passes_of_token {text : List Char} (starts : Starts text)
    (token : ∀ rest, Ends rest → skipToken (text ++ rest) = .ok (none, rest)) : Passes text := by
  rcases starts with ⟨c, s, rfl, hc, hne⟩
  refine ⟨1, Nat.succ_le_succ (Nat.zero_le _), ?_⟩
  intro blanks rest opened fuel blank ends
  have hblanks : skipBlanks (blanks ++ (c :: s ++ rest)) = c :: s ++ rest := by
    rw [skipBlanks_blank blank]
    exact Starts.skipBlanks_append ⟨c, s, rfl, hc, hne⟩ rest
  rw [Nat.add_comm, skipValues_succ, skipStep, hblanks, token rest ends]
  rfl

/-- A digit announces a number. -/
theorem skipToken_of_isDigit {c : Char} (h : Digits.isDigit c = true) (s : List Char) :
    skipToken (c :: s) = (skipNumber (c :: s)).map fun s => (none, s) := by
  have hne : ∀ d, Digits.isDigit d = false → c ≠ d := by
    rintro d hd rfl
    rw [h] at hd
    cases hd
  simp [skipToken, h, hne 'n' rfl, hne 't' rfl, hne 'f' rfl, hne '-' rfl, hne '"' rfl,
    hne '[' rfl, hne '\x7b' rfl]

theorem Numeral.passes (n : Numeral) : Passes n.text := by
  refine passes_of_token n.starts fun rest ends => ?_
  have hskip := n.skipNumber_unsigned ends
  rw [text]
  cases n.negative with
  | true =>
      rw [if_pos rfl]
      change (skipNumber (n.unsigned ++ rest)).map (fun s => (none, s)) = _
      rw [hskip]
      rfl
  | false =>
      rw [if_neg Bool.false_ne_true]
      rcases exists_digit n.whole_ne_nil n.isDigit_whole with ⟨d, digits, hwhole, hd⟩
      rw [unsigned, hwhole, List.cons_append, List.cons_append] at hskip ⊢
      rw [skipToken_of_isDigit hd, hskip]
      rfl

theorem Quotable.passes {body : List Char} (h : Quotable body) :
    Passes ('"' :: (body ++ ['"'])) := by
  refine passes_of_token ⟨_, _, rfl, by decide⟩ fun rest _ => ?_
  have hskip := h.skipText_eq rest
  rw [List.cons_append, List.append_assoc]
  change (skipText (body ++ ('"' :: rest))).map (fun s => (none, s)) = _
  rw [hskip]
  rfl

variable {o : Open} {items : List (Unit × List Char)} {text : List Char}

/-- What is left of a list or an object is passed over if its values are. -/
theorem Trail.passes (h : Trail o (fun _ => Leads o) items text)
    (values : ∀ item ∈ items, Passes item.2) :
    ∃ cost ≤ text.length, ∀ (rest : List Char) (outer : List Open) (fuel : Nat),
      (skipAfter (o :: outer) (text ++ rest) >>= fun next => next.goOn (cost + fuel)) =
        skipAfter outer rest >>= fun next => next.goOn fuel := by
  induction h with
  | close blank =>
      refine ⟨0, Nat.zero_le _, fun rest outer fuel => ?_⟩
      rw [List.append_assoc, List.singleton_append, skipAfter_closer blank, Nat.zero_add]
  | @next key lead value text before between inside items blank blank' blank'' leads trail ih =>
      obtain ⟨cost, hcost, hvalue⟩ : Passes value := values _ List.mem_cons_self
      rcases ih fun item hitem => values item (List.mem_cons_of_mem _ hitem) with
        ⟨cost', hcost', hrest⟩
      refine ⟨cost + cost', ?_, fun rest outer fuel => ?_⟩
      · simp only [List.length_append, List.length_cons]
        omega
      · rcases skipLead_leads blank' blank'' leads outer (value ++ (text ++ rest)) with
          ⟨blanks, hblanks, hlead⟩
        simp only [List.append_assoc, List.cons_append]
        rw [skipAfter_comma blank, hlead, ok_bind, Skipped.goOn, Nat.add_assoc,
          hvalue blanks _ _ _ hblanks (trail.ends rest), hrest]

/-- A list or an object is passed over if its values are. -/
theorem Bracketed.passes (h : Bracketed o (fun _ => Leads o) items text)
    (starts : ∀ item ∈ items, Starts item.2) (values : ∀ item ∈ items, Passes item.2) :
    Passes text := by
  cases h with
  | empty blank =>
      refine ⟨1, Nat.succ_le_succ (Nat.zero_le _), fun blanks rest opened fuel blank' _ => ?_⟩
      simp only [List.append_assoc, List.cons_append, List.nil_append]
      rw [Nat.add_comm, skipValues_succ, skipStep_opener blank', skipOpened_closer blank]
  | @items key lead value text before inside items blank blank' leads trail =>
      obtain ⟨cost, hcost, hvalue⟩ : Passes value := values _ List.mem_cons_self
      rcases trail.passes fun item hitem => values item (List.mem_cons_of_mem _ hitem) with
        ⟨cost', hcost', hrest⟩
      refine ⟨1 + (cost + cost'), ?_, fun blanks rest opened fuel hblanks _ => ?_⟩
      · simp only [List.length_append, List.length_cons]
        omega
      · rcases skipLead_leads blank blank' leads opened (value ++ (text ++ rest)) with
          ⟨blanks', hblanks', hlead⟩
        have hopened := skipOpened_leads blank blank' leads (starts _ List.mem_cons_self) opened
          (text ++ rest)
        have hsum : 1 + (cost + cost') + fuel = cost + (cost' + fuel) + 1 := by omega
        simp only [List.append_assoc, List.cons_append]
        rw [hsum, skipValues_succ, skipStep_opener hblanks, hopened, hlead, ok_bind, Skipped.goOn,
          hvalue blanks' _ _ _ hblanks' (trail.ends rest), hrest]

/-- A well-formed value is passed over as a whole. -/
theorem WellFormed.passes {text : List Char} (h : WellFormed text) : Passes text := by
  induction h with
  | null => exact passes_of_token (WellFormed.null.starts) fun rest _ => rfl
  | true => exact passes_of_token (WellFormed.true.starts) fun rest _ => rfl
  | false => exact passes_of_token (WellFormed.false.starts) fun rest _ => rfl
  | number n => exact n.passes
  | string quotable => exact quotable.passes
  | nested layout values ih => exact layout.passes (fun item hitem => (values item hitem).starts) ih

/-- What is left after a well-formed value is what comes after it. -/
theorem WellFormed.skipValue_eq {text blanks rest : List Char} (h : WellFormed text)
    (blank : Blank blanks) (ends : Ends rest) :
    skipValue (blanks ++ (text ++ rest)) = .ok rest := by
  rcases h.passes with ⟨cost, hcost, hpasses⟩
  have hfuel : (blanks ++ (text ++ rest)).length + 1 =
      cost + ((blanks ++ (text ++ rest)).length + 1 - cost) := by
    simp only [List.length_append]
    omega
  rw [skipValue, hfuel, hpasses blanks rest [] _ blank ends]
  rfl

end Json
end Redelivery
