import Redelivery.Proofs.Json.Scalar

/-!
# Records that are written and read

A record is written as an object with a member for each of its fields.  Reading the members
one after the other fills the draft, and what is true of every draft on the way is true of
the one that comes out, whatever the text was.

Main definitions:

* `Json.Fills`: members that fill a draft.
* `Json.lead`: the text of members, where they follow on others or not.
* `Json.Field.Keeps`: reading a field keeps what is said of drafts.

Main results:

* Theorem `Json.Fills.reads`: an object whose members fill the draft is read as the draft.
* Theorem `Json.Record.read_keeps`: what all fields keep is true of what is read.
-/

namespace Redelivery
namespace Json

variable {δ : Type} {record : Record δ}

/-! ## Members -/

/-- The members, read one after the other, fill the draft: each is a field that the draft does
not have yet. -/
inductive Fills (record : Record δ) : δ → List (String × Value) → δ → Prop
  | nil {draft : δ} : Fills record draft [] draft
  | cons {draft draft' draft'' : δ} {name : String} {value : Value} {field : Field δ}
      {members : List (String × Value)}
      (known : record.fields.find? (·.name = name) = some field)
      (new : field.present draft = false)
      (reads : Reads (field.read draft) value draft')
      (fills : Fills record draft' members draft'') :
      Fills record draft ((name, value) :: members) draft''

/-- The text of members, after a comma if others come before them. -/
def lead (first : Bool) (members : List (String × Value)) : List Char :=
  (if !first && !members.isEmpty then [','] else []) ++ (Value.writeMembers members).toList

theorem lead_nil (first : Bool) : lead first [] = [] := by
  cases first <;> rfl

theorem lead_cons (first : Bool) (name : String) (value : Value)
    (members : List (String × Value)) : lead first ((name, value) :: members) =
      (if first then [] else [',']) ++ (Value.quote name).toList ++
        ':' :: (value.write.toList ++ lead false members) := by
  cases members with
  | nil => cases first <;> simp [lead, Value.writeMembers]
  | cons member members => cases first <;> simp [lead, Value.writeMembers]

theorem length_le_lead (first : Bool) (members : List (String × Value)) :
    members.length ≤ (lead first members).length := by
  induction members generalizing first with
  | nil => exact Nat.zero_le _
  | cons member members ih =>
      have hrest := ih false
      rw [lead_cons]
      simp only [List.length_append, List.length_cons]
      omega

/-- What comes after a value ends it. -/
theorem ends_lead (members : List (String × Value)) (rest : List Char) :
    Ends (lead false members ++ '\x7d' :: rest) := by
  cases members with
  | nil =>
      rintro c ⟨rfl⟩
      decide
  | cons member members =>
      rw [lead_cons]
      rintro c ⟨rfl⟩
      decide

theorem nextKey_lead (first : Bool) (name : String) (value : Value)
    (members : List (String × Value)) (rest : List Char) :
    ∃ text, Record.nextKey first (lead first ((name, value) :: members) ++ rest) = .ok (.key text) ∧
      readText text = .ok (name, ':' :: (value.write.toList ++ (lead false members ++ rest))) := by
  rcases readText_quote name (':' :: (value.write.toList ++ (lead false members ++ rest))) with
    ⟨text, htext, hread⟩
  refine ⟨text, ?_, hread⟩
  cases first with
  | true =>
    have hlead : lead true ((name, value) :: members) ++ rest = '"' :: text := by
      rw [← htext, lead_cons]
      simp
    rw [hlead]
    rfl
  | false =>
    have hlead : lead false ((name, value) :: members) ++ rest = ',' :: '"' :: text := by
      rw [← htext, lead_cons]
      simp
    rw [hlead]
    rfl

/-- The member of a field that is new is read into the draft. -/
theorem readMember_of_new {draft draft' : δ} {name : String} {field : Field δ}
    {text left : List Char}
    (known : record.fields.find? (·.name = name) = some field)
    (new : field.present draft = false) (read : field.read draft text = .ok (draft', left)) :
    record.readMember name draft (':' :: text) = .ok (draft', left) := by
  unfold Record.readMember
  rw [known]
  dsimp only
  rw [new, if_neg Bool.false_ne_true]
  exact read

/-- Members that fill a draft are read up to the closing brace. -/
theorem Fills.readMembers_eq {draft draft' : δ} {members : List (String × Value)}
    (h : Fills record draft members draft') (first : Bool) {fuel : Nat}
    (hfuel : members.length < fuel) (rest : List Char) :
    record.readMembers first draft (lead first members ++ '\x7d' :: rest) fuel =
      .ok (draft', rest) := by
  induction h generalizing first fuel with
  | nil =>
      rw [lead_nil]
      cases fuel with
      | zero => cases hfuel
      | succ fuel => rfl
  | @cons draft draft' draft'' name value field members known new reads _ ih =>
      cases fuel with
      | zero => cases hfuel
      | succ fuel =>
          rcases nextKey_lead first name value members ('\x7d' :: rest) with ⟨text, hkey, hname⟩
          have hmember := readMember_of_new known new (reads _ (ends_lead members rest))
          rw [Record.readMembers, hkey, ok_bind]
          dsimp only
          rw [hname, ok_bind]
          dsimp only
          rw [hmember, ok_bind]
          exact ih false (Nat.lt_of_succ_lt_succ hfuel)

/-- The members of an object are read, and nothing is missing. -/
theorem readObject_eq_ok {draft : δ} {s rest : List Char}
    (members : record.readMembers true record.empty s (s.length + 1) = .ok (draft, rest))
    (complete : record.missing? draft = none) : record.readObject s = .ok (draft, rest) := by
  rw [Record.readObject, members, ok_bind]
  dsimp only
  rw [complete]
  rfl

/-- An object whose members fill the draft is read as the draft. -/
theorem Fills.reads {draft : δ} {members : List (String × Value)}
    (h : Fills record record.empty members draft) (complete : record.missing? draft = none) :
    Reads record.read (.object members) draft := by
  intro rest _
  have hwrite : (Value.object members).write.toList ++ rest =
      '\x7b' :: (lead true members ++ '\x7d' :: rest) := by
    simp [Value.write, lead]
  have hfuel : members.length < (lead true members ++ '\x7d' :: rest).length + 1 := by
    have hlength := length_le_lead true members
    rw [List.length_append]
    omega
  have hobject := readObject_eq_ok (h.readMembers_eq true hfuel rest) complete
  rw [hwrite]
  exact hobject

/-- Nothing is missing of a record all of whose fields have defaults. -/
theorem missing?_eq_none (optional : ∀ field ∈ record.fields, field.required = false) (draft : δ) :
    record.missing? draft = none := by
  rw [Record.missing?, List.find?_eq_none]
  intro field hfield
  simp [optional field hfield]

/-! ## What a text can come to -/

/-- Reading the field into a draft keeps what is said of drafts. -/
def Field.Keeps (P : δ → Prop) (field : Field δ) : Prop :=
  ∀ draft s draft' left, P draft → field.read draft s = .ok (draft', left) → P draft'

namespace Record

variable {P : δ → Prop}

/-- What all fields keep, the elements of a list keep. -/
theorem readElements_keeps (fields : List (Field δ))
    (keeps : ∀ field ∈ fields, field.Keeps P) {index : Nat} {draft draft' : δ}
    {s left : List Char} (h : P draft)
    (read : record.readElements index fields draft s = .ok (draft', left)) : P draft' := by
  induction fields generalizing index draft s with
  | nil =>
      cases read
      exact h
  | cons field fields ih =>
      have hrest := fun field hfield => keeps field (List.mem_cons_of_mem _ hfield)
      unfold readElements at read
      rcases bind_eq_ok.1 read with ⟨element, -, read⟩
      cases element with
      | some s =>
          rcases bind_eq_ok.1 read with ⟨⟨draft'', s'⟩, hfield, read⟩
          exact ih hrest (keeps field List.mem_cons_self _ _ _ _ h hfield) read
      | none =>
          dsimp only at read
          split at read
          case isTrue => cases read
          case isFalse => exact ih hrest h read

/-- So do the members of an object. -/
theorem readMembers_keeps (keeps : ∀ field ∈ record.fields, field.Keeps P) {fuel : Nat}
    {first : Bool} {draft draft' : δ} {s left : List Char} (h : P draft)
    (read : record.readMembers first draft s fuel = .ok (draft', left)) : P draft' := by
  induction fuel generalizing first draft s with
  | zero => cases read
  | succ fuel ih =>
      unfold readMembers at read
      rcases bind_eq_ok.1 read with ⟨next, -, read⟩
      cases next with
      | finished s =>
          cases read
          exact h
      | key s =>
          rcases bind_eq_ok.1 read with ⟨⟨key, s'⟩, -, read⟩
          rcases bind_eq_ok.1 read with ⟨⟨draft'', s''⟩, hmember, read⟩
          refine ih ?_ read
          unfold readMember at hmember
          split at hmember
          case h_1 field hfound =>
            dsimp only at hmember
            split at hmember
            case isTrue => cases hmember
            case isFalse =>
              rcases bind_eq_ok.1 hmember with ⟨value, -, hvalue⟩
              exact keeps field (List.mem_of_find?_eq_some hfound) _ _ _ _ h hvalue
          case h_2 =>
            rcases bind_eq_ok.1 hmember with ⟨value, -, hmember⟩
            rcases bind_eq_ok.1 hmember with ⟨value, -, hmember⟩
            cases hmember
            exact h

/-- What is true of the empty draft, and kept by all fields, is true of what is read. -/
theorem read_keeps (empty : P record.empty) (keeps : ∀ field ∈ record.fields, field.Keeps P)
    {s left : List Char} {draft : δ} (read : record.read s = .ok (draft, left)) : P draft := by
  unfold Record.read atValue at read
  split at read
  case h_1 => cases read
  case h_2 =>
    dsimp only at read
    split at read
    case h_1 =>
      unfold readList at read
      rcases bind_eq_ok.1 read with ⟨⟨draft', s'⟩, helements, read⟩
      rcases bind_eq_ok.1 read with ⟨left', -, read⟩
      cases read
      exact readElements_keeps record.fields keeps empty helements
    case h_2 =>
      unfold readObject at read
      rcases bind_eq_ok.1 read with ⟨⟨draft', s'⟩, hmembers, read⟩
      dsimp only at read
      split at read
      case h_1 => cases read
      case h_2 =>
        cases read
        exact readMembers_keeps keeps empty hmembers
    case h_3 => cases read

end Record

end Json
end Redelivery
