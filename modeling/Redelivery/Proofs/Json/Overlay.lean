import Mathlib.Data.List.Forall2
import Redelivery.Proofs.Json.Record
import Redelivery.Proofs.Json.Skip

/-!
# Records in any layout

A record is written as an object, with its fields in any order among members that nobody asked
for, or as a list of the values of its first fields.  Each member adds its field to what has
been read so far, or nothing if nobody asked for it, and so it is what the members say that
counts: not where they stand, nor in which of the two forms.

Main definitions:

* `Json.Takes`: what a reader takes a text as, wherever it stands.
* `Json.LaidOut`: a text with the members of a record, in either form.
* `Json.Adds`, `Json.Overlays`: what one member adds to a draft, and what all of them do.
* `Json.Says`: what members say of a field.
* `Json.Rearranged`: the same fields, in another order and among other members.

Main results:

* Theorem `Json.LaidOut.takes`: a record is read as what its members come to.
* Theorem `Json.Says.adds`: a member of a field adds what is said of the field.
* Theorem `Json.Says.rearranged`: what members say of a field does not depend on their order, nor
  on those that nobody asked for.
-/

namespace Redelivery
namespace Json

/-! ## What readers take -/

/-- The reader takes the text as `a`, whatever blanks come before it, and whatever comes after it
that does not go on with a number. -/
def Takes {α : Type} (read : Reader α) (text : List Char) (a : α) : Prop :=
  ∀ blanks rest : List Char, Blank blanks → Ends rest →
    read (blanks ++ (text ++ rest)) = .ok (a, rest)

theorem Takes.map {α β : Type} {read : Reader α} {text : List Char} {a : α}
    (h : Takes read text a) (f : α → β) :
    Takes (fun s => (read s).map fun (a, s) => (f a, s)) text (f a) :=
  fun blanks rest blank ends => map_eq_ok.2 ⟨_, h blanks rest blank ends, rfl⟩

/-- The text holds a value and nothing but blanks around it. -/
def Document (value : List Char) (text : String) : Prop :=
  ∃ before after, Blank before ∧ Blank after ∧ text.toList = before ++ (value ++ after)

/-- What is taken from a document is all that is in it. -/
theorem Takes.parse_eq {α : Type} {read : Reader α} {value : List Char} {text : String} {a : α}
    (h : Takes read value a) (document : Document value text) : parse read text = .ok a := by
  rcases document with ⟨before, after, blank, blank', htext⟩
  have hends : Ends after := by
    rw [← List.append_nil after]
    exact ends_blank_append blank' nofun
  have hafter : skipBlanks after = [] := List.dropWhile_eq_nil_iff.2 blank'
  rw [parse, htext, h before after blank hends, ok_bind]
  dsimp only
  rw [hafter]
  rfl

/-- Blanks before a value are passed over. -/
theorem takes_atValue {α : Type} {read : Reader α} {text : List Char} {a : α} (starts : Starts text)
    (h : ∀ rest, Ends rest → read (text ++ rest) = .ok (a, rest)) :
    Takes (atValue read) text a := by
  intro blanks rest blank ends
  rw [atValue_blank read blank, atValue, starts.skipBlanks_append]
  rcases starts with ⟨c, s, rfl, -⟩
  exact h rest ends

namespace Numeral

variable {n : Numeral}

/-- A whole number in the range is taken. -/
theorem takes_integer {i low high : Int} (h : n.number = .ok (.integer i))
    (range : low ≤ i ∧ i < high) (expected : String) :
    Takes (readInteger low high expected) n.text i := by
  refine takes_atValue n.starts fun rest ends => ?_
  rw [n.readNumber?_text h ends]
  dsimp only
  rw [if_pos range]

theorem takes_uint64 {k : UInt64} (h : n.number = .ok (.integer k.toNat)) (expected : String) :
    Takes (readUInt64 expected) n.text k := by
  have hrange : (0 : Int) ≤ k.toNat ∧ (k.toNat : Int) < 2 ^ 64 :=
    ⟨Int.natCast_nonneg _, by exact_mod_cast k.toNat_lt⟩
  have htakes := (takes_integer h hrange expected).map fun i => UInt64.ofNat i.toNat
  rwa [Int.toNat_natCast, UInt64.ofNat_toNat] at htakes

theorem takes_uint32 {k : UInt32} (h : n.number = .ok (.integer k.toNat)) :
    Takes readUInt32 n.text k := by
  have hrange : (0 : Int) ≤ k.toNat ∧ (k.toNat : Int) < 2 ^ 32 :=
    ⟨Int.natCast_nonneg _, by exact_mod_cast k.toNat_lt⟩
  have htakes := (takes_integer h hrange "u32").map fun i => UInt32.ofNat i.toNat
  rwa [Int.toNat_natCast, UInt32.ofNat_toNat] at htakes

end Numeral

/-- The text of an unsigned number of 32 bits. -/
inductive IsCount : List Char → UInt32 → Prop
  | intro {n : Numeral} {k : UInt32} (number : n.number = .ok (.integer k.toNat)) :
      IsCount n.text k

/-- The text of a double; whole numbers are doubles too. -/
inductive IsDouble : List Char → Binary64 → Prop
  | whole {n : Numeral} {i : Int} (number : n.number = .ok (.integer i)) :
      IsDouble n.text (.ofRatio (i < 0) i.natAbs 1)
  | float {n : Numeral} {x : Binary64} (number : n.number = .ok (.float x)) : IsDouble n.text x

theorem IsCount.starts {text : List Char} {k : UInt32} (h : IsCount text k) : Starts text := by
  cases h with
  | intro => exact Numeral.starts _

theorem IsCount.takes {text : List Char} {k : UInt32} (h : IsCount text k) :
    Takes readUInt32 text k := by
  cases h with
  | intro number => exact Numeral.takes_uint32 number

theorem IsDouble.starts {text : List Char} {x : Binary64} (h : IsDouble text x) : Starts text := by
  cases h with
  | whole => exact Numeral.starts _
  | float => exact Numeral.starts _

theorem IsDouble.takes {text : List Char} {x : Binary64} (h : IsDouble text x) :
    Takes readDouble text x := by
  cases h with
  | @whole n i number =>
      refine takes_atValue n.starts fun rest ends => ?_
      rw [n.readNumber?_text number ends]
  | @float n x number =>
      refine takes_atValue n.starts fun rest ends => ?_
      rw [n.readNumber?_text number ends]

/-! ## Layouts -/

variable {δ : Type} {record : Record δ}

/-- The names of the fields, in the order of the list form. -/
def Record.names (record : Record δ) : List String := record.fields.map Field.name

/-- An object with these members, each a name with the text of a value. -/
def ObjectText (members : List (String × List Char)) (text : List Char) : Prop :=
  Bracketed .object Names members text

/-- A list of these values. -/
def ListText (values : List (List Char)) (text : List Char) : Prop :=
  Bracketed .list (fun _ => Leads .list) (values.map fun value => ((), value)) text

/-- The members of a record: in an object, or without their names in a list of as many values as
are there, from the first field on. -/
inductive LaidOut (record : Record δ) : List (String × List Char) → List Char → Prop
  | object {members : List (String × List Char)} {text : List Char}
      (layout : ObjectText members text) : LaidOut record members text
  | list {values : List (List Char)} {text : List Char}
      (few : values.length ≤ record.fields.length) (layout : ListText values text) :
      LaidOut record (record.names.zip values) text

theorem LaidOut.starts {members : List (String × List Char)} {text : List Char}
    (h : LaidOut record members text) : Starts text := by
  cases h with
  | object layout => exact Bracketed.starts layout
  | list few layout => exact Bracketed.starts layout

/-! ## What members come to -/

/-- What a member adds to a draft: a field that the draft does not have yet, or nothing if there
is no field of the name. -/
inductive Adds (record : Record δ) (draft : δ) (name : String) (text : List Char) : δ → Prop
  | known {field : Field δ} {draft' : δ}
      (known : record.fields.find? (·.name = name) = some field)
      (new : field.present draft = false) (starts : Starts text)
      (takes : Takes (field.read draft) text draft') : Adds record draft name text draft'
  | unknown (unknown : record.fields.find? (·.name = name) = none) (formed : WellFormed text) :
      Adds record draft name text draft

/-- What members come to over a draft. -/
inductive Overlays (record : Record δ) : δ → List (String × List Char) → δ → Prop
  | nil {draft : δ} : Overlays record draft [] draft
  | cons {draft draft' draft'' : δ} {name : String} {text : List Char}
      {members : List (String × List Char)} (adds : Adds record draft name text draft')
      (rest : Overlays record draft' members draft'') :
      Overlays record draft ((name, text) :: members) draft''

section

variable {draft draft' : δ} {name : String} {text blanks inside rest : List Char}

theorem Adds.starts (h : Adds record draft name text draft') : Starts text := by
  cases h with
  | known known new starts => exact starts
  | unknown unknown formed => exact formed.starts

theorem readColon_colon (h : Blank blanks) (s : List Char) :
    Record.readColon (blanks ++ ':' :: s) = .ok s := by
  rw [Record.readColon, skipBlanks_blank h, skipBlanks_cons rfl]
  rfl

/-- A member is read behind its key. -/
theorem Adds.readMember_eq (h : Adds record draft name text draft') (blank : Blank blanks)
    (blank' : Blank inside) (ends : Ends rest) :
    record.readMember name draft (blanks ++ ':' :: (inside ++ (text ++ rest))) =
      .ok (draft', rest) := by
  have hcolon := readColon_colon blank (inside ++ (text ++ rest))
  unfold Record.readMember
  cases h with
  | known known new starts takes =>
      rw [known]
      dsimp only
      rw [new, if_neg Bool.false_ne_true]
      exact bind_eq_ok.2 ⟨_, hcolon, takes inside rest blank' ends⟩
  | unknown unknown formed =>
      rw [unknown]
      exact bind_eq_ok.2 ⟨_, hcolon, bind_eq_ok.2 ⟨rest, formed.skipValue_eq blank' ends, rfl⟩⟩

/-- A member is read, and then the others. -/
theorem Adds.readMembers_eq (h : Adds record draft name text draft') {first : Bool}
    {s lead : List Char} (names : Names name lead) (blank : Blank inside) (ends : Ends rest)
    (key : ∀ body, lead ++ (inside ++ (text ++ rest)) = '"' :: body →
      Record.nextKey first s = .ok (.key body)) (fuel : Nat) :
    record.readMembers first draft s (fuel + 1) = record.readMembers false draft' rest fuel := by
  cases names with
  | @intro body blanks spells blank' =>
      have hlead : keyText body blanks ++ (inside ++ (text ++ rest)) =
          '"' :: (body ++ '"' :: (blanks ++ ':' :: (inside ++ (text ++ rest)))) := by
        simp [keyText]
      rw [Record.readMembers, key _ hlead, ok_bind]
      dsimp only
      rw [spells.readText_eq, ok_bind]
      dsimp only
      rw [h.readMember_eq blank' blank ends, ok_bind]

end

/-! ## Objects -/

section

variable {draft draft' : δ} {members : List (String × List Char)} {text blanks body : List Char}

/-- A key follows on the comma after a member. -/
theorem nextKey_comma {before : List Char} (h : Blank before) (h' : Blank blanks) :
    Record.nextKey false (before ++ ',' :: (blanks ++ '"' :: body)) = .ok (.key body) := by
  simp [Record.nextKey, skipBlanks_blank h, skipBlanks_blank h', skipBlanks_cons, isBlank]

theorem nextKey_first (h : Blank blanks) :
    Record.nextKey true (blanks ++ '"' :: body) = .ok (.key body) := by
  simp [Record.nextKey, skipBlanks_blank h, skipBlanks_cons, isBlank]

theorem nextKey_closer (first : Bool) (h : Blank blanks) :
    Record.nextKey first (blanks ++ '\x7d' :: body) = .ok (.finished body) := by
  rw [Record.nextKey, skipBlanks_blank h, skipBlanks_cons rfl]
  rfl

/-- Each item takes at least one character, and so does the end. -/
theorem Trail.length_lt {κ : Type} {o : Open} {Key : κ → List Char → Prop}
    {items : List (κ × List Char)} (h : Trail o Key items text) : items.length < text.length := by
  induction h with
  | close =>
      rw [List.length_append]
      exact Nat.succ_pos _
  | next blank blank' blank'' leads trail ih =>
      simp only [List.length_append, List.length_cons]
      omega

/-- The members that are left of an object are read. -/
theorem Trail.readMembers_eq (h : Trail .object Names members text)
    (overlays : Overlays record draft members draft') {fuel : Nat} (hfuel : members.length < fuel)
    (rest : List Char) :
    record.readMembers false draft (text ++ rest) fuel = .ok (draft', rest) := by
  induction h generalizing draft fuel with
  | @close blanks blank =>
      cases overlays
      cases fuel with
      | zero => cases hfuel
      | succ fuel =>
          rw [List.append_assoc, Record.readMembers]
          exact bind_eq_ok.2 ⟨_, nextKey_closer false blank, rfl⟩
  | @next name lead value text before between inside members blank blank' blank'' names trail ih =>
      cases overlays with
      | cons adds overlays =>
          cases fuel with
          | zero => cases hfuel
          | succ fuel =>
              simp only [List.append_assoc, List.cons_append]
              rw [adds.readMembers_eq names blank'' (trail.ends rest)
                fun body hbody => hbody ▸ nextKey_comma blank blank']
              exact ih overlays (Nat.lt_of_succ_lt_succ hfuel)

/-- An object is read as what its members come to. -/
theorem ObjectText.takes (h : ObjectText members text)
    (overlays : Overlays record record.empty members draft)
    (complete : record.missing? draft = none) : Takes record.read text draft := by
  refine takes_atValue (Bracketed.starts h) fun rest _ => ?_
  cases h with
  | @empty blanks blank =>
      cases overlays
      rw [List.cons_append, List.append_assoc]
      refine readObject_eq_ok ?_ complete
      rw [Record.readMembers]
      exact bind_eq_ok.2 ⟨_, nextKey_closer true blank, rfl⟩
  | @items name lead value text before inside members blank blank' names trail =>
      cases overlays with
      | cons adds overlays =>
          have hlength := trail.length_lt
          simp only [List.cons_append, List.append_assoc]
          refine readObject_eq_ok ?_ complete
          rw [adds.readMembers_eq names blank' (trail.ends rest)
            fun body hbody => hbody ▸ nextKey_first blank]
          refine trail.readMembers_eq overlays ?_ rest
          simp only [List.length_append]
          omega

end

/-! ## Lists -/

/-- Each field has a name of its own, and a record without it is not refused. -/
structure Record.Lenient (record : Record δ) : Prop where
  found : ∀ field ∈ record.fields, record.fields.find? (·.name = field.name) = some field
  optional : ∀ field ∈ record.fields, field.required = false

section

variable {draft draft' : δ} {fields : List (Field δ)} {values : List (List Char)}
  {text blanks before body : List Char}

theorem element?_first (h : Blank blanks) (starts : Starts text) (rest : List Char) :
    Record.element? true (blanks ++ (text ++ rest)) = .ok (some (text ++ rest)) := by
  rcases starts with ⟨c, s, rfl, hc, hne⟩
  simp [Record.element?, skipBlanks_blank h, skipBlanks_cons hc]

/-- An element follows on the comma after another. -/
theorem element?_comma (h : Blank before) (h' : Blank blanks) (starts : Starts text)
    (rest : List Char) :
    Record.element? false (before ++ ',' :: (blanks ++ (text ++ rest))) =
      .ok (some (text ++ rest)) := by
  rcases starts with ⟨c, s, rfl, hc, hne⟩
  have hcomma : isBlank ',' = false := rfl
  simp [Record.element?, skipBlanks_blank h, skipBlanks_blank h', skipBlanks_cons hcomma,
    skipBlanks_cons hc, hne]

theorem element?_closer (first : Bool) (h : Blank blanks) :
    Record.element? first (blanks ++ ']' :: body) = .ok none := by
  rw [Record.element?, skipBlanks_blank h, skipBlanks_cons rfl]
  rfl

theorem closeList_closer (h : Blank blanks) :
    Record.closeList (blanks ++ ']' :: body) = .ok body := by
  rw [Record.closeList, skipBlanks_blank h, skipBlanks_cons rfl]
  rfl

/-- The fields that are left at the end of a list are left out. -/
theorem readElements_closer (h : Blank blanks) (optional : ∀ field ∈ fields, field.required = false)
    (index : Nat) :
    record.readElements index fields draft (blanks ++ ']' :: body) =
      .ok (draft, blanks ++ ']' :: body) := by
  induction fields generalizing index with
  | nil => rfl
  | cons field fields ih =>
      rw [Record.readElements]
      refine bind_eq_ok.2 ⟨none, element?_closer _ h, ?_⟩
      dsimp only
      rw [optional field List.mem_cons_self, if_neg Bool.false_ne_true]
      exact ih (fun field hfield => optional field (List.mem_cons_of_mem _ hfield)) _

/-- An element is read into its field, and then the others. -/
theorem Adds.readElements_eq {field : Field δ} {s rest : List Char}
    (h : Adds record draft field.name text draft')
    (found : record.fields.find? (·.name = field.name) = some field) {index : Nat}
    (element : Record.element? (index = 0) s = .ok (some (text ++ rest))) (ends : Ends rest) :
    record.readElements index (field :: fields) draft s =
      record.readElements (index + 1) fields draft' rest := by
  cases h with
  | @known field' _ known new starts takes =>
      obtain rfl : field = field' := Option.some.inj (found.symm.trans known)
      have hread : field.read draft (text ++ rest) = .ok (draft', rest) :=
        takes [] rest blank_nil ends
      rw [Record.readElements, element, ok_bind]
      dsimp only
      rw [hread, ok_bind]
  | unknown unknown =>
      rw [found] at unknown
      cases unknown

/-- The elements that are left of a list are read, and no more fields than these are there. -/
theorem Trail.readElements_eq {items : List (Unit × List Char)}
    (h : Trail .list (fun _ => Leads .list) items text) (few : items.length ≤ fields.length)
    (lenient : record.Lenient) (subset : ∀ field ∈ fields, field ∈ record.fields)
    (overlays : Overlays record draft ((fields.map Field.name).zip (items.map Prod.snd)) draft')
    (index : Nat) (rest : List Char) :
    ∃ blanks, Blank blanks ∧ record.readElements (index + 1) fields draft (text ++ rest) =
      .ok (draft', blanks ++ ']' :: rest) := by
  -- By induction on the elements that are left; the fields for them are those that come next.
  induction h generalizing fields draft index with
  | @close blanks blank =>
      have hoptional := fun field hfield => lenient.optional field (subset field hfield)
      rw [List.map_nil, List.zip_nil_right] at overlays
      cases overlays
      rw [List.append_assoc]
      exact ⟨blanks, blank, readElements_closer blank hoptional _⟩
  | @next _ lead value text before between inside items blank blank' blank'' leads trail ih =>
      cases fields with
      | nil => cases few
      | cons field fields =>
          cases leads
          cases overlays with
          | cons adds overlays =>
              have hsubset := fun field hfield => subset field (List.mem_cons_of_mem _ hfield)
              have helement := element?_comma blank (blank'.append blank'') adds.starts
                (text ++ rest)
              rcases ih (Nat.le_of_succ_le_succ few) hsubset overlays (index + 1) with
                ⟨blanks, hblanks, hread⟩
              refine ⟨blanks, hblanks, ?_⟩
              rw [← hread]
              refine adds.readElements_eq (lenient.found field (subset field List.mem_cons_self))
                ?_ (trail.ends rest)
              simpa using helement

theorem readList_eq_ok {s : List Char} (h : Blank blanks)
    (elements : record.readElements 0 record.fields record.empty s =
      .ok (draft, blanks ++ ']' :: body)) : record.readList s = .ok (draft, body) := by
  rw [Record.readList, elements, ok_bind]
  dsimp only
  rw [closeList_closer h]
  rfl

/-- A list is read as what its values come to. -/
theorem ListText.takes (h : ListText values text) (few : values.length ≤ record.fields.length)
    (lenient : record.Lenient)
    (overlays : Overlays record record.empty (record.names.zip values) draft) :
    Takes record.read text draft := by
  refine takes_atValue (Bracketed.starts h) fun rest _ => ?_
  -- The values are those of the items, of which the layout is told.
  have hvalues : values = (values.map fun value => ((), value)).map Prod.snd := by
    simp [Function.comp_def]
  unfold ListText at h
  rw [hvalues] at few overlays
  generalize values.map (fun value => ((), value)) = items at h few overlays
  cases h with
  | @empty blanks blank =>
      rw [List.map_nil, List.zip_nil_right] at overlays
      cases overlays
      rw [List.cons_append, List.append_assoc]
      exact readList_eq_ok blank (readElements_closer blank lenient.optional 0)
  | @items _ lead value text before inside items blank blank' leads trail =>
      cases leads
      rw [Record.names] at overlays
      cases hfields : record.fields with
      | nil =>
          rw [hfields] at few
          cases few
      | cons field fields =>
          have hmem : ∀ f ∈ field :: fields, f ∈ record.fields := fun f hf => hfields ▸ hf
          rw [hfields] at few overlays
          cases overlays with
          | cons adds overlays =>
              rcases trail.readElements_eq (Nat.le_of_succ_le_succ (by simpa using few)) lenient
                (fun f hf => hmem f (List.mem_cons_of_mem _ hf)) overlays 0 rest with
                ⟨blanks, hblanks, hread⟩
              have helement := element?_first (blank.append blank') adds.starts (text ++ rest)
              simp only [List.cons_append, List.append_assoc]
              refine readList_eq_ok hblanks ?_
              rw [hfields, ← hread]
              refine adds.readElements_eq (lenient.found field (hmem field List.mem_cons_self))
                ?_ (trail.ends rest)
              simpa using helement

end

/-- A record is read as what its members come to. -/
theorem LaidOut.takes {members : List (String × List Char)} {text : List Char} {draft : δ}
    (h : LaidOut record members text) (lenient : record.Lenient)
    (overlays : Overlays record record.empty members draft) : Takes record.read text draft := by
  cases h with
  | object layout => exact layout.takes overlays (missing?_eq_none lenient.optional draft)
  | list few layout => exact layout.takes few lenient overlays

/-! ## What members say -/

/-- The members of a name. -/
def named (members : List (String × List Char)) (name : String) : List (String × List Char) :=
  members.filter (·.1 = name)

/-- What the members say of the field of a name: what the only one of that name says, or its
default if there is none. -/
inductive Says {α : Type} (members : List (String × List Char)) (name : String)
    (IsText : List Char → α → Prop) (default : α) : α → Prop
  | nothing (absent : named members name = []) : Says members name IsText default default
  | once {text : List Char} {a : α} (only : named members name = [(name, text)])
      (isText : IsText text a) : Says members name IsText default a

/-- The value, if there is a member of the name. -/
def said {α : Type} (members : List (String × List Char)) (name : String) (a : α) : Option α :=
  if named members name = [] then none else some a

section

variable {α : Type} {members members' before after : List (String × List Char)}
  {name : String} {text : List Char} {IsText : List Char → α → Prop} {default a : α}

theorem said_concat (members : List (String × List Char)) (name' : String) (text : List Char) :
    said (members ++ [(name', text)]) name a =
      if name' = name then some a else said members name a := by
  have hnamed : named (members ++ [(name', text)]) name =
      named members name ++ if name' = name then [(name', text)] else [] := by
    rw [named, List.filter_append]
    by_cases h : name' = name <;> simp [named, h]
  rw [said, hnamed]
  by_cases h : name' = name
  · simp [h]
  · simp only [if_neg h, List.append_nil]
    rfl

/-- What is said, or else the default. -/
theorem Says.getD_said (h : Says members name IsText default a) :
    (said members name a).getD default = a := by
  cases h with
  | nothing absent =>
      rw [said, if_pos absent]
      rfl
  | once only =>
      rw [said, if_neg (by simp [only])]
      rfl

/-- The member of a name says the value, and none before it says anything. -/
theorem Says.of_eq_append (h : Says members name IsText default a)
    (split : members = before ++ (name, text) :: after) :
    said before name a = none ∧ IsText text a := by
  have hnamed : named members name = named before name ++ (name, text) :: named after name := by
    rw [split, named, List.filter_append, List.filter_cons_of_pos (by simp)]
    rfl
  cases h with
  | nothing absent => simp [absent] at hnamed
  | @once text' _ only isText =>
      rcases List.append_eq_singleton_iff.1 (hnamed.symm.trans only) with ⟨hbefore, hcons⟩ | h
      · obtain ⟨⟨-, rfl⟩, -⟩ : (name = name ∧ text = text') ∧ _ := by simpa using hcons
        exact ⟨if_pos hbefore, isText⟩
      · cases h.2

/-- What is said depends on the members of the name only. -/
theorem Says.of_named_perm (h : Says members name IsText default a)
    (perm : (named members name).Perm (named members' name)) :
    Says members' name IsText default a := by
  cases h with
  | nothing absent => exact .nothing (List.nil_perm.1 (absent ▸ perm))
  | once only isText => exact .once (List.singleton_perm.1 (only ▸ perm)).symm isText

/-- If its text is replaced by another that says the same, so does the field. -/
theorem Says.replaced (h : Says members name IsText default a)
    {Same : String × List Char → String × List Char → Prop}
    (replaced : List.Forall₂ Same members members')
    (names : ∀ member member', Same member member' → member.1 = member'.1)
    (texts : ∀ text text' a, Same (name, text) (name, text') → IsText text a → IsText text' a) :
    Says members' name IsText default a := by
  have hnamed : List.Forall₂ Same (named members name) (named members' name) :=
    List.rel_filter (fun member member' hsame => by simp [names member member' hsame]) replaced
  cases h with
  | nothing absent =>
      rw [absent, List.forall₂_nil_left_iff] at hnamed
      exact .nothing hnamed
  | once only isText =>
      rw [only, List.forall₂_cons_left_iff] at hnamed
      rcases hnamed with ⟨⟨name', text'⟩, rest, hsame, hrest, hnamed⟩
      rw [List.forall₂_nil_left_iff] at hrest
      subst hrest
      obtain rfl : name = name' := names _ _ hsame
      exact .once hnamed (texts _ _ _ hsame isText)

end

/-- A member of a field puts into the draft what it says, since nothing was said of the field
before. -/
theorem Says.adds {α : Type} {members before after : List (String × List Char)} {name : String}
    {text : List Char} {IsText : List Char → α → Prop} {default a : α} {read : Reader α}
    {draft : δ} (h : Says members name IsText default a) (record : Record δ) (field : Field δ)
    (put : α → δ) (split : members = before ++ (name, text) :: after)
    (known : record.fields.find? (·.name = name) = some field)
    (present : field.present draft = (said before name a).isSome)
    (reads : field.read draft = fun s => (read s).map fun (a, s) => (put a, s))
    (starts : IsText text a → Starts text) (takes : IsText text a → Takes read text a) :
    Adds record draft name text (put a) := by
  rcases h.of_eq_append split with ⟨hnothing, hsays⟩
  refine .known known ?_ (starts hsays) ?_
  · rw [present, hnothing]
    rfl
  · rw [reads]
    exact (takes hsays).map put

/-- Members come to what they come to one after the other. -/
theorem overlays_of_prefixes {members : List (String × List Char)}
    (drafts : List (String × List Char) → δ)
    (adds : ∀ before name text after, members = before ++ (name, text) :: after →
      Adds record (drafts before) name text (drafts (before ++ [(name, text)]))) :
    Overlays record (drafts []) members (drafts members) := by
  have hfrom : ∀ after before, members = before ++ after →
      Overlays record (drafts before) after (drafts members) := by
    intro after
    induction after with
    | nil =>
        rintro before rfl
        rw [List.append_nil]
        exact .nil
    | cons member after ih =>
        intro before hmembers
        exact .cons (adds _ _ _ _ hmembers) (ih _ (by rw [hmembers, List.append_assoc]; rfl))
  exact hfrom members [] rfl

/-- Nobody asked for a member whose name no field has. -/
theorem Adds.of_not_mem {draft : δ} {name : String} {text : List Char}
    (unknown : name ∉ record.names) (formed : WellFormed text) :
    Adds record draft name text draft := by
  refine .unknown (List.find?_eq_none.2 fun field hfield => ?_) formed
  rw [decide_eq_true_eq]
  rintro rfl
  exact unknown (List.mem_map_of_mem hfield)

/-- The members of these names, in whatever order, among other members than before. -/
structure Rearranged (names : List String) (members members' : List (String × List Char)) :
    Prop where
  known : (members.filter (·.1 ∈ names)).Perm (members'.filter (·.1 ∈ names))
  unknown : ∀ member ∈ members', member.1 ∉ names → WellFormed member.2

/-- Of a name that is known, what is said stays the same. -/
theorem Says.rearranged {α : Type} {members members' : List (String × List Char)} {name : String}
    {IsText : List Char → α → Prop} {default a : α} (h : Says members name IsText default a)
    {names : List String} (rearranged : Rearranged names members members')
    (known : name ∈ names) : Says members' name IsText default a := by
  have hnamed : ∀ l, named (l.filter (·.1 ∈ names)) name = named l name := by
    intro l
    rw [named, List.filter_filter]
    refine List.filter_congr fun member _ => ?_
    by_cases hname : member.1 = name <;> simp [hname, known]
  have hperm := rearranged.known.filter (·.1 = name)
  exact h.of_named_perm (by rwa [← hnamed members, ← hnamed members'])

end Json
end Redelivery
