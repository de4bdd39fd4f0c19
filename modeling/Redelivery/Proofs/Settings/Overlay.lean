import Redelivery.Proofs.Json.Overlay
import Redelivery.Settings.Document

/-!
# Settings over their defaults

A document says as much of the settings as it likes, and the defaults say the rest, inside the
policy of backoff too.  Read from any text with the right members, the settings are the defaults
with what the members say laid over them, if they pass the check.  Hence the members may change
places, those that nobody asked for come and go, and the first fields may as well stand in a list,
without a difference.

Main definitions:

* `Policy.Overlaid`, `Settings.Overlaid`: the defaults with what members say laid over them.
* `Policy.Restates`, `Settings.Restates`: other texts that say the same.

Main results:

* Theorem `Settings.parse_of_overlaid`: a document is read as its members over the defaults.
* Theorem `Settings.overlays_defaults`: so is every other document that says the same.
-/

namespace Redelivery

open Json

/-- The text of a duration, in as many whole milliseconds as fit into 64 bits. -/
inductive IsMillis : List Char → Duration → Prop
  | intro {n : Numeral} {ms : UInt64} (number : n.number = .ok (.integer ms.toNat)) :
      IsMillis n.text (.ofMillis ms)

theorem IsMillis.starts {text : List Char} {d : Duration} (h : IsMillis text d) : Starts text := by
  cases h with
  | intro => exact Numeral.starts _

theorem IsMillis.takes {text : List Char} {d : Duration} (h : IsMillis text d) :
    Takes readMillis text d := by
  cases h with
  | intro number => exact (Numeral.takes_uint64 number "u64").map Duration.ofMillis

/-! ## Policies -/

namespace Policy

/-- The policy is the default one, with what the members say laid over it.  Each field has one
member at most. -/
structure Overlaid (members : List (String × List Char)) (policy : Policy) : Prop where
  initial : Says members "initial_interval_ms" IsMillis default.initial policy.initial
  ceiling : Says members "max_interval_ms" IsMillis default.ceiling policy.ceiling
  multiplier : Says members "multiplier" IsDouble default.multiplier policy.multiplier
  randomization :
    Says members "randomization_factor" IsDouble default.randomization policy.randomization
  unknown : ∀ member ∈ members, member.1 ∉ record.names → WellFormed member.2

/-- The draft once these members have been read. -/
def draft (policy : Policy) (members : List (String × List Char)) : Draft where
  initial := said members "initial_interval_ms" policy.initial
  ceiling := said members "max_interval_ms" policy.ceiling
  multiplier := said members "multiplier" policy.multiplier
  randomization := said members "randomization_factor" policy.randomization

theorem lenient_record : record.Lenient where
  found field hfield := by
    simp only [record, List.mem_cons, List.not_mem_nil, or_false] at hfield
    rcases hfield with rfl | rfl | rfl | rfl <;> rfl
  optional := by decide

section

variable {members members' before after : List (String × List Char)} {name : String}
  {text text' : List Char} {policy : Policy}

/-- A member of a field adds what it says, and another adds nothing. -/
theorem Overlaid.adds (h : Overlaid members policy)
    (split : members = before ++ (name, text) :: after) :
    Adds record (policy.draft before) name text (policy.draft (before ++ [(name, text)])) := by
  by_cases hname : name ∈ ["initial_interval_ms", "max_interval_ms", "multiplier",
      "randomization_factor"]
  · simp only [List.mem_cons, List.not_mem_nil, or_false] at hname
    -- The draft after the member differs from the one before it in the member's field.
    rcases hname with rfl | rfl | rfl | rfl
    · have hadds := h.initial.adds record initialField
        (fun d => { policy.draft before with initial := some d })
        split rfl rfl rfl (·.starts) (·.takes)
      simpa [draft, said_concat] using hadds
    · have hadds := h.ceiling.adds record ceilingField
        (fun d => { policy.draft before with ceiling := some d })
        split rfl rfl rfl (·.starts) (·.takes)
      simpa [draft, said_concat] using hadds
    · have hadds := h.multiplier.adds record multiplierField
        (fun x => { policy.draft before with multiplier := some x })
        split rfl rfl rfl (·.starts) (·.takes)
      simpa [draft, said_concat] using hadds
    · have hadds := h.randomization.adds record randomizationField
        (fun x => { policy.draft before with randomization := some x })
        split rfl rfl rfl (·.starts) (·.takes)
      simpa [draft, said_concat] using hadds
  · have hadds : Adds record (policy.draft before) name text (policy.draft before) :=
      .of_not_mem hname (h.unknown (name, text) (by simp [split]) hname)
    simp only [List.mem_cons, List.not_mem_nil, or_false, not_or] at hname
    simpa [draft, said_concat, hname] using hadds

/-- The draft of a policy gives the policy. -/
theorem Overlaid.ofDraft_eq (h : Overlaid members policy) :
    ofDraft (policy.draft members) = policy := by
  simp only [ofDraft, draft, h.initial.getD_said, h.ceiling.getD_said, h.multiplier.getD_said,
    h.randomization.getD_said]

/-- The policy is what the members come to. -/
theorem Overlaid.takes (h : Overlaid members policy) (layout : LaidOut record members text) :
    Takes read text policy := by
  have hoverlays : Overlays record record.empty members (policy.draft members) :=
    overlays_of_prefixes policy.draft fun _ _ _ _ => h.adds
  have htakes := (layout.takes lenient_record hoverlays).map ofDraft
  rwa [h.ofDraft_eq] at htakes

/-- Whatever order the members come in, and whatever stands among them, they say the same. -/
theorem Overlaid.rearranged (h : Overlaid members policy)
    (rearranged : Rearranged record.names members members') : Overlaid members' policy where
  initial := h.initial.rearranged rearranged (by decide)
  ceiling := h.ceiling.rearranged rearranged (by decide)
  multiplier := h.multiplier.rearranged rearranged (by decide)
  randomization := h.randomization.rearranged rearranged (by decide)
  unknown := rearranged.unknown

end

/-- The text of a policy, in either form. -/
inductive IsText : List Char → Policy → Prop
  | intro {members : List (String × List Char)} {text : List Char} {policy : Policy}
      (layout : LaidOut record members text) (overlaid : Overlaid members policy) :
      IsText text policy

/-- The second text says of a policy what the first one says, with the members in another order,
among others that nobody asked for, or in the other form. -/
inductive Restates : List Char → List Char → Prop
  | intro {members members' : List (String × List Char)} {text text' : List Char} {policy : Policy}
      (layout : LaidOut record members text) (overlaid : Overlaid members policy)
      (rearranged : Rearranged record.names members members')
      (layout' : LaidOut record members' text') : Restates text text'

section

variable {text text' : List Char} {policy : Policy}

theorem IsText.starts (h : IsText text policy) : Starts text := by
  cases h with
  | intro layout => exact layout.starts

theorem IsText.takes (h : IsText text policy) : Takes read text policy := by
  cases h with
  | intro layout overlaid => exact overlaid.takes layout

theorem IsText.restated (h : IsText text policy) (restates : Restates text text') :
    IsText text' policy := by
  cases restates with
  | @intro _ _ _ _ policy' layout overlaid rearranged layout' =>
      -- A text is taken as one policy only, whichever members are seen in it.
      have hpolicy := h.takes [] [] blank_nil nofun
      rw [overlaid.takes layout [] [] blank_nil nofun] at hpolicy
      cases hpolicy
      exact .intro layout' (overlaid.rearranged rearranged)

end

end Policy

/-! ## Settings -/

namespace Settings

/-- The settings are the default ones, with what the members say laid over them.  Each field has
one member at most, and so has each field of the policy inside. -/
structure Overlaid (members : List (String × List Char)) (settings : Settings) : Prop where
  backoff : Says members "backoff" Policy.IsText default.backoff settings.backoff
  backoffAfter :
    Says members "backoff_after_attempts" IsCount default.backoffAfter settings.backoffAfter
  drainPoll : Says members "drain_poll_interval_ms" IsMillis default.drainPoll settings.drainPoll
  unknown : ∀ member ∈ members, member.1 ∉ record.names → WellFormed member.2

/-- The draft once these members have been read. -/
def draft (settings : Settings) (members : List (String × List Char)) : Draft where
  backoff := said members "backoff" settings.backoff
  backoffAfter := said members "backoff_after_attempts" settings.backoffAfter
  drainPoll := said members "drain_poll_interval_ms" settings.drainPoll

/-- The second member is the first one, or restates the policy in it. -/
structure Restates (member member' : String × List Char) : Prop where
  name : member.1 = member'.1
  text : member.2 = member'.2 ∨ member.1 = "backoff" ∧ Policy.Restates member.2 member'.2

theorem lenient_record : record.Lenient where
  found field hfield := by
    simp only [record, List.mem_cons, List.not_mem_nil, or_false] at hfield
    rcases hfield with rfl | rfl | rfl <;> rfl
  optional := by decide

section

variable {members restated members' before after : List (String × List Char)} {name : String}
  {text : List Char} {settings : Settings}

/-- A member of a field adds what it says, and another adds nothing. -/
theorem Overlaid.adds (h : Overlaid members settings)
    (split : members = before ++ (name, text) :: after) :
    Adds record (settings.draft before) name text (settings.draft (before ++ [(name, text)])) := by
  by_cases hname : name ∈ ["backoff", "backoff_after_attempts", "drain_poll_interval_ms"]
  · simp only [List.mem_cons, List.not_mem_nil, or_false] at hname
    rcases hname with rfl | rfl | rfl
    · have hadds := h.backoff.adds record backoffField
        (fun p => { settings.draft before with backoff := some p })
        split rfl rfl rfl (·.starts) (·.takes)
      simpa [draft, said_concat] using hadds
    · have hadds := h.backoffAfter.adds record backoffAfterField
        (fun n => { settings.draft before with backoffAfter := some n })
        split rfl rfl rfl (·.starts) (·.takes)
      simpa [draft, said_concat] using hadds
    · have hadds := h.drainPoll.adds record drainPollField
        (fun d => { settings.draft before with drainPoll := some d })
        split rfl rfl rfl (·.starts) (·.takes)
      simpa [draft, said_concat] using hadds
  · have hadds : Adds record (settings.draft before) name text (settings.draft before) :=
      .of_not_mem hname (h.unknown (name, text) (by simp [split]) hname)
    simp only [List.mem_cons, List.not_mem_nil, or_false, not_or] at hname
    simpa [draft, said_concat, hname] using hadds

/-- The draft of settings gives the settings. -/
theorem Overlaid.ofDraft_eq (h : Overlaid members settings) :
    ofDraft (settings.draft members) = settings := by
  simp only [ofDraft, draft, h.backoff.getD_said, h.backoffAfter.getD_said, h.drainPoll.getD_said]

/-- The settings are what the members come to. -/
theorem Overlaid.takes (h : Overlaid members settings) (layout : LaidOut record members text) :
    Takes read text settings := by
  have hoverlays : Overlays record record.empty members (settings.draft members) :=
    overlays_of_prefixes settings.draft fun _ _ _ _ => h.adds
  have htakes := (layout.takes lenient_record hoverlays).map ofDraft
  rwa [h.ofDraft_eq] at htakes

/-- Only the policy is restated. -/
theorem Restates.text_eq {text text' : List Char} (h : Restates (name, text) (name, text'))
    (hname : name ≠ "backoff") : text = text' :=
  h.text.resolve_right fun hbackoff => hname hbackoff.1

/-- Members that are restated, and then rearranged, say the same. -/
theorem Overlaid.restates (h : Overlaid members settings)
    (replaced : List.Forall₂ Restates members restated)
    (rearranged : Rearranged record.names restated members') : Overlaid members' settings where
  backoff := by
    refine Says.rearranged (h.backoff.replaced replaced (fun _ _ h => h.name) ?_) rearranged
      (by decide)
    rintro text text' policy ⟨-, rfl | ⟨-, hrestates⟩⟩ htext
    · exact htext
    · exact htext.restated hrestates
  backoffAfter := by
    refine Says.rearranged (h.backoffAfter.replaced replaced (fun _ _ h => h.name) ?_) rearranged
      (by decide)
    exact fun text text' n hrestates htext => hrestates.text_eq (by decide) ▸ htext
  drainPoll := by
    refine Says.rearranged (h.drainPoll.replaced replaced (fun _ _ h => h.name) ?_) rearranged
      (by decide)
    exact fun text text' d hrestates htext => hrestates.text_eq (by decide) ▸ htext
  unknown := rearranged.unknown

/-- A document is read as the defaults with what its members say laid over them, if they pass the
check. -/
theorem parse_of_overlaid {text : String} {value : List Char} (overlaid : Overlaid members settings)
    (layout : LaidOut record members value) (document : Document value text) :
    parse text = settings.validate := by
  rw [parse, (overlaid.takes layout).parse_eq document]

/-- A document is read as the defaults with what its members say laid over them, if they pass the
check.  So is every other document with these members, whatever order they come in, whatever
stands among them, and in whichever form, at the top or in the policy inside. -/
theorem overlays_defaults {text : String} {value : List Char} (document : Document value text)
    (layout : LaidOut record members value) (overlaid : Overlaid members settings) :
    parse text = settings.validate ∧
      ∀ (restated members' : List (String × List Char)) (value' : List Char) (text' : String),
        List.Forall₂ Restates members restated → Rearranged record.names restated members' →
          LaidOut record members' value' → Document value' text' → parse text' = parse text := by
  have hparse := parse_of_overlaid overlaid layout document
  refine ⟨hparse, ?_⟩
  intro restated members' value' text' hrestated hrearranged hlayout hdocument
  rw [hparse]
  exact parse_of_overlaid (overlaid.restates hrestated hrearranged) hlayout hdocument

end

/-! ### A document and another -/

namespace Overlaid.Tour

/-- A number of one digit. -/
def digit (c : Char) (h : Digits.isDigit c = true) : Numeral where
  negative := false
  whole := [c]
  fraction := none
  exponent := none
  whole_ne_nil := List.cons_ne_nil c []
  isDigit_whole := by simpa using h
  zero_alone _ := rfl
  fraction_ne_nil := nofun
  isDigit_fraction := nofun

/-- A document that says two things, one of them about the policy. -/
def text : String :=
  "\x7b \"backoff\": \x7b\"initial_interval_ms\": 7 \x7d, \"drain_poll_interval_ms\": 5 \x7d"

/-- It says them again, in another order, with the policy as a list, and says something else. -/
def text' : String := "\x7b\"note\": [0], \"drain_poll_interval_ms\": 5, \"backoff\": [7]\x7d"

def policyText : List Char := "\x7b\"initial_interval_ms\": 7 \x7d".toList

def members : List (String × List Char) :=
  [("backoff", policyText), ("drain_poll_interval_ms", ['5'])]

def restated : List (String × List Char) :=
  [("backoff", ['[', '7', ']']), ("drain_poll_interval_ms", ['5'])]

def members' : List (String × List Char) :=
  [("note", ['[', '0', ']']), ("drain_poll_interval_ms", ['5']), ("backoff", ['[', '7', ']'])]

-- What follows names doubles; unfolded, their units would be computed.
attribute [local irreducible] Binary64.ofRatio

/-- What both of them give. -/
def settings : Settings :=
  { default with backoff.initial := .ofMillis 7, drainPoll := .ofMillis 5 }

theorem isMillis_seven : IsMillis ['7'] (.ofMillis 7) := by
  have hnumber : (digit '7' rfl).number = .ok (.integer (7 : UInt64).toNat) := by decide +kernel
  exact IsMillis.intro hnumber

theorem isMillis_five : IsMillis ['5'] (.ofMillis 5) := by
  have hnumber : (digit '5' rfl).number = .ok (.integer (5 : UInt64).toNat) := by decide +kernel
  exact IsMillis.intro hnumber

/-- A list of one value. -/
theorem bracketed_value (value : List Char) :
    Bracketed .list (fun _ => Leads .list) [((), value)] ('[' :: (value ++ [']'])) :=
  @Bracketed.items Unit .list (fun _ => Leads .list) () [] value [']'] [] [] [] blank_nil blank_nil
    .list (.close blank_nil)

theorem wellFormed_note : WellFormed ['[', '0', ']'] := by
  refine .nested (bracketed_value ['0']) ?_
  rintro item hitem
  obtain rfl := List.mem_singleton.1 hitem
  exact .number (digit '0' rfl)

theorem overlaid_policy : Policy.Overlaid [("initial_interval_ms", ['7'])] settings.backoff where
  initial := .once rfl isMillis_seven
  ceiling := .nothing rfl
  multiplier := .nothing rfl
  randomization := .nothing rfl
  unknown := by
    rintro member hmember hunknown
    obtain rfl := List.mem_singleton.1 hmember
    exact absurd hunknown (by decide)

theorem laidOut_policy : LaidOut Policy.record [("initial_interval_ms", ['7'])] policyText := by
  have hkey : Names "initial_interval_ms" _ := names_plain (by decide)
  have hblank : Blank [' '] := by decide
  exact .object (.items blank_nil hblank hkey (.close hblank))

theorem laidOut_list :
    LaidOut Policy.record [("initial_interval_ms", ['7'])] ['[', '7', ']'] := by
  have hvalues : ListText [['7']] ['[', '7', ']'] := bracketed_value ['7']
  exact .list (by decide) hvalues

theorem overlaid : Overlaid members settings where
  backoff := .once rfl (.intro laidOut_policy overlaid_policy)
  backoffAfter := .nothing rfl
  drainPoll := .once rfl isMillis_five
  unknown := by
    rintro member hmember hunknown
    simp only [members, List.mem_cons, List.not_mem_nil, or_false] at hmember
    rcases hmember with rfl | rfl
    · exact absurd hunknown (by decide)
    · exact absurd hunknown (by decide)

theorem laidOut : LaidOut record members text.toList := by
  have hbackoff : Names "backoff" _ := names_plain (by decide)
  have hpoll : Names "drain_poll_interval_ms" _ := names_plain (by decide)
  have hblank : Blank [' '] := by decide
  exact .object (.items hblank hblank hbackoff
    (.next blank_nil hblank hblank hpoll (.close hblank)))

theorem laidOut' : LaidOut record members' text'.toList := by
  have hnote : Names "note" _ := names_plain (by decide)
  have hpoll : Names "drain_poll_interval_ms" _ := names_plain (by decide)
  have hbackoff : Names "backoff" _ := names_plain (by decide)
  have hblank : Blank [' '] := by decide
  exact .object (.items blank_nil hblank hnote (.next blank_nil hblank hblank hpoll
    (.next blank_nil hblank hblank hbackoff (.close blank_nil))))

theorem document_toList (text : String) : Document text.toList text :=
  ⟨[], [], blank_nil, blank_nil, by simp⟩

theorem restates : List.Forall₂ Restates members restated := by
  have hrearranged : Rearranged Policy.record.names [("initial_interval_ms", ['7'])]
      [("initial_interval_ms", ['7'])] := ⟨.refl _, overlaid_policy.unknown⟩
  have hpolicy : Policy.Restates policyText ['[', '7', ']'] :=
    .intro laidOut_policy overlaid_policy hrearranged laidOut_list
  exact .cons ⟨rfl, .inr ⟨rfl, hpolicy⟩⟩ (.cons ⟨rfl, .inl rfl⟩ .nil)

theorem rearranged : Rearranged record.names restated members' where
  known := by decide
  unknown := by
    rintro member hmember hunknown
    simp only [members', List.mem_cons, List.not_mem_nil, or_false] at hmember
    rcases hmember with rfl | rfl | rfl
    · exact wellFormed_note
    · exact absurd hunknown (by decide)
    · exact absurd hunknown (by decide)

/-- Both documents give the same settings. -/
theorem overlays_defaults_restated :
    Document text.toList text ∧ LaidOut record members text.toList ∧ Overlaid members settings ∧
      parse text = .ok settings ∧ parse text' = .ok settings := by
  have hoverlays := overlays_defaults (document_toList text) laidOut overlaid
  have hvalid : settings.validate = .ok settings := by decide +kernel
  have hparse : parse text = .ok settings := hoverlays.1.trans hvalid
  have hrestated : parse text' = parse text :=
    hoverlays.2 restated members' text'.toList text' restates rearranged laidOut'
      (document_toList text')
  exact ⟨document_toList text, laidOut, overlaid, hparse, hrestated.trans hparse⟩

end Overlaid.Tour

end Settings

end Redelivery
