import Mathlib.Data.List.Forall2
import Redelivery.Layer

/-!
# Parts that differ in their groups only

Layers inside another layer tag what they hand out, and nobody ever asks for these tags.  So
what a stack hands out is like what a single layer hands out: the contents are the same, and
so are the tags once those of the inner layers are left out and the other groups have the
numbers that they have without them.

Two sides are compared here.  What is known of their groups is a list: for each group that
the one side has made, whether the other side has made it, too.

Main definitions:

* `Tag.onto?`: the tag that the other side has in place of a tag.
* `Part.Like`, `Batch.Like`, `Group.Like`, `Failure.Like`, `Outcome.Like`: what is like what.
* `Entry.Like`, `Held.Like`: the same for what a layer keeps.

Main results:

* Theorem `Group.Like.indexOf_eq`: parts that are alike come from the same place.
* Theorem `Batch.Like.retrySubset`: what is delivered again is alike.
-/

namespace Redelivery

/-! ## Tags -/

/-- The number that a group of the one side has on the other, if the other has made it. -/
def sharedGroup? (groups : List Bool) (group : Nat) : Option Nat :=
  if groups[group]? = some true then some ((groups.take group).count true) else none

/-- More groups change nothing for those that there are. -/
theorem sharedGroup?_append {groups : List Bool} {group : Nat} (h : group < groups.length)
    (more : List Bool) : sharedGroup? (groups ++ more) group = sharedGroup? groups group := by
  rw [sharedGroup?, sharedGroup?, List.getElem?_append_left h,
    List.take_append_of_le_length (Nat.le_of_lt h)]

/-- A new group that both sides have made has the next number on each. -/
theorem sharedGroup?_concat (groups : List Bool) :
    sharedGroup? (groups ++ [true]) groups.length = some (groups.count true) := by
  simp [sharedGroup?]

/-- A new group that only the one side has made. -/
theorem sharedGroup?_concat_false (groups : List Bool) :
    sharedGroup? (groups ++ [false]) groups.length = none := by
  simp [sharedGroup?]

/-- Later groups have greater numbers. -/
theorem count_take_lt {groups : List Bool} {i j : Nat} (hlt : i < j)
    (hi : groups[i]? = some true) : (groups.take i).count true < (groups.take j).count true := by
  have hprefix : groups.take (i + 1) <+: groups.take j := List.take_prefix_take_left hlt
  have hle := hprefix.sublist.count_le true
  rw [List.take_add_one, hi, List.count_append] at hle
  simpa using Nat.lt_of_succ_le hle

/-- Different groups have different numbers on the other side. -/
theorem sharedGroup?_inj {groups : List Bool} {i j n : Nat} (hi : sharedGroup? groups i = some n)
    (hj : sharedGroup? groups j = some n) : i = j := by
  unfold sharedGroup? at hi hj
  split at hi
  case isFalse => cases hi
  case isTrue hshared =>
    split at hj
    case isFalse => cases hj
    case isTrue hshared' =>
      have heq := hi.trans hj.symm
      rcases Nat.lt_trichotomy i j with hlt | rfl | hlt
      · exact absurd (Option.some.inj heq) (Nat.ne_of_lt (count_take_lt hlt hshared))
      · rfl
      · exact absurd (Option.some.inj heq) (Nat.ne_of_gt (count_take_lt hlt hshared'))

/-- The tag that the other side has in place of a tag, if it has made the group. -/
def Tag.onto? (groups : List Bool) (tag : Tag) : Option Tag :=
  (sharedGroup? groups tag.group).map fun group => ⟨group, tag.index⟩

/-! ## Parts and batches -/

/-- Both parts have the same content, and the tags that the other side can have. -/
structure Part.Like (groups : List Bool) (p q : Part) : Prop where
  content_eq : p.content = q.content
  tags_eq : q.tags = p.tags.filterMap (Tag.onto? groups)
  made : ∀ tag ∈ p.tags, tag.group < groups.length

namespace Part.Like

variable {groups : List Bool} {p q : Part}

/-- Parts without tags. -/
theorem untagged (groups : List Bool) (content : Content) :
    Part.Like groups ⟨content, []⟩ ⟨content, []⟩ :=
  ⟨rfl, rfl, nofun⟩

theorem append (h : p.Like groups q) (more : List Bool) : p.Like (groups ++ more) q where
  content_eq := h.content_eq
  tags_eq := by
    rw [h.tags_eq]
    refine List.filterMap_congr fun tag htag => ?_
    rw [Tag.onto?, Tag.onto?, sharedGroup?_append (h.made tag htag)]
  made tag htag := by
    rw [List.length_append]
    exact Nat.lt_add_right _ (h.made tag htag)

/-- Both sides have tagged the part in a new group. -/
theorem tagged (h : p.Like groups q) (index : Nat) :
    (p.tagged ⟨groups.length, index⟩).Like (groups ++ [true])
      (q.tagged ⟨groups.count true, index⟩) where
  content_eq := h.content_eq
  tags_eq := by
    simp [Part.tagged, (h.append [true]).tags_eq, Tag.onto?, sharedGroup?_concat]
  made tag htag := by
    rcases List.mem_append.1 htag with hold | hnew
    · exact (h.append [true]).made tag hold
    · obtain rfl := List.mem_singleton.1 hnew
      simp

/-- Only the one side has tagged the part. -/
theorem tagged_left (h : p.Like groups q) (index : Nat) :
    (p.tagged ⟨groups.length, index⟩).Like (groups ++ [false]) q where
  content_eq := h.content_eq
  tags_eq := by
    simp [Part.tagged, (h.append [false]).tags_eq, Tag.onto?, sharedGroup?_concat_false]
  made tag htag := by
    rcases List.mem_append.1 htag with hold | hnew
    · exact (h.append [false]).made tag hold
    · obtain rfl := List.mem_singleton.1 hnew
      simp

end Part.Like

/-- Both batches have as many parts, and their parts are alike. -/
abbrev Batch.Like (groups : List Bool) (x y : Batch) : Prop := List.Forall₂ (Part.Like groups) x y

namespace Batch.Like

variable {groups : List Bool} {x y : Batch}

theorem append (h : Batch.Like groups x y) (more : List Bool) : Batch.Like (groups ++ more) x y :=
  h.imp fun _ _ hlike => hlike.append more

theorem contents_eq (h : Batch.Like groups x y) : x.map Part.content = y.map Part.content := by
  induction h with
  | nil => rfl
  | cons hpart _ ih => rw [List.map_cons, List.map_cons, hpart.content_eq, ih]

theorem texts_eq (h : Batch.Like groups x y) : x.texts = y.texts := by
  have htexts : ∀ batch : Batch, batch.texts =
      (batch.map Part.content).map fun content => Utf8.lossy content.bytes := by
    intro batch
    rw [List.map_map]
    rfl
  rw [htexts, htexts, h.contents_eq]

end Batch.Like

/-- Lists are alike if they have as many entries and these are alike place by place. -/
theorem forall₂_mapIdx {α β γ δ : Type} {r : α → β → Prop} {R : γ → δ → Prop} {f : Nat → α → γ}
    {g : Nat → β → δ} {xs : List α} {ys : List β} (h : List.Forall₂ r xs ys)
    (hmap : ∀ i x y, r x y → R (f i x) (g i y)) :
    List.Forall₂ R (xs.mapIdx f) (ys.mapIdx g) := by
  induction h generalizing f g with
  | nil => exact .nil
  | cons hxy _ ih =>
      rw [List.mapIdx_cons, List.mapIdx_cons]
      exact .cons (hmap 0 _ _ hxy) (ih fun i => hmap (i + 1))

/-- Lists that are alike have entries that are alike at every place. -/
theorem forall₂_getElem? {α β : Type} {r : α → β → Prop} {xs : List α} {ys : List β}
    (h : List.Forall₂ r xs ys) (i : Nat) : Option.Rel r xs[i]? ys[i]? := by
  induction h generalizing i with
  | nil => exact .none
  | cons hxy _ ih =>
      cases i with
      | zero => exact .some hxy
      | succ i => exact ih i

/-- Both sides have tagged a batch in a new group. -/
theorem Batch.Like.tag {groups : List Bool} {x y : Batch} (h : Batch.Like groups x y) (size : Nat) :
    Batch.Like (groups ++ [true]) (Group.tag ⟨groups.length, size⟩ x)
      (Group.tag ⟨groups.count true, size⟩ y) :=
  forall₂_mapIdx h fun i _ _ hlike => hlike.tagged i

/-- Only the one side has tagged a batch. -/
theorem Batch.Like.tag_left {groups : List Bool} {x y : Batch} (h : Batch.Like groups x y)
    (size : Nat) : Batch.Like (groups ++ [false]) (Group.tag ⟨groups.length, size⟩ x) y := by
  have hmap := forall₂_mapIdx h (f := fun i p => p.tagged ⟨groups.length, i⟩) (g := fun _ q => q)
    fun i _ _ hlike => hlike.tagged_left i
  have hsame : y.mapIdx (fun _ q => q) = y := List.ext_getElem? (by simp)
  rwa [hsame] at hmap

/-! ## Groups -/

/-- Both groups are the same one. -/
structure Group.Like (groups : List Bool) (g h : Group) : Prop where
  shared : sharedGroup? groups g.id = some h.id
  size_eq : g.size = h.size

namespace Group.Like

variable {groups : List Bool} {g h : Group}

theorem made (like : g.Like groups h) : g.id < groups.length := by
  by_contra hge
  have hnone : groups[g.id]? = none := List.getElem?_eq_none (Nat.not_lt.1 hge)
  have hshared := like.shared
  simp [sharedGroup?, hnone] at hshared

theorem append (like : g.Like groups h) (more : List Bool) : g.Like (groups ++ more) h :=
  ⟨(sharedGroup?_append like.made more).trans like.shared, like.size_eq⟩

theorem concat (groups : List Bool) (size : Nat) :
    Group.Like (groups ++ [true]) ⟨groups.length, size⟩ ⟨groups.count true, size⟩ :=
  ⟨sharedGroup?_concat groups, rfl⟩

/-- Parts that are alike come from the same place. -/
theorem indexOf_eq (like : g.Like groups h) {p q : Part} (hpart : p.Like groups q) :
    g.indexOf p = h.indexOf q := by
  have hfinds : ∀ tag : Tag, ((Tag.onto? groups tag).any fun t => decide (t.group = h.id)) =
      decide (tag.group = g.id) := by
    intro tag
    cases hshared : sharedGroup? groups tag.group with
    | none =>
        have hne : tag.group ≠ g.id := by
          intro heq
          rw [heq, like.shared] at hshared
          cases hshared
        simp [Tag.onto?, hshared, hne]
    | some n =>
        have hiff : n = h.id ↔ tag.group = g.id := by
          constructor
          · rintro rfl
            exact sharedGroup?_inj hshared like.shared
          · intro heq
            rw [heq, like.shared] at hshared
            exact (Option.some.inj hshared).symm
        simp [Tag.onto?, hshared, hiff]
  have hfind : (q.tags.reverse.find? fun t => decide (t.group = h.id)).map Tag.index =
      (p.tags.reverse.find? fun t => decide (t.group = g.id)).map Tag.index := by
    rw [hpart.tags_eq, ← List.filterMap_reverse, List.find?_filterMap]
    simp only [hfinds]
    cases hfound : p.tags.reverse.find? fun t => decide (t.group = g.id) with
    | none => rfl
    | some tag =>
        have hgroup : tag.group = g.id := by simpa using List.find?_some hfound
        simp [Tag.onto?, hgroup, like.shared]
  rw [Group.indexOf, Group.indexOf, hfind, like.size_eq]

end Group.Like

/-! ## Failures -/

/-- Both failures name the same places, with the same errors, of parts that are alike. -/
inductive Failure.Like (groups : List Bool) : Failure → Failure → Prop
  | whole (reason : String) : Like groups (.whole reason) (.whole reason)
  | parts {cause : String} {x y : List (Part × Option String)}
      (h : List.Forall₂ (fun p q => p.1.Like groups q.1 ∧ p.2 = q.2) x y) :
      Like groups (.parts ⟨cause, x⟩) (.parts ⟨cause, y⟩)

/-- Both outcomes say that a batch was processed, or tell failures that are alike. -/
inductive Outcome.Like (groups : List Bool) : Outcome → Outcome → Prop
  | processed : Like groups .processed .processed
  | failed {x y : Failure} (h : x.Like groups y) : Like groups (.failed x) (.failed y)

/-- Nothing was found on both sides, or what was found is alike. -/
abbrev Batch.FoundLike (groups : List Bool) : Option Batch → Option Batch → Prop :=
  Option.Rel (Batch.Like groups)

variable {groups : List Bool}

/-- Batches that are alike have parts that are alike at every place. -/
theorem Batch.Like.getElem? {x y : Batch} (h : Batch.Like groups x y) (i : Nat) :
    Option.Rel (Part.Like groups) x[i]? y[i]? :=
  forall₂_getElem? h i

/-- What is collected for a part is alike. -/
theorem collectFailed_like {kept kept' : Batch} (hkept : Batch.Like groups kept kept')
    {group group' : Group} (hgroup : group.Like groups group') (i j : Nat) {p q : Part}
    (hpart : p.Like groups q) (error : Option String) {found found' : Option Batch}
    (hfound : Batch.FoundLike groups found found') :
    (∃ x y, collectFailed kept group i p error found = .yield x ∧
        collectFailed kept' group' j q error found' = .yield y ∧ Batch.FoundLike groups x y) ∨
      collectFailed kept group i p error found = .done none ∧
        collectFailed kept' group' j q error found' = .done none := by
  unfold collectFailed
  rw [hgroup.indexOf_eq hpart]
  cases error with
  | none => exact .inl ⟨found, found', rfl, rfl, hfound⟩
  | some reason =>
      cases group'.indexOf q with
      | none => exact .inr ⟨rfl, rfl⟩
      | some index =>
          have hat := hkept.getElem? index
          simp only [Option.isNone_some, Bool.false_eq_true, if_false, Option.bind_some]
          cases hx : kept[index]? with
          | none =>
              rw [hx] at hat
              cases hy : kept'[index]? with
              | none => exact .inr ⟨rfl, rfl⟩
              | some y =>
                  rw [hy] at hat
                  cases hat
          | some x =>
              rw [hx] at hat
              cases hy : kept'[index]? with
              | none =>
                  rw [hy] at hat
                  cases hat
              | some y =>
                  rw [hy] at hat
                  refine .inl ⟨_, _, rfl, rfl, ?_⟩
                  cases hat with
                  | some hpart =>
                      cases hfound with
                      | none => exact .none
                      | some hbatch => exact .some (List.rel_append hbatch (.cons hpart .nil))

/-- What is collected for all parts is alike. -/
theorem walkFrom_like {kept kept' : Batch} (hkept : Batch.Like groups kept kept')
    {group group' : Group} (hgroup : group.Like groups group')
    {x y : List (Part × Option String)}
    (h : List.Forall₂ (fun p q => p.1.Like groups q.1 ∧ p.2 = q.2) x y) (i : Nat)
    {found found' : Option Batch} (hfound : Batch.FoundLike groups found found') :
    Batch.FoundLike groups (PartialFailure.walkFrom (collectFailed kept group) i x found)
      (PartialFailure.walkFrom (collectFailed kept' group') i y found') := by
  induction h generalizing i found found' with
  | nil => exact hfound
  | @cons p q x y hpart _ ih =>
      rcases p with ⟨p, error⟩
      rcases q with ⟨q, error'⟩
      obtain rfl : error = error' := hpart.2
      unfold PartialFailure.walkFrom
      rcases collectFailed_like hkept hgroup i i hpart.1 error hfound with
        ⟨next, next', hx, hy, hnext⟩ | ⟨hx, hy⟩
      · rw [hx, hy]
        exact ih (i + 1) hnext
      · rw [hx, hy]
        exact .none

theorem errorCount_like (cause : String) {x y : List (Part × Option String)}
    (h : List.Forall₂ (fun p q => p.1.Like groups q.1 ∧ p.2 = q.2) x y) :
    (PartialFailure.mk cause x).errorCount = (PartialFailure.mk cause y).errorCount := by
  unfold PartialFailure.errorCount
  induction h with
  | nil => rfl
  | cons hpart _ ih => rw [List.countP_cons, List.countP_cons, ih, hpart.2]

/-- What is delivered again after failures that are alike is alike. -/
theorem Batch.Like.retrySubset {kept kept' : Batch} (hkept : Batch.Like groups kept kept')
    {group group' : Group} (hgroup : group.Like groups group') {x y : Failure}
    (h : x.Like groups y) :
    Batch.Like groups (Redelivery.retrySubset kept group x)
      (Redelivery.retrySubset kept' group' y) := by
  cases h with
  | whole reason => exact hkept
  | @parts cause x y h =>
      have hnothing : Batch.FoundLike groups (some []) (some []) := .some .nil
      have hwalk := walkFrom_like hkept hgroup h 0 hnothing
      have hcount := errorCount_like cause h
      simp only [Redelivery.retrySubset, hcount, hkept.length_eq, PartialFailure.walk]
      split
      case isTrue => exact hkept
      case isFalse =>
        generalize PartialFailure.walkFrom (collectFailed kept group) 0 x (some []) = found
          at hwalk
        generalize PartialFailure.walkFrom (collectFailed kept' group') 0 y (some []) = found'
          at hwalk
        cases hwalk with
        | none => exact hkept
        | some hbatch =>
            cases hbatch with
            | nil => exact hkept
            | cons hpart hrest => exact .cons hpart hrest

/-! ## What a layer keeps -/

/-- Both entries are the same but for their parts and receipts, which are alike. -/
structure Entry.Like {ρ ρ' : Type} (groups : List Bool) (receipt : ρ → ρ' → Prop) (x : Entry ρ)
    (y : Entry ρ') : Prop where
  batch : Batch.Like groups x.batch y.batch
  receipt : receipt x.receipt y.receipt
  attempts_eq : x.attempts = y.attempts
  backoff_eq : x.backoff = y.backoff
  lastFailed_eq : x.lastFailed = y.lastFailed

/-- Both receipts are for entries that are alike, with the same group. -/
structure Held.Like {ρ ρ' : Type} (groups : List Bool) (receipt : ρ → ρ' → Prop) (x : Held ρ)
    (y : Held ρ') : Prop where
  entry : x.entry.Like groups receipt y.entry
  group : Option.Rel (Group.Like groups) x.group y.group

variable {ρ ρ' : Type} {receipt receipt' : ρ → ρ' → Prop}

theorem Entry.Like.append {x : Entry ρ} {y : Entry ρ'} (h : x.Like groups receipt y)
    (more : List Bool) (hreceipt : receipt x.receipt y.receipt → receipt' x.receipt y.receipt) :
    x.Like (groups ++ more) receipt' y :=
  { h with batch := h.batch.append more, receipt := hreceipt h.receipt }

theorem Held.Like.append {x : Held ρ} {y : Held ρ'} (h : x.Like groups receipt y)
    (more : List Bool)
    (hreceipt : receipt x.entry.receipt y.entry.receipt →
      receipt' x.entry.receipt y.entry.receipt) :
    x.Like (groups ++ more) receipt' y where
  entry := h.entry.append more hreceipt
  group := by
    have hgroup := h.group
    cases hx : x.group <;> cases hy : y.group <;> rw [hx, hy] at hgroup
    · exact .none
    · cases hgroup
    · cases hgroup
    · cases hgroup with
      | some hgroup => exact .some (hgroup.append more)

/-- After failures that are alike the entries are delivered in ways that are alike. -/
theorem Held.Like.afterFailure {x : Held ρ} {y : Held ρ'} (h : x.Like groups receipt y)
    {failure failure' : Failure} (hfailure : failure.Like groups failure') :
    (x.afterFailure failure).Like groups receipt (y.afterFailure failure') := by
  rcases x with ⟨x, group⟩
  rcases y with ⟨y, group'⟩
  rcases h with ⟨hentry, hgroup⟩
  cases hgroup with
  | none => exact hentry
  | some hgroup => exact { hentry with batch := hentry.batch.retrySubset hgroup hfailure }

end Redelivery
