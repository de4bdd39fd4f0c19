import Redelivery.Part

/-!
# Tracking parts through a delivery

A tracking group is made for a batch and hands out tagged copies of its parts.
Whoever receives the copies may reorder, drop, repeat or tag them again; as long as a
part still carries a tag of the group, `Group.indexOf` tells where in the batch it
came from.

Main definitions:

* `Group`: a group's number and the size of the batch it was made for.
* `Group.tag`: the tagged copies that the group hands out.
* `Group.indexOf`: the place of a part, by the group's most recent tag on it.
* `Mint.track`: a fresh group for a batch, with its copies.
-/

namespace Redelivery

/-- A tracking group. -/
structure Group where
  id : Nat
  size : Nat
  deriving DecidableEq, Repr

namespace Group

/-- Copies of the parts of a batch, each tagged with the group and its own place. -/
def tag (group : Group) (batch : Batch) : Batch :=
  batch.mapIdx fun index part => part.tagged ⟨group.id, index⟩

/-- Where the part stood in the group's batch; `none` if it does not come from there. -/
def indexOf (group : Group) (part : Part) : Option Nat :=
  ((part.tags.reverse.find? fun t => t.group = group.id).map Tag.index).filter
    (· < group.size)

@[simp]
theorem length_tag (group : Group) (batch : Batch) :
    (group.tag batch).length = batch.length := by
  simp [tag]

theorem getElem?_tag (group : Group) (batch : Batch) (i : Nat) :
    (group.tag batch)[i]? = batch[i]?.map (·.tagged ⟨group.id, i⟩) := by
  simp [tag]

/-- A copy just tagged by a group is traced back to its place. -/
theorem indexOf_tagged (group : Group) (part : Part) (i : Nat) :
    group.indexOf (part.tagged ⟨group.id, i⟩) = if i < group.size then some i else none := by
  simp [indexOf, Option.filter]

/-- A tag of another group changes nothing. -/
theorem indexOf_tagged_of_ne {group : Group} {t : Tag} (part : Part)
    (h : t.group ≠ group.id) : group.indexOf (part.tagged t) = group.indexOf part := by
  simp [indexOf, h]

end Group

/-- A fresh group for the batch, with the tagged copies. -/
def Mint.track (mint : Mint) (batch : Batch) : Group × Batch × Mint :=
  let group : Group := ⟨mint.groups, batch.length⟩
  (group, group.tag batch, { mint with groups := mint.groups + 1 })

end Redelivery
