import Mathlib.Logic.Relation
import Redelivery.Tracking

/-!
# Descent of copies

Parts are made, copied, put into batches in any order and tracked by one group after the other.
A pool keeps all the parts that came about in this way, each with the part of which it is a
copy.  A group traces a part back to a place exactly if the part descends from the copy that
the group handed out at this place, whatever other groups have tagged it before or since.

Main definitions:

* `Handling`, `Pool.after`: what is done with parts.
* `Pool.Descends`: a part is a copy, of a copy as it may be, of another.
* `Pool.Traces`: a group tells descent from its copies.

Main results:

* Theorem `Pool.Rooted.traces`: what the steps of a pool keep is enough for that.
* Theorem `Pool.traces_descent`: groups tell descent in every pool, and new groups do not change
  what they tell.
-/

namespace Redelivery

/-- A part at hand, with the place of the part of which it is a copy. -/
structure Item where
  part : Part
  parent : Option Nat
  deriving DecidableEq

/-- All the parts that have come about, and the source of groups. -/
structure Pool where
  mint : Mint
  items : List Item

/-- What is done with parts. -/
inductive Handling where
  /-- A part is made without tags, of a content of its own or of one that others have. -/
  | make (content : Content)
  | copy (place : Nat)
  /-- A batch of the parts at these places is tracked by a fresh group. -/
  | track (places : List Nat)

namespace Pool

/-- Nothing has come about yet. -/
def start (mint : Mint) : Pool := ⟨mint, []⟩

/-- The parts at these places, each with its place. -/
def pick (pool : Pool) (places : List Nat) : List (Nat × Part) :=
  places.filterMap fun k => pool.items[k]?.map fun item => (k, item.part)

/-- The batch of the parts at these places. -/
def batch (pool : Pool) (places : List Nat) : Batch := (pool.pick places).map Prod.snd

/-- What comes about if a batch is tracked. -/
def tracked (pool : Pool) (places : List Nat) : List Item :=
  List.zipWith (fun picked copy => ⟨copy, some picked.1⟩) (pool.pick places)
    (pool.mint.track (pool.batch places)).2.1

/-- The pool after something was done. -/
def after (pool : Pool) : Handling → Pool
  | .make content => { pool with items := pool.items ++ [⟨⟨content, []⟩, none⟩] }
  | .copy place =>
      { pool with
        items := pool.items ++ (pool.pick [place]).map fun picked => ⟨picked.2, some picked.1⟩ }
  | .track places =>
      ⟨(pool.mint.track (pool.batch places)).2.2, pool.items ++ pool.tracked places⟩

/-- The pool after one thing was done after the other. -/
def run (pool : Pool) (handlings : List Handling) : Pool := handlings.foldl after pool

/-- The part at a place is a copy of the one at another. -/
def CopyOf (pool : Pool) (k j : Nat) : Prop :=
  ∃ item, pool.items[k]? = some item ∧ item.parent = some j

/-- It is the same part, or a copy of one that descends from it. -/
def Descends (pool : Pool) : Nat → Nat → Prop := Relation.ReflTransGen pool.CopyOf

/-- A group that handed out copies of a batch, from the place `first` on, tells which parts
descend from them. -/
structure Traces (pool : Pool) (group : Group) (batch : Batch) (first : Nat) : Prop where
  /-- The copies are at the places from `first` on. -/
  copies : ∀ i < batch.length, pool.items[first + i]?.map Item.part = (group.tag batch)[i]?
  /-- A part is traced back to a place exactly if it descends from the copy there. -/
  eq_some : ∀ (k : Nat) (item : Item), pool.items[k]? = some item → ∀ i,
    group.indexOf item.part = some i ↔ i < batch.length ∧ pool.Descends k (first + i)
  /-- It is not traced back exactly if it descends from no copy. -/
  eq_none : ∀ (k : Nat) (item : Item), pool.items[k]? = some item →
    (group.indexOf item.part = none ↔ ∀ i < batch.length, ¬pool.Descends k (first + i))
  /-- It shares its content with the part to which it is traced back. -/
  shares : ∀ item ∈ pool.items, ∀ i, group.indexOf item.part = some i →
    ∃ original, batch[i]? = some original ∧ item.part.SharesContent original

section

/-! ## One step -/

variable {pool : Pool} {places : List Nat}

theorem exists_of_mem_pick {picked : Nat × Part} (h : picked ∈ pool.pick places) :
    ∃ item, pool.items[picked.1]? = some item ∧ item.part = picked.2 := by
  rcases List.mem_filterMap.1 h with ⟨k, -, hk⟩
  rcases Option.map_eq_some_iff.1 hk with ⟨item, hitem, rfl⟩
  exact ⟨item, hitem, rfl⟩

theorem getElem?_tracked (pool : Pool) (places : List Nat) (i : Nat) :
    (pool.tracked places)[i]? = (pool.pick places)[i]?.map fun picked =>
      ⟨picked.2.tagged ⟨pool.mint.groups, i⟩, some picked.1⟩ := by
  have hcopies : (pool.mint.track (pool.batch places)).2.1[i]? =
      (pool.pick places)[i]?.map fun picked => picked.2.tagged ⟨pool.mint.groups, i⟩ := by
    rw [Mint.track, Group.getElem?_tag, batch, List.getElem?_map, Option.map_map]
    rfl
  rw [tracked, List.getElem?_zipWith, hcopies]
  cases (pool.pick places)[i]? <;> rfl

/-- What may come about when something is done, if `groups` groups have been made then: a part
without tags, a copy of a part, or a copy with a tag of a new group. -/
inductive Makes (pool : Pool) (groups : Nat) : Item → Prop
  | fresh (content : Content) : Makes pool groups ⟨⟨content, []⟩, none⟩
  | copied {j : Nat} {original : Item} (found : pool.items[j]? = some original) :
      Makes pool groups ⟨original.part, some j⟩
  | tagged {j : Nat} {original : Item} (found : pool.items[j]? = some original) (i : Nat)
      (grown : pool.mint.groups < groups) :
      Makes pool groups ⟨original.part.tagged ⟨pool.mint.groups, i⟩, some j⟩

/-- All that is done adds parts to those that there are. -/
theorem exists_makes (pool : Pool) (handling : Handling) :
    ∃ new, (pool.after handling).items = pool.items ++ new ∧
      ∀ item ∈ new, pool.Makes (pool.after handling).mint.groups item := by
  cases handling with
  | make content =>
      refine ⟨_, rfl, fun item hitem => ?_⟩
      rw [List.mem_singleton.1 hitem]
      exact .fresh content
  | copy place =>
      refine ⟨_, rfl, fun item hitem => ?_⟩
      rcases List.mem_map.1 hitem with ⟨picked, hpicked, rfl⟩
      rcases exists_of_mem_pick hpicked with ⟨original, hfound, hpart⟩
      rw [← hpart]
      exact .copied hfound
  | track places =>
      refine ⟨_, rfl, fun item hitem => ?_⟩
      rcases List.getElem?_of_mem hitem with ⟨i, hi⟩
      rw [getElem?_tracked] at hi
      rcases Option.map_eq_some_iff.1 hi with ⟨picked, hpicked, rfl⟩
      rcases exists_of_mem_pick (List.mem_of_getElem? hpicked) with ⟨original, hfound, hpart⟩
      rw [← hpart]
      exact .tagged hfound i (Nat.lt_succ_self _)

theorem groups_le_after (pool : Pool) (handling : Handling) :
    pool.mint.groups ≤ (pool.after handling).mint.groups := by
  cases handling with
  | make content => exact Nat.le_refl _
  | copy place => exact Nat.le_refl _
  | track places => exact Nat.le_succ _

/-- What is there stays where it is. -/
theorem found_after {k : Nat} {item : Item} (h : pool.items[k]? = some item)
    (handling : Handling) : (pool.after handling).items[k]? = some item := by
  rcases pool.exists_makes handling with ⟨new, hitems, -⟩
  rw [hitems, List.getElem?_append_left (List.getElem?_eq_some_iff.1 h).1, h]

/-- What is found was there before, or has come about. -/
theorem after_cases {handling : Handling} {k : Nat} {item : Item}
    (h : (pool.after handling).items[k]? = some item) :
    pool.items[k]? = some item ∨
      pool.items.length ≤ k ∧ pool.Makes (pool.after handling).mint.groups item := by
  rcases pool.exists_makes handling with ⟨new, hitems, hnew⟩
  rw [hitems, List.getElem?_append] at h
  split at h
  case isTrue => exact .inl h
  case isFalse hge => exact .inr ⟨Nat.le_of_not_lt hge, hnew item (List.mem_of_getElem? h)⟩

theorem found_run {k : Nat} {item : Item} (h : pool.items[k]? = some item)
    (handlings : List Handling) : (pool.run handlings).items[k]? = some item := by
  induction handlings generalizing pool with
  | nil => exact h
  | cons handling handlings ih => exact ih (found_after h handling)

/-! ## What every step keeps -/

/-- Copies come after the part of which they are copies and have its content, and all tags are
of groups that have been made. -/
structure Sound (pool : Pool) : Prop where
  parent : ∀ {k : Nat} {item : Item} {j : Nat}, pool.items[k]? = some item → item.parent = some j →
    j < k ∧ ∃ original, pool.items[j]? = some original ∧ item.part.content = original.part.content
  known : ∀ {k : Nat} {item : Item}, pool.items[k]? = some item → ∀ tag ∈ item.part.tags,
    tag.group < pool.mint.groups

theorem sound_start (mint : Mint) : (start mint).Sound := ⟨nofun, nofun⟩

theorem Sound.after (h : pool.Sound) (handling : Handling) : (pool.after handling).Sound := by
  have hgroups := pool.groups_le_after handling
  -- A part that comes about is a copy of one that was there.
  have hcopy : ∀ {k j : Nat} {original : Item}, pool.items.length ≤ k →
      pool.items[j]? = some original → j < k ∧ (pool.after handling).items[j]? = some original :=
    fun hk hj =>
      ⟨Nat.lt_of_lt_of_le (List.getElem?_eq_some_iff.1 hj).1 hk, found_after hj handling⟩
  constructor
  · intro k item j hk hparent
    rcases after_cases hk with hold | ⟨hle, hmakes⟩
    · rcases h.parent hold hparent with ⟨hlt, original, horiginal, hcontent⟩
      exact ⟨hlt, original, found_after horiginal handling, hcontent⟩
    · cases hmakes with
      | fresh content => cases hparent
      | copied found =>
          cases hparent
          exact ⟨(hcopy hle found).1, _, (hcopy hle found).2, rfl⟩
      | tagged found i grown =>
          cases hparent
          exact ⟨(hcopy hle found).1, _, (hcopy hle found).2, rfl⟩
  · intro k item hk tag htag
    rcases after_cases hk with hold | ⟨hle, hmakes⟩
    · exact Nat.lt_of_lt_of_le (h.known hold tag htag) hgroups
    · cases hmakes with
      | fresh content => cases htag
      | copied found => exact Nat.lt_of_lt_of_le (h.known found tag htag) hgroups
      | tagged found i grown =>
          rcases List.mem_append.1 htag with hold | hnew
          · exact Nat.lt_of_lt_of_le (h.known found tag hold) hgroups
          · rw [List.mem_singleton.1 hnew]
            exact grown

theorem Sound.run (h : pool.Sound) (handlings : List Handling) : (pool.run handlings).Sound := by
  induction handlings generalizing pool with
  | nil => exact h
  | cons handling handlings ih => exact ih (h.after handling)

/-- What is known of a group that handed out copies of a batch from the place `first` on: what
was there before has no tag of it, and all that came about later is traced back as that of
which it is a copy. -/
structure Rooted (pool : Pool) (group : Group) (batch : Batch) (first : Nat) : Prop where
  sound : pool.Sound
  made : group.id < pool.mint.groups
  size : group.size = batch.length
  filled : first + batch.length ≤ pool.items.length
  before : ∀ {k : Nat} {item : Item}, pool.items[k]? = some item → k < first →
    group.indexOf item.part = none
  copies : ∀ {i : Nat} {original : Part}, batch[i]? = some original → ∃ item j,
    pool.items[first + i]? = some item ∧ item.part = original.tagged ⟨group.id, i⟩ ∧
      item.parent = some j ∧ j < first
  later : ∀ {k : Nat} {item : Item}, pool.items[k]? = some item → first + batch.length ≤ k →
    item.parent = none ∧ group.indexOf item.part = none ∨
      ∃ j original, item.parent = some j ∧ pool.items[j]? = some original ∧
        group.indexOf item.part = group.indexOf original.part

variable {group : Group} {batch : Batch} {first : Nat}

/-- A part has no tag of a group that has not been made. -/
theorem Sound.indexOf_eq_none (h : pool.Sound) {k : Nat} {item : Item}
    (found : pool.items[k]? = some item) (unmade : pool.mint.groups ≤ group.id) :
    group.indexOf item.part = none := by
  have hnone : (item.part.tags.reverse.find? fun t => t.group = group.id) = none := by
    rw [List.find?_eq_none]
    intro tag htag hgroup
    have hlt := h.known found tag (List.mem_reverse.1 htag)
    rw [of_decide_eq_true hgroup] at hlt
    exact Nat.not_lt_of_le unmade hlt
  rw [Group.indexOf, hnone]
  rfl

/-- A group that has just been made for a batch. -/
theorem Sound.rooted_track (h : pool.Sound) (places : List Nat) :
    (pool.after (.track places)).Rooted (pool.mint.track (pool.batch places)).1
      (pool.batch places) pool.items.length := by
  have hlength : (pool.tracked places).length = (pool.batch places).length := by
    simp [tracked, Pool.batch, Mint.track]
  have hitems : (pool.after (.track places)).items = pool.items ++ pool.tracked places := rfl
  refine ⟨h.after _, Nat.lt_succ_self _, rfl, ?_, ?_, ?_, ?_⟩
  · refine Nat.le_of_eq ?_
    rw [hitems, List.length_append, hlength]
  · intro k item hk hlt
    rw [hitems, List.getElem?_append_left hlt] at hk
    exact h.indexOf_eq_none hk (Nat.le_refl _)
  · intro i original hi
    rw [Pool.batch, List.getElem?_map] at hi
    rcases Option.map_eq_some_iff.1 hi with ⟨picked, hpicked, rfl⟩
    rcases exists_of_mem_pick (List.mem_of_getElem? hpicked) with ⟨item, hfound, -⟩
    refine ⟨⟨picked.2.tagged ⟨pool.mint.groups, i⟩, some picked.1⟩, picked.1, ?_, rfl, rfl,
      (List.getElem?_eq_some_iff.1 hfound).1⟩
    rw [hitems, List.getElem?_append_right (Nat.le_add_right _ _), Nat.add_sub_cancel_left,
      getElem?_tracked, hpicked]
    rfl
  · intro k item hk hle
    have hlt := (List.getElem?_eq_some_iff.1 hk).1
    rw [hitems, List.length_append, hlength] at hlt
    exact absurd hle (Nat.not_le_of_lt hlt)

/-- What comes about later carries no new tag of the group. -/
theorem Rooted.after (h : pool.Rooted group batch first) (handling : Handling) :
    (pool.after handling).Rooted group batch first := by
  have hgroups := pool.groups_le_after handling
  have hfilled := h.filled
  refine ⟨h.sound.after handling, Nat.lt_of_lt_of_le h.made hgroups, h.size, ?_, ?_, ?_, ?_⟩
  · rcases pool.exists_makes handling with ⟨new, hitems, -⟩
    rw [hitems, List.length_append]
    omega
  · intro k item hk hlt
    rcases after_cases hk with hold | ⟨hle, -⟩
    · exact h.before hold hlt
    · omega
  · intro i original hi
    rcases h.copies hi with ⟨item, j, hitem, hrest⟩
    exact ⟨item, j, found_after hitem handling, hrest⟩
  · intro k item hk hle
    rcases after_cases hk with hold | ⟨-, hmakes⟩
    · rcases h.later hold hle with hnone | ⟨j, original, hparent, horiginal, hindex⟩
      · exact .inl hnone
      · exact .inr ⟨j, original, hparent, found_after horiginal handling, hindex⟩
    · cases hmakes with
      | fresh content => exact .inl ⟨rfl, rfl⟩
      | copied found => exact .inr ⟨_, _, rfl, found_after found handling, rfl⟩
      | tagged found i grown =>
          refine .inr ⟨_, _, rfl, found_after found handling, ?_⟩
          exact Group.indexOf_tagged_of_ne _ (Nat.ne_of_gt h.made)

theorem Rooted.run (h : pool.Rooted group batch first) (handlings : List Handling) :
    (pool.run handlings).Rooted group batch first := by
  induction handlings generalizing pool with
  | nil => exact h
  | cons handling handlings ih => exact ih (h.after handling)

/-! ## Descent -/

/-- A part is where it is, or descends by way of the part of which it is a copy. -/
theorem descends_iff {k m : Nat} {item : Item} (found : pool.items[k]? = some item) :
    pool.Descends k m ↔ k = m ∨ ∃ j, item.parent = some j ∧ pool.Descends j m := by
  rw [Descends, Relation.ReflTransGen.cases_head_iff]
  refine or_congr_right ⟨?_, ?_⟩
  · rintro ⟨j, ⟨other, hother, hparent⟩, hdescends⟩
    obtain rfl : item = other := Option.some.inj (found.symm.trans hother)
    exact ⟨j, hparent, hdescends⟩
  · rintro ⟨j, hparent, hdescends⟩
    exact ⟨j, ⟨item, found, hparent⟩, hdescends⟩

/-- Parts descend from what was there before. -/
theorem Sound.le_of_descends (h : pool.Sound) {k m : Nat} (descends : pool.Descends k m) :
    m ≤ k := by
  induction descends with
  | refl => exact Nat.le_refl _
  | tail _ copy ih =>
      rcases copy with ⟨item, hitem, hparent⟩
      exact Nat.le_trans (Nat.le_of_lt (h.parent hitem hparent).1) ih

/-- A part has the content of what it descends from. -/
theorem Sound.content_of_descends (h : pool.Sound) {k m : Nat} {item origin : Item}
    (descends : pool.Descends k m) (hk : pool.items[k]? = some item)
    (hm : pool.items[m]? = some origin) : item.part.content = origin.part.content := by
  induction descends generalizing origin with
  | refl => exact congrArg (·.part.content) (Option.some.inj (hk.symm.trans hm))
  | tail _ copy ih =>
      rcases copy with ⟨middle, hmiddle, hparent⟩
      rcases h.parent hmiddle hparent with ⟨-, original, horiginal, hcontent⟩
      obtain rfl : origin = original := Option.some.inj (hm.symm.trans horiginal)
      exact (ih hmiddle).trans hcontent

namespace Rooted

/-- A copy that the group handed out descends from itself, and from none of the others. -/
theorem descends_copy (h : pool.Rooted group batch first) {i i' : Nat}
    (hi : i < batch.length) : pool.Descends (first + i) (first + i') ↔ i = i' := by
  rcases h.copies (List.getElem?_eq_getElem hi) with ⟨item, j, hitem, -, hparent, hlt⟩
  rw [descends_iff hitem, Nat.add_left_cancel_iff]
  refine or_iff_left ?_
  rintro ⟨j', hparent', hdescends⟩
  obtain rfl : j = j' := Option.some.inj (hparent.symm.trans hparent')
  have hle := h.sound.le_of_descends hdescends
  omega

/-- A part is traced back to a place exactly if it descends from the copy there.  This is by
induction on the place of the part, which comes after that of which it is a copy. -/
theorem indexOf_eq_some_iff (h : pool.Rooted group batch first) {k : Nat} {item : Item}
    (found : pool.items[k]? = some item) (i : Nat) :
    group.indexOf item.part = some i ↔ i < batch.length ∧ pool.Descends k (first + i) := by
  induction k using Nat.strongRecOn generalizing item with
  | ind k ih =>
      by_cases hbefore : k < first
      · rw [h.before found hbefore]
        refine iff_of_false nofun ?_
        rintro ⟨-, hdescends⟩
        have hle := h.sound.le_of_descends hdescends
        omega
      by_cases hcopy : k < first + batch.length
      · -- The part is one of the copies that the group handed out.
        obtain ⟨i', rfl⟩ := Nat.exists_eq_add_of_le (Nat.le_of_not_lt hbefore)
        have hi' : i' < batch.length := by omega
        rcases h.copies (List.getElem?_eq_getElem hi') with ⟨copy, -, hitem, hpart, -⟩
        obtain rfl : item = copy := Option.some.inj (found.symm.trans hitem)
        rw [hpart, Group.indexOf_tagged, if_pos (h.size ▸ hi'), h.descends_copy hi',
          Option.some.injEq]
        exact ⟨fun heq => ⟨heq ▸ hi', heq⟩, And.right⟩
      have hle : first + batch.length ≤ k := Nat.le_of_not_lt hcopy
      have hne : i < batch.length → k ≠ first + i := by omega
      rw [and_congr_right fun hi => (descends_iff found).trans (or_iff_right (hne hi))]
      rcases h.later found hle with ⟨hparent, hnone⟩ | ⟨j, original, hparent, horiginal, hindex⟩
      · rw [hnone, hparent]
        exact iff_of_false nofun (by rintro ⟨-, j, hj, -⟩; cases hj)
      · rw [hindex, ih j (h.sound.parent found hparent).1 horiginal, hparent]
        simp

/-- What every step keeps is enough to tell descent. -/
theorem traces (h : pool.Rooted group batch first) : pool.Traces group batch first := by
  refine ⟨?_, fun k item hk i => h.indexOf_eq_some_iff hk i, ?_, ?_⟩
  · intro i hi
    rcases h.copies (List.getElem?_eq_getElem hi) with ⟨item, -, hitem, hpart, -⟩
    rw [hitem, Group.getElem?_tag, List.getElem?_eq_getElem hi, Option.map_some, hpart]
    rfl
  · intro k item hk
    rw [Option.eq_none_iff_forall_not_mem]
    exact forall_congr' fun i => by
      rw [Option.mem_def, h.indexOf_eq_some_iff hk, not_and]
  · intro item hitem i hindex
    rcases List.getElem?_of_mem hitem with ⟨k, hk⟩
    rcases (h.indexOf_eq_some_iff hk i).1 hindex with ⟨hi, hdescends⟩
    have hbatch := List.getElem?_eq_getElem hi
    rcases h.copies hbatch with ⟨copy, -, hcopy, hpart, -⟩
    have hcontent := h.sound.content_of_descends hdescends hk hcopy
    refine ⟨_, hbatch, congrArg Content.serial ?_⟩
    rw [hcontent, hpart, Part.content_tagged]

end Rooted

/-- However parts have come about before, a group that is made for a batch of them traces a part
back exactly if it descends from one of the copies, whatever comes about later; and then the
part shares its content with the one in the batch.  Parts stay what they are, and the copies
that further groups hand out are traced back as the parts of which they are copies. -/
theorem traces_descent (mint : Mint) (earlier : List Handling) (places : List Nat)
    (later : List Handling) :
    let before := (start mint).run earlier
    let group := (before.mint.track (before.batch places)).1
    let pool := (before.after (.track places)).run later
    pool.Traces group (before.batch places) before.items.length ∧
      (∀ (k : Nat) (item : Item), pool.items[k]? = some item →
        ∀ more, (pool.run more).items[k]? = some item) ∧
      (∀ others, (pool.mint.track (pool.batch others)).2.1.map group.indexOf =
        (pool.batch others).map group.indexOf) := by
  intro before group pool
  have hrooted : pool.Rooted group (before.batch places) before.items.length :=
    (((sound_start mint).run earlier).rooted_track places).run later
  refine ⟨hrooted.traces, fun k item hk more => found_run hk more, fun others => ?_⟩
  refine List.ext_getElem? fun i => ?_
  rw [Mint.track, List.getElem?_map, Group.getElem?_tag, List.getElem?_map, Option.map_map]
  refine congrArg (Option.map · _) (funext fun part => ?_)
  exact Group.indexOf_tagged_of_ne part (Nat.ne_of_gt hrooted.made)

end

/-! ## Copies of copies -/

namespace Traces.Tour

/-- Two parts, and the copies of them that a first group hands out. -/
def earlier : List Handling := [.make ⟨0, [97]⟩, .make ⟨1, [98]⟩, .track [0, 1]]

/-- A part of the first group is put in front of one that no group has tagged. -/
def places : List Nat := [3, 0]

/-- Copies of both are handed out by a third group, in the other order, and with a part that has
nothing to do with them. -/
def later : List Handling := [.copy 5, .track [6, 4, 1]]

/-- The pool in which the batch is tracked. -/
def before : Pool := (start .empty).run earlier

/-- The group that is made for it. -/
def group : Group := (before.mint.track (before.batch places)).1

/-- All that comes about in the end. -/
def pool : Pool := (before.after (.track places)).run later

/-- What the third group hands out is traced back as far as it descends from the batch. -/
theorem traces_descent_nested : pool.items.map (fun item => group.indexOf item.part) =
      [none, none, none, none, some 0, some 1, some 1, some 1, some 0, none] ∧
    pool.Descends 7 5 ∧ ¬pool.Descends 9 4 ∧ ¬pool.Descends 9 5 := by
  have htraces := (traces_descent .empty earlier places later).1
  have hcopy := (htraces.eq_some 7 _ rfl 1).1 (by decide)
  have hother := (htraces.eq_none 9 _ rfl).1 (by decide)
  exact ⟨by decide, hcopy.2, hother 0 (by decide), hother 1 (by decide)⟩

end Traces.Tour

end Pool
end Redelivery
