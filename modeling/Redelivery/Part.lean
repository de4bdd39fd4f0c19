import Redelivery.Text.Utf8

/-!
# Parts and batches

A message travels in batches of parts.  Copies are shallow: a copy of a part has the
same content and its own list of tags, so what was once read is never altered by
whoever holds a copy of it.

Main definitions:

* `Content`: bytes together with the occasion on which they were made.
* `Part`, `Batch`: content with the tags that tracking gave it, and their sequence.
* `Part.SharesContent`: two parts are copies of one.
* `Mint`: the source of fresh contents and of fresh tracking groups.
-/

namespace Redelivery

/-- The content of a part.  Contents that were made separately differ in their serial
number even when their bytes agree. -/
structure Content where
  serial : Nat
  bytes : List UInt8
  deriving DecidableEq, Repr

/-- The mark of a tracked copy: which group made it, and where the part stood in the
batch that the group was made for. -/
structure Tag where
  group : Nat
  index : Nat
  deriving DecidableEq, Repr

/-- One part of a message, with its tags from the first to the most recent. -/
structure Part where
  content : Content
  tags : List Tag
  deriving DecidableEq, Repr

namespace Part

/-- The content as text. -/
def text (p : Part) : String := Utf8.lossy p.content.bytes

/-- Both parts are copies of one. -/
def SharesContent (p q : Part) : Prop := p.content.serial = q.content.serial

instance (p q : Part) : Decidable (p.SharesContent q) :=
  inferInstanceAs (Decidable (_ = _))

/-- A copy with one more tag. -/
def tagged (p : Part) (t : Tag) : Part := { p with tags := p.tags ++ [t] }

@[simp]
theorem content_tagged (p : Part) (t : Tag) : (p.tagged t).content = p.content := rfl

@[simp]
theorem tags_tagged (p : Part) (t : Tag) : (p.tagged t).tags = p.tags ++ [t] := rfl

end Part

/-- Parts delivered as one unit, in order. -/
abbrev Batch := List Part

/-- The texts of the parts. -/
def Batch.texts (batch : Batch) : List String := batch.map Part.text

/-- How many contents and how many groups have been made so far; the next ones take
these numbers. -/
structure Mint where
  contents : Nat
  groups : Nat
  deriving DecidableEq, Repr

namespace Mint

/-- Nothing has been made yet. -/
def empty : Mint := ⟨0, 0⟩

instance : Inhabited Mint := ⟨empty⟩

/-- A part that shares its content with no other. -/
def part (mint : Mint) (bytes : List UInt8) : Part × Mint :=
  (⟨⟨mint.contents, bytes⟩, []⟩, { mint with contents := mint.contents + 1 })

/-- A batch of fresh parts. -/
def batch (mint : Mint) : List (List UInt8) → Batch × Mint
  | [] => ([], mint)
  | bytes :: rest =>
      let (p, mint) := mint.part bytes
      let (ps, mint) := mint.batch rest
      (p :: ps, mint)

/-- A content is made for each part, and no group. -/
theorem snd_batch (mint : Mint) (contents : List (List UInt8)) :
    (mint.batch contents).2 = { mint with contents := mint.contents + contents.length } := by
  induction contents generalizing mint with
  | nil => rfl
  | cons bytes rest ih =>
      rw [batch, ih, List.length_cons, Nat.add_comm rest.length, ← Nat.add_assoc]
      rfl

/-- Contents are made under numbers that follow on each other. -/
theorem serials_batch (mint : Mint) (contents : List (List UInt8)) :
    (mint.batch contents).1.map (fun part => part.content.serial) =
      List.range' mint.contents contents.length := by
  induction contents generalizing mint with
  | nil => rfl
  | cons bytes rest ih =>
      rw [batch, List.map_cons, ih, List.length_cons, List.range'_succ]
      rfl

end Mint

end Redelivery
