/-!
# UTF-8

Bytes are read one at a time.  A sequence that cannot be completed is malformed as a
whole, and the byte that broke it is looked at again as the start of something new,
so each malformed stretch is the longest one that some character could have begun
with.

Main definitions:

* `Utf8.scan`: the characters of some bytes, `none` standing for a malformed stretch.
* `Utf8.lossy`: the text with U+FFFD in place of each malformed stretch.
* `Utf8.decode?`: the text, if nothing is malformed.
-/

namespace Redelivery
namespace Utf8

/-- A character begun but not complete: how many bytes are missing, the bits so far,
and the bounds of the next byte. -/
structure Begun where
  missing : Nat
  bits : UInt32
  low : UInt8
  high : UInt8

/-- What a byte is when no character has been begun. -/
inductive First where
  | char (c : Char)
  | begun (state : Begun)
  | malformed

/-- The role of a byte at the start of a character.  The bounds of the second byte
exclude overlong forms, surrogates and numbers past the last character. -/
def first (b : UInt8) : First :=
  if b < 0x80 then .char (Char.ofNat b.toNat)
  else if b < 0xc2 then .malformed
  else if b < 0xe0 then .begun ⟨1, (b &&& 0x1f).toUInt32, 0x80, 0xbf⟩
  else if b < 0xf0 then
    .begun ⟨2, (b &&& 0x0f).toUInt32, if b = 0xe0 then 0xa0 else 0x80,
      if b = 0xed then 0x9f else 0xbf⟩
  else if b < 0xf5 then
    .begun ⟨3, (b &&& 0x07).toUInt32, if b = 0xf0 then 0x90 else 0x80,
      if b = 0xf4 then 0x8f else 0xbf⟩
  else .malformed

/-- Looks at a byte as the start of a character: what it completes, and what it leaves
begun. -/
def restart (b : UInt8) : List (Option Char) × Option Begun :=
  match first b with
  | .char c => ([some c], none)
  | .begun state => ([], some state)
  | .malformed => ([none], none)

/-- Looks at the next byte: what it completes, and what it leaves begun. -/
def push (state : Option Begun) (b : UInt8) : List (Option Char) × Option Begun :=
  match state with
  | none => restart b
  | some ⟨missing, bits, low, high⟩ =>
      if low ≤ b ∧ b ≤ high then
        let bits := bits <<< 6 ||| (b &&& 0x3f).toUInt32
        if missing ≤ 1 then ([some (Char.ofNat bits.toNat)], none)
        else ([], some ⟨missing - 1, bits, 0x80, 0xbf⟩)
      else
        let (seen, state) := restart b
        (none :: seen, state)

/-- The characters of some bytes after what was begun before them. -/
def scanFrom (state : Option Begun) : List UInt8 → List (Option Char)
  | [] => if state.isSome then [none] else []
  | b :: rest =>
      let (seen, state) := push state b
      seen ++ scanFrom state rest

/-- The characters of some bytes, `none` standing for a malformed stretch. -/
def scan (bytes : List UInt8) : List (Option Char) := scanFrom none bytes

/-- The text of some bytes, with U+FFFD in place of each malformed stretch. -/
def lossy (bytes : List UInt8) : String :=
  String.ofList ((scan bytes).map (·.getD '\uFFFD'))

/-- The text of some bytes, if nothing in them is malformed. -/
def decode? (bytes : List UInt8) : Option String :=
  ((scan bytes).mapM id).map String.ofList

end Utf8
end Redelivery
