/-!
# Chance from a seed

Main definitions:

* `Command.draw`: the draws that belong to a seed.
-/

namespace Redelivery
namespace Command

/-- Scatters the bits of a number; different numbers stay different. -/
def scatter (x : UInt64) : UInt64 :=
  let x := (x ^^^ (x >>> 30)) * 0xbf58476d1ce4e5b9
  let x := (x ^^^ (x >>> 27)) * 0x94d049bb133111eb
  x ^^^ (x >>> 31)

/-- The draws that belong to a seed: numbers at an even distance, scattered. -/
def draw (seed : UInt64) (n : Nat) : UInt64 :=
  scatter (seed + (.ofNat n + 1) * 0x9e3779b97f4a7c15)

end Command
end Redelivery
