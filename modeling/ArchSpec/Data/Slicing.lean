import ArchSpec.Data.Value

/-!
# Slices

A slice is a start position and a length, both given as values.  Reading takes
the listed slices side by side, the first one most significant.  Writing
spreads a bit vector over the listed slices in the same order.  An integer has
a two's complement without end, so reading one is never out of range, and
writing into one first widens it to the highest position referred to.  A write
adds up the lengths of its slices with a check; where vectors are joined, nothing
looks at the sum of their widths, so it may overflow and leave no result.
-/

namespace ArchSpec

/-- A run of bits: the lowest position and how many. -/
structure Slice.Position where
  start : Nat
  length : Nat
deriving DecidableEq

namespace Slice

/-- The fault of a slice that does not lie inside `width` bits. -/
def Position.outside (position : Position) (width : Nat) : Fault :=
  .badSlice position.start position.length width

/-- The position that two values denote.  Its end has to be a size too. -/
def position (start length : Value) : Except Fault Position := do
  let startInt ← start.asInt
  let lengthInt ← length.asInt
  let refused : Fault := .badSlice startInt lengthInt 0
  match Size.ofInt? startInt, Size.ofInt? lengthInt with
  | some start, some length =>
      if start + length < Size.bound then return ⟨start, length⟩
      else throw refused
  | _, _ => throw refused

/-- The positions of all slices, refused at the first one that is none. -/
def positions : List (Value × Value) → Except Fault (List Position)
  | [] => .ok []
  | (start, length) :: rest => do
      let first ← position start length
      let others ← positions rest
      return first :: others

/-- One more than the highest position referred to. -/
def reach (slices : List Position) : Nat :=
  slices.foldl (fun highest slice => max highest (slice.start + slice.length)) 0

/-- The number of bits in all slices together, which has to be a size. -/
def totalLength : Nat → List Position → Except Fault Nat
  | total, [] => .ok total
  | total, slice :: rest =>
      if total + slice.length < Size.bound then
        totalLength (total + slice.length) rest
      else .error (slice.outside 0)

/-- The listed slices of a bit vector. -/
def readParts (source : Bits) : List Position → Except Fault (List Bits)
  | [] => .ok []
  | slice :: rest =>
      match source.extract? slice.start slice.length with
      | some part => do
          let others ← readParts source rest
          return part :: others
      | none => .error (slice.outside source.width)

/-- The bits of each listed slice of a value. -/
def parts (slices : List (Value × Value)) (source : Value) : Except Fault (List Bits) := do
  let slices ← positions slices
  match source with
  | .int n => return slices.map fun slice => Bits.ofIntSlice n slice.start slice.length
  | _ => readParts (← source.toBits 0) slices

/-- The vectors side by side as a value; there is none if their widths
overflow. -/
def join (vectors : List Bits) : Option Value := (Bits.concat? vectors).map .bits

/-- The listed slices of a value, side by side. -/
def read (slices : List (Value × Value)) (source : Value) : Except Fault (Option Value) := do
  return join (← parts slices source)

/-- Writes `bits`, of which the lowest `remaining` are still to be placed, over
the listed slices. -/
def writeParts (bits : Bits) : Nat → Bits → List Position → Except Fault Bits
  | _, dest, [] => .ok dest
  | remaining, dest, slice :: rest =>
      let below := remaining - slice.length
      match bits.extract? below slice.length with
      | some part =>
          match dest.overwrite? slice.start part with
          | some dest => writeParts bits below dest rest
          | none => .error (slice.outside dest.width)
      | none => .error (slice.outside dest.width)

/-- The destination with `bits` spread over the listed slices. -/
def write (slices : List (Value × Value)) (bits dest : Value) :
    Except Fault Value := do
  let slices ← positions slices
  let total ← totalLength 0 slices
  let bits ← bits.toBitsExact total
  let dest ← dest.toBits (reach slices)
  return .bits (← writeParts bits total dest slices)

/-- Every value as a bit vector. -/
def widenAll : List Value → Except Fault (List Bits)
  | [] => .ok []
  | value :: rest => do
      let first ← value.toBits 0
      let others ← widenAll rest
      return first :: others

/-- The values as bit vectors side by side, the first one most significant. -/
def concat (values : List Value) : Except Fault (Option Value) := do
  return join (← widenAll values)

end Slice

end ArchSpec
