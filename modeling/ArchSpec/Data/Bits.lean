import ArchSpec.Data.Size

/-!
# Bit vectors

A bit vector has a width and a magnitude; bit 0 is the least significant one.
Text and concatenation put the most significant bit first.  Vectors may be far
wider than memory (a width is any size), so no operation forms `pow2 width`
while the magnitude at hand is already small enough.
-/

namespace ArchSpec

/-- A bit vector: `value` holds the bits, the lowest `width` of them count. -/
structure Bits where
  width : Nat
  value : Nat
deriving DecidableEq

namespace Bits

/-- No bit is set outside the width. -/
def Valid (bits : Bits) : Prop := bits.value < pow2 bits.width

instance (bits : Bits) : Decidable bits.Valid :=
  inferInstanceAs (Decidable (_ < _))

/-- The lowest `width` bits of `value`. -/
def lowest (width value : Nat) : Nat :=
  if value.log2 < width then value else value % pow2 width

theorem lowest_eq_mod (width value : Nat) :
    lowest width value = value % pow2 width := by
  unfold lowest
  split
  · rename_i hlog
    by_cases hzero : value = 0
    · simp [hzero]
    · exact (Nat.mod_eq_of_lt ((Nat.log2_lt hzero).mp hlog)).symm
  · rfl

/-- The least number of bits that represent `n`: of its binary digits if it is
not negative, of its two's complement if it is. -/
def bitsNeeded : Int → Nat
  | .ofNat 0 => 0
  | .ofNat (n + 1) => (n + 1).log2 + 1
  | .negSucc 0 => 1
  | .negSucc (n + 1) => (n + 1).log2 + 2

/-- The width of an integer that is widened to a bit vector where `hint` bits
are referred to. -/
def inferredWidth (n : Int) (hint : Nat) : Nat :=
  max (max (bitsNeeded n) hint) 1

def zeros (width : Nat) : Bits := ⟨width, 0⟩

/-- The lowest `width` bits of a natural number. -/
def ofNat (width value : Nat) : Bits := ⟨width, lowest width value⟩

/-- What an integer leaves modulo a power of two: the rest of a division that
rounds towards zero, and the modulus on top of it if that is negative. -/
def residue (width : Nat) (n : Int) : Nat :=
  let rest := n.tmod (pow2 width)
  (if rest < 0 then rest + pow2 width else rest).toNat

/-- The lowest `width` bits of an integer's two's complement.  A number that has
no more bits is taken as it is. -/
def ofInt (width : Nat) (n : Int) : Bits :=
  if 0 ≤ n ∧ bitsNeeded n ≤ width then ⟨width, n.toNat⟩ else ⟨width, residue width n⟩

/-- The bit at a position; there is no set bit beyond the width of a valid
vector. -/
def bit (bits : Bits) (index : Nat) : Bool := bits.value.testBit index

/-- The magnitude as an integer. -/
def unsigned (bits : Bits) : Int := bits.value

/-- The two's complement reading; the empty vector reads as zero. -/
def signed (bits : Bits) : Int :=
  if 0 < bits.width ∧ bits.bit (bits.width - 1) then
    (bits.value : Int) - pow2 bits.width
  else bits.value

/-- The `length` bits from `start` up, if they all lie inside. -/
def extract? (bits : Bits) (start length : Nat) : Option Bits :=
  if start + length ≤ bits.width then
    some (ofNat length (bits.value >>> start))
  else none

/-- The `length` bits from `start` up of an integer's two's complement, which
never ends. -/
def ofIntSlice (n : Int) (start length : Nat) : Bits := ofInt length (n >>> start)

/-- The vector with the bits from `start` up overwritten by `source`, if that
fits. -/
def overwrite? (bits : Bits) (start : Nat) (source : Bits) : Option Bits :=
  if start + source.width ≤ bits.width then
    let old := lowest source.width (bits.value >>> start)
    some ⟨bits.width, (bits.value - old <<< start) ||| source.value <<< start⟩
  else none

/-- The two vectors side by side, `high` in the more significant place. -/
def append (high low : Bits) : Bits :=
  ⟨high.width + low.width, high.value <<< low.width ||| low.value⟩

/-- The two vectors side by side, unless their widths overflow. -/
def append? (high low : Bits) : Option Bits :=
  if high.width + low.width < Size.bound then some (high.append low) else none

/-- All parts side by side, the first one most significant, unless their widths
overflow. -/
def concat? (parts : List Bits) : Option Bits := parts.foldlM append? (zeros 0)

/-- Bitwise conjunction at the width of the left vector. -/
def and (left right : Bits) : Bits := ofNat left.width (left.value &&& right.value)

/-- Bitwise disjunction at the width of the left vector. -/
def or (left right : Bits) : Bits := ofNat left.width (left.value ||| right.value)

/-- Bitwise difference at the width of the left vector. -/
def xor (left right : Bits) : Bits := ofNat left.width (left.value ^^^ right.value)

def not (bits : Bits) : Bits :=
  ofNat bits.width (bits.value ^^^ (pow2 bits.width - 1))

/-- Addition of an integer, modulo the width. -/
def addInt (bits : Bits) (n : Int) : Bits := ofInt bits.width (bits.unsigned + n)

/-- The bits as a list, most significant first. -/
def toList (bits : Bits) : List Bool :=
  (List.range bits.width).reverse.map bits.bit

/-- The vector with one more bit below. -/
def push (bits : Bits) (digit : Bool) : Bits :=
  ⟨bits.width + 1, bits.value <<< 1 ||| digit.toNat⟩

/-- Reads digits, most significant first; spaces are skipped. -/
def ofChars? : Bits → List Char → Option Bits
  | bits, [] => some bits
  | bits, c :: rest =>
      if c = '0' then ofChars? (bits.push false) rest
      else if c = '1' then ofChars? (bits.push true) rest
      else if c = ' ' then ofChars? bits rest
      else none

/-- Reads the text of a vector, which is digits and spaces. -/
def ofString? (text : String) : Option Bits := ofChars? (zeros 0) text.toList

/-- The digits of a vector, most significant first. -/
def digits (bits : Bits) : String :=
  String.ofList (bits.toList.map fun digit => if digit then '1' else '0')

def print (bits : Bits) : String := "'" ++ bits.digits ++ "'"

end Bits

end ArchSpec
