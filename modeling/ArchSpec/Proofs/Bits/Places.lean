import ArchSpec.Data.Bits

/-!
# Bit vectors place by place

Each operation on bit vectors is arithmetic on one magnitude.  What it does is
said here bit by bit: which place of which operand a place of the result comes
from.  A vector is valid if no bit is set beyond its width, and all operations
give valid vectors; a concatenation does as long as its width is a size.
-/

namespace ArchSpec

namespace Bits

variable {bits left right high low source part out : Bits}
variable {width value start length index : Nat}

theorem testBit_pow2_sub_one (width index : Nat) :
    (pow2 width - 1).testBit index = decide (index < width) :=
  Nat.testBit_two_pow_sub_one width index

theorem testBit_lowest (width value index : Nat) :
    (lowest width value).testBit index = (decide (index < width) && value.testBit index) := by
  rw [lowest_eq_mod]
  exact Nat.testBit_mod_two_pow value width index

theorem lowest_lt (width value : Nat) : lowest width value < pow2 width := by
  rw [lowest_eq_mod]
  exact Nat.mod_lt _ (Nat.two_pow_pos width)

/-! ## Valid vectors -/

theorem valid_iff_bit : bits.Valid ↔ ∀ index, bits.width ≤ index → bits.bit index = false := by
  constructor
  · intro hvalid index hindex
    exact Nat.testBit_lt_two_pow
      (Nat.lt_of_lt_of_le hvalid (Nat.pow_le_pow_right Nat.two_pos hindex))
  · intro hbits
    exact Nat.lt_pow_two_of_testBit bits.value hbits

theorem Valid.bit_eq_false (hvalid : bits.Valid) (hindex : bits.width ≤ index) :
    bits.bit index = false :=
  valid_iff_bit.mp hvalid index hindex

/-- A vector is its width and its bits. -/
theorem ext_bit (hwidth : left.width = right.width)
    (hbits : ∀ index, left.bit index = right.bit index) : left = right := by
  rcases left with ⟨leftWidth, leftValue⟩
  rcases right with ⟨rightWidth, rightValue⟩
  have hvalue : leftValue = rightValue := Nat.eq_of_testBit_eq hbits
  rw [show leftWidth = rightWidth from hwidth, hvalue]

theorem valid_zeros (width : Nat) : (zeros width).Valid := Nat.two_pow_pos width

theorem valid_ofNat (width value : Nat) : (ofNat width value).Valid := lowest_lt width value

theorem bitsNeeded_natCast_le_iff {magnitude : Nat} :
    bitsNeeded magnitude ≤ width ↔ magnitude < pow2 width := by
  cases magnitude with
  | zero => exact ⟨fun _ => Nat.two_pow_pos width, fun _ => Nat.zero_le width⟩
  | succ magnitude => exact Nat.log2_lt (Nat.succ_ne_zero magnitude)

theorem natCast_residue (width : Nat) (n : Int) : (residue width n : Int) = n % pow2 width := by
  have hpos := pow2_cast_pos width
  have hnonneg := Int.emod_nonneg n (Int.ne_of_gt hpos)
  have hlt := Int.emod_lt_of_pos n hpos
  have hrest := Int.tmod_eq_emod (a := n) (b := pow2 width)
  rw [residue]
  split at hrest
  · rename_i hexact
    simp only [hrest]
    omega
  · simp only [hrest]
    omega

theorem value_ofInt (width : Nat) (n : Int) : ((ofInt width n).value : Int) = n % pow2 width := by
  rw [ofInt]
  split
  · rename_i hfits
    obtain ⟨magnitude, rfl⟩ := Int.eq_ofNat_of_zero_le hfits.1
    have hlt : magnitude < pow2 width := bitsNeeded_natCast_le_iff.mp hfits.2
    exact (Int.emod_eq_of_lt hfits.1 (Int.ofNat_lt.mpr hlt)).symm
  · exact natCast_residue width n

@[simp]
theorem width_ofInt (width : Nat) (n : Int) : (ofInt width n).width = width := by
  rw [ofInt]
  split <;> rfl

theorem valid_ofInt (width : Nat) (n : Int) : (ofInt width n).Valid := by
  have hpos := pow2_cast_pos width
  have hlt := Int.emod_lt_of_pos n hpos
  rw [← value_ofInt] at hlt
  rw [Valid, width_ofInt]
  exact Int.ofNat_lt.mp hlt

/-! ## Places of results -/

@[simp]
theorem bit_zeros (width index : Nat) : (zeros width).bit index = false :=
  Nat.zero_testBit index

@[simp]
theorem width_ofNat (width value : Nat) : (ofNat width value).width = width := rfl

@[simp]
theorem bit_ofNat (width value index : Nat) :
    (ofNat width value).bit index = (decide (index < width) && value.testBit index) :=
  testBit_lowest width value index

theorem bit_and (left right : Bits) (index : Nat) :
    (left.and right).bit index =
      (decide (index < left.width) && (left.bit index && right.bit index)) := by
  rw [and, bit_ofNat, Nat.testBit_and]
  rfl

theorem bit_or (left right : Bits) (index : Nat) :
    (left.or right).bit index =
      (decide (index < left.width) && (left.bit index || right.bit index)) := by
  rw [or, bit_ofNat, Nat.testBit_or]
  rfl

theorem bit_xor (left right : Bits) (index : Nat) :
    (left.xor right).bit index =
      (decide (index < left.width) && (left.bit index ^^ right.bit index)) := by
  rw [xor, bit_ofNat, Nat.testBit_xor]
  rfl

theorem bit_not (bits : Bits) (index : Nat) :
    bits.not.bit index = (decide (index < bits.width) && !bits.bit index) := by
  rw [not, bit_ofNat, Nat.testBit_xor, testBit_pow2_sub_one]
  by_cases hindex : index < bits.width
  · simp [hindex, bit]
  · simp [hindex]

theorem extract?_eq_some (hfits : start + length ≤ bits.width) :
    bits.extract? start length = some (ofNat length (bits.value >>> start)) :=
  if_pos hfits

theorem extract?_eq_none_iff :
    bits.extract? start length = none ↔ bits.width < start + length := by
  rw [extract?]
  split <;> simp <;> omega

theorem extract?_eq_some_iff :
    bits.extract? start length = some part ↔
      start + length ≤ bits.width ∧ part = ofNat length (bits.value >>> start) := by
  rw [extract?]
  split
  · simp_all [eq_comm]
  · simp only [reduceCtorEq, false_iff, not_and]
    intro hfits
    omega

theorem bit_of_extract? (hextract : bits.extract? start length = some part) (index : Nat) :
    part.bit index = (decide (index < length) && bits.bit (start + index)) := by
  obtain ⟨_, rfl⟩ := extract?_eq_some_iff.mp hextract
  rw [bit_ofNat, Nat.testBit_shiftRight]
  rfl

theorem width_of_extract? (hextract : bits.extract? start length = some part) :
    part.width = length := by
  obtain ⟨_, rfl⟩ := extract?_eq_some_iff.mp hextract
  rfl

theorem valid_of_extract? (hextract : bits.extract? start length = some part) : part.Valid := by
  obtain ⟨_, rfl⟩ := extract?_eq_some_iff.mp hextract
  exact valid_ofNat length _

theorem bit_append (high : Bits) (hlow : low.Valid) (index : Nat) :
    (append high low).bit index =
      if index < low.width then low.bit index else high.bit (index - low.width) := by
  change (high.value <<< low.width ||| low.value).testBit index = _
  rw [Nat.testBit_or, Nat.testBit_shiftLeft]
  by_cases hindex : index < low.width
  · have hbelow : ¬low.width ≤ index := by omega
    simp [hindex, hbelow, bit]
  · have hbeyond := hlow.bit_eq_false (Nat.le_of_not_lt hindex)
    rw [bit] at hbeyond
    simp [hindex, bit, hbeyond, Nat.le_of_not_lt hindex]

theorem valid_append (hhigh : high.Valid) (hlow : low.Valid) : (append high low).Valid := by
  rw [valid_iff_bit]
  intro index hindex
  have hsum : high.width + low.width ≤ index := hindex
  have hlarge : low.width ≤ index := by omega
  rw [bit_append high hlow, if_neg (Nat.not_lt.mpr hlarge)]
  apply hhigh.bit_eq_false
  omega

/-! ## Overwriting -/

/-- A number is what is above a place and what is below it. -/
theorem shiftLeft_add_lowest (place value : Nat) :
    value >>> place <<< place + lowest place value = value := by
  rw [lowest_eq_mod, Nat.shiftLeft_eq, Nat.shiftRight_eq_div_pow]
  exact Nat.div_add_mod' value (pow2 place)

/-- To subtract a run of bits clears it. -/
theorem testBit_sub_run (value start length index : Nat) :
    (value - lowest length (value >>> start) <<< start).testBit index =
      (value.testBit index && !decide (start ≤ index ∧ index < start + length)) := by
  -- The number splits into what is above the run, the run, and what is below.
  have hupper : value >>> start <<< start =
      value >>> start >>> length <<< length <<< start + lowest length (value >>> start) <<< start :=
    calc
      value >>> start <<< start =
          (value >>> start >>> length <<< length + lowest length (value >>> start)) <<< start := by
        rw [shiftLeft_add_lowest]
      _ = _ := by simp only [Nat.shiftLeft_eq, Nat.add_mul]
  have hcleared : value - lowest length (value >>> start) <<< start =
      value >>> start >>> length <<< length <<< start + lowest start value := by
    apply Nat.sub_eq_of_eq_add
    calc
      value = value >>> start <<< start + lowest start value :=
        (shiftLeft_add_lowest start value).symm
      _ = _ := by rw [hupper, Nat.add_right_comm]
  have hbelow : lowest start value < 2 ^ start := lowest_lt start value
  rw [hcleared, Nat.shiftLeft_add_eq_or_of_lt hbelow, Nat.testBit_or, Nat.testBit_shiftLeft,
    Nat.testBit_shiftLeft, Nat.testBit_shiftRight, Nat.testBit_shiftRight, testBit_lowest]
  by_cases hstart : index < start
  · have hbefore : ¬start ≤ index := by omega
    simp [hstart, hbefore]
  · by_cases hlength : index < start + length
    · have hinside : ¬length ≤ index - start := by omega
      simp [hstart, hlength, hinside, Nat.le_of_not_lt hstart]
    · have hafter : length ≤ index - start := by omega
      simp [hstart, hlength, hafter, Nat.le_of_not_lt hstart]

theorem overwrite?_eq_none_iff :
    bits.overwrite? start source = none ↔ bits.width < start + source.width := by
  rw [overwrite?]
  split <;> simp <;> omega

theorem le_of_overwrite? (hwrite : bits.overwrite? start source = some out) :
    start + source.width ≤ bits.width := by
  apply Nat.le_of_not_lt
  intro hlarge
  rw [overwrite?_eq_none_iff.mpr hlarge] at hwrite
  nomatch hwrite

theorem width_of_overwrite? (hwrite : bits.overwrite? start source = some out) :
    out.width = bits.width := by
  rw [overwrite?, if_pos (le_of_overwrite? hwrite), Option.some.injEq] at hwrite
  rw [← hwrite]

/-- The places of the source are overwritten, and all others keep their bits. -/
theorem bit_of_overwrite? (hsource : source.Valid)
    (hwrite : bits.overwrite? start source = some out) (index : Nat) :
    out.bit index =
      if start ≤ index ∧ index < start + source.width then source.bit (index - start)
      else bits.bit index := by
  rw [overwrite?, if_pos (le_of_overwrite? hwrite), Option.some.injEq] at hwrite
  rw [← hwrite]
  change (_ ||| source.value <<< start).testBit index = _
  rw [Nat.testBit_or, testBit_sub_run, Nat.testBit_shiftLeft]
  by_cases hinside : start ≤ index ∧ index < start + source.width
  · simp [hinside, bit]
  · have hbeyond : (decide (start ≤ index) && source.value.testBit (index - start)) = false := by
      by_cases hstart : start ≤ index
      · have hlarge : source.width ≤ index - start := by omega
        have hfalse := hsource.bit_eq_false hlarge
        rw [bit] at hfalse
        simp [hfalse]
      · simp [hstart]
    simp [hinside, hbeyond, bit]

theorem valid_of_overwrite? (hbits : bits.Valid) (hsource : source.Valid)
    (hwrite : bits.overwrite? start source = some out) : out.Valid := by
  rw [valid_iff_bit]
  intro index hindex
  rw [width_of_overwrite? hwrite] at hindex
  have hfits := le_of_overwrite? hwrite
  have houtside : ¬(start ≤ index ∧ index < start + source.width) := by omega
  rw [bit_of_overwrite? hsource hwrite, if_neg houtside]
  exact hbits.bit_eq_false hindex

end Bits

end ArchSpec
