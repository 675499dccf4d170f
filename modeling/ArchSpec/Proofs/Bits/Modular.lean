import Mathlib.Data.Int.ModEq
import ArchSpec.Data.Operator
import ArchSpec.Proofs.Bits.Integers

/-!
# Arithmetic modulo a power of two

Vectors of one width are the remainders modulo `pow2 width`: a vector made from
an integer is the remainder of that integer, and a valid vector is the remainder
of its own magnitude.  So sums and differences may be formed on integers, and
each law of integers becomes one of vectors.  The signed reading picks the other
system of representatives, which lies around zero.
-/

namespace ArchSpec

namespace Bits

variable {bits a b : Bits} {width : Nat} {m n : Int}

theorem pow2_eq_double (hwidth : width ≠ 0) : (pow2 width : Int) = 2 * pow2 (width - 1) := by
  obtain ⟨rest, rfl⟩ := Nat.exists_eq_succ_of_ne_zero hwidth
  have hdouble : pow2 (rest + 1) = pow2 rest * 2 := rfl
  simp only [Nat.succ_eq_add_one, Nat.add_sub_cancel, hdouble]
  omega

/-! ## Remainders -/

/-- A vector of so many bits is the remainder of an integer. -/
structure Reduces (bits : Bits) (width : Nat) (n : Int) : Prop where
  width_eq : bits.width = width
  valid : bits.Valid
  unsigned_modEq : bits.unsigned ≡ n [ZMOD pow2 width]

theorem unsigned_ofInt_eq_emod (width : Nat) (n : Int) :
    (ofInt width n).unsigned = n % pow2 width := value_ofInt width n

theorem ofInt_reduces (width : Nat) (n : Int) : (ofInt width n).Reduces width n where
  width_eq := width_ofInt width n
  valid := valid_ofInt width n
  unsigned_modEq := by
    rw [unsigned_ofInt_eq_emod]
    exact Int.mod_modEq n (pow2 width)

/-- Integers with one remainder are one vector. -/
theorem ofInt_congr (hmod : m ≡ n [ZMOD pow2 width]) : ofInt width m = ofInt width n := by
  apply ext_bit
  · rw [width_ofInt, width_ofInt]
  · have hvalue : ((ofInt width m).value : Int) = (ofInt width n).value := by
      rw [value_ofInt, value_ofInt]
      exact hmod
    intro index
    rw [bit, bit, Int.natCast_inj.mp hvalue]

/-- A valid vector is made from its magnitude. -/
theorem ofInt_unsigned (hvalid : bits.Valid) : ofInt bits.width bits.unsigned = bits := by
  have hlt : bits.unsigned < pow2 bits.width := Int.ofNat_lt.mpr hvalid
  have hvalue : ((ofInt bits.width bits.unsigned).value : Int) = bits.value := by
    rw [value_ofInt]
    exact Int.emod_eq_of_lt (Int.natCast_nonneg bits.value) hlt
  apply ext_bit (width_ofInt _ _)
  intro index
  rw [bit, bit, Int.natCast_inj.mp hvalue]

/-! ## The signed reading -/

/-- The integers that so many bits can denote with a sign. -/
def InSignedRange (width : Nat) (n : Int) : Prop :=
  if width = 0 then n = 0 else -(pow2 (width - 1) : Int) ≤ n ∧ n < pow2 (width - 1)

theorem top_bit_iff (hvalid : bits.Valid) :
    bits.bit (bits.width - 1) = true ↔ pow2 (bits.width - 1) ≤ bits.value := by
  constructor
  · exact Nat.ge_two_pow_of_testBit
  · intro hlarge
    by_contra hclear
    -- Without its top bit the vector would be one of a smaller width.
    have hbeyond : ∀ index, bits.width - 1 ≤ index → bits.bit index = false := by
      intro index hindex
      by_cases htop : index = bits.width - 1
      · rw [htop]
        exact Bool.eq_false_iff.mpr hclear
      · exact hvalid.bit_eq_false (by omega)
    have hsmall : bits.value < pow2 (bits.width - 1) := Nat.lt_pow_two_of_testBit _ hbeyond
    omega

theorem signed_modEq (bits : Bits) : bits.signed ≡ bits.unsigned [ZMOD pow2 bits.width] := by
  rw [signed, unsigned]
  split
  · exact Int.sub_emod_right _ _
  · rfl

theorem inSignedRange_signed (hvalid : bits.Valid) : InSignedRange bits.width bits.signed := by
  have hlt : bits.value < pow2 bits.width := hvalid
  rw [InSignedRange]
  split
  · rename_i hwidth
    rw [hwidth] at hlt
    have hzero : bits.value = 0 := Nat.lt_one_iff.mp hlt
    simp [signed, hwidth, hzero]
  · rename_i hwidth
    have hdouble := pow2_eq_double hwidth
    have htop := top_bit_iff hvalid
    rw [signed]
    split
    · rename_i hsign
      have hlarge := htop.mp hsign.2
      omega
    · rename_i hsign
      have hsmall : ¬pow2 (bits.width - 1) ≤ bits.value :=
        fun hlarge => hsign ⟨Nat.pos_of_ne_zero hwidth, htop.mpr hlarge⟩
      omega

/-- No two integers of the signed range have one remainder. -/
theorem InSignedRange.eq_of_modEq (hm : InSignedRange width m) (hn : InSignedRange width n)
    (hmod : m ≡ n [ZMOD pow2 width]) : m = n := by
  rw [InSignedRange] at hm hn
  split at hm
  · rename_i hwidth
    rw [if_pos hwidth] at hn
    rw [hm, hn]
  · rename_i hwidth
    rw [if_neg hwidth] at hn
    have hdouble := pow2_eq_double hwidth
    have hsmall : |n - m| < (pow2 width : Int) := abs_lt.mpr ⟨by omega, by omega⟩
    have hzero : n - m = 0 := Int.eq_zero_of_abs_lt_dvd hmod.dvd hsmall
    omega

theorem eq_signed_iff (hvalid : bits.Valid) :
    m = bits.signed ↔ m ≡ bits.unsigned [ZMOD pow2 bits.width] ∧ InSignedRange bits.width m := by
  constructor
  · rintro rfl
    exact ⟨bits.signed_modEq, inSignedRange_signed hvalid⟩
  · rintro ⟨hmod, hrange⟩
    exact hrange.eq_of_modEq (inSignedRange_signed hvalid) (hmod.trans bits.signed_modEq.symm)

/-! ## Sums and complements -/

theorem addInt_reduces (bits : Bits) (n : Int) :
    (bits.addInt n).Reduces bits.width (bits.unsigned + n) := ofInt_reduces _ _

/-- To add one integer after another is to add their sum. -/
theorem addInt_addInt (bits : Bits) (m n : Int) :
    (bits.addInt m).addInt n = bits.addInt (m + n) := by
  have hfirst := (bits.addInt_reduces m).unsigned_modEq
  rw [addInt, (bits.addInt_reduces m).width_eq, addInt]
  apply ofInt_congr
  rw [← add_assoc]
  exact hfirst.add_right n

theorem addInt_congr (bits : Bits) (hmod : m ≡ n [ZMOD pow2 bits.width]) :
    bits.addInt m = bits.addInt n :=
  ofInt_congr (hmod.add_left bits.unsigned)

theorem addInt_zero (hvalid : bits.Valid) : bits.addInt 0 = bits := by
  rw [addInt, add_zero]
  exact ofInt_unsigned hvalid

/-- The complement of all bits is the two's complement of the next number. -/
theorem not_eq_ofInt (bits : Bits) : bits.not = ofInt bits.width (-1 - bits.unsigned) := by
  have hcomplement : -1 - bits.unsigned = Int.negSucc bits.value := by
    rw [unsigned, Int.negSucc_eq]
    omega
  apply ext_bit
  · rw [width_ofInt]
    rfl
  · intro index
    rw [bit_not, bit_ofInt, hcomplement]
    rfl

end Bits

/-! ## Operators -/

namespace BinaryOp

variable {a b : Bits}

theorem add_bits (hwidth : a.width = b.width) :
    add.apply (.bits a) (.bits b) = .ok (.bits (a.addInt b.unsigned)) := by
  simp only [apply, onFitting, if_pos hwidth, onBits, Option.map_some]

theorem sub_bits (hwidth : a.width = b.width) :
    sub.apply (.bits a) (.bits b) = .ok (.bits (a.addInt (-b.unsigned))) := by
  simp only [apply, onFitting, if_pos hwidth, onBits, Option.map_some]

theorem add_int (a : Bits) (n : Int) :
    add.apply (.bits a) (.int n) = .ok (.bits (a.addInt n)) := rfl

end BinaryOp

namespace Bits

open BinaryOp (add sub)

/-- Arithmetic on vectors is that on integers modulo the number of vectors of one
width.  An integer becomes its remainder, on the short way and on the general
one; the signed reading is the one integer of its range with that remainder; and
sums, differences and complements are those of remainders. -/
theorem arithmetic_modulo_pow2 {width : Nat} {a b : Bits} (n : Int) (hvalid : a.Valid)
    (ha : a.width = width) (hb : b.width = width) :
    ((ofInt width n).unsigned = n % pow2 width ∧ (residue width n : Int) = n % pow2 width ∧
      0 ≤ n % pow2 width ∧ n % pow2 width < pow2 width) ∧
    (∀ m, m = a.signed ↔ m ≡ a.unsigned [ZMOD pow2 width] ∧
      if width = 0 then m = 0 else -(pow2 (width - 1) : Int) ≤ m ∧ m < pow2 (width - 1)) ∧
    (∃ out, add.apply (.bits a) (.bits b) = .ok (.bits out) ∧
      out.Reduces width (a.unsigned + b.unsigned)) ∧
    (∃ out, sub.apply (.bits a) (.bits b) = .ok (.bits out) ∧
      out.Reduces width (a.unsigned - b.unsigned)) ∧
    (∃ out, add.apply (.bits a) (.int n) = .ok (.bits out) ∧ out.Reduces width (a.unsigned + n)) ∧
    (∃ out, sub.apply (.bits a) (.int n) = .ok (.bits out) ∧ out.Reduces width (a.unsigned - n)) ∧
    (add.apply (.bits a) (.bits b) >>= fun sum => sub.apply sum (.bits b)) = .ok (.bits a) ∧
    add.apply (.bits a) (.int n) = add.apply (.bits a) (.bits (ofInt width n)) ∧
    UnaryOp.bitNot.apply (.bits a) = .ok (.bits (ofInt width (-1 - a.unsigned))) := by
  subst ha
  have hsum : (a.addInt b.unsigned).width = b.width := (a.addInt_reduces _).width_eq.trans hb.symm
  refine ⟨⟨unsigned_ofInt_eq_emod _ n, natCast_residue _ n, Int.emod_nonneg n (pow2_cast_pos _).ne',
      Int.emod_lt_of_pos n (pow2_cast_pos _)⟩, fun m => eq_signed_iff hvalid,
    ⟨_, BinaryOp.add_bits hb.symm, a.addInt_reduces _⟩,
    ⟨_, BinaryOp.sub_bits hb.symm, a.addInt_reduces _⟩, ⟨_, rfl, a.addInt_reduces n⟩,
    ⟨_, rfl, a.addInt_reduces _⟩, ?_, ?_, ?_⟩
  · rw [BinaryOp.add_bits hb.symm]
    change sub.apply (.bits (a.addInt b.unsigned)) (.bits b) = _
    rw [BinaryOp.sub_bits hsum, addInt_addInt, add_neg_cancel, addInt_zero hvalid]
  · have hn := (ofInt_reduces a.width n).unsigned_modEq
    rw [BinaryOp.add_int, BinaryOp.add_bits (width_ofInt _ _).symm, addInt_congr a hn]
  · rw [← not_eq_ofInt]
    rfl

/-- Eleven and nine in four bits carry over, and the sum has a sign. -/
theorem arithmetic_modulo_sixteen :
    (⟨4, 11⟩ : Bits).Valid ∧ (-5 : Int) = (⟨4, 11⟩ : Bits).signed ∧
      (add.apply (.bits ⟨4, 11⟩) (.bits ⟨4, 9⟩) >>= fun sum => sub.apply sum (.bits ⟨4, 9⟩)) =
        .ok (.bits ⟨4, 11⟩) ∧
      add.apply (.bits ⟨4, 11⟩) (.int (-37)) = add.apply (.bits ⟨4, 11⟩) (.bits ⟨4, 11⟩) := by
  have hvalid : (⟨4, 11⟩ : Bits).Valid := by decide
  have hlaws := arithmetic_modulo_pow2 (b := ⟨4, 9⟩) (-37) hvalid rfl rfl
  exact ⟨hvalid, (hlaws.2.1 (-5)).mpr ⟨rfl, by decide⟩, hlaws.2.2.2.2.2.2.1,
    hlaws.2.2.2.2.2.2.2.1⟩

end Bits

end ArchSpec
