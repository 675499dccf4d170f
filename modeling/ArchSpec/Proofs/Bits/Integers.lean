import Mathlib.Data.Int.Bitwise
import ArchSpec.Data.Value
import ArchSpec.Proofs.Bits.Places

/-!
# Integers as bit vectors

A vector made from an integer holds the lowest places of its two's complement,
which has a bit at every place.  No bit is lost exactly if the width is at least
the number of bits that the integer needs, a sign bit included if it is
negative.  So what the width rule widens an integer to reads back as it.
-/

namespace ArchSpec

namespace Bits

variable {n : Int} {magnitude width : Nat}

/-! ## Places of the two's complement -/

theorem testBit_emod_pow2 (n : Int) (width index : Nat) :
    (n % (pow2 width : Int)).toNat.testBit index = (decide (index < width) && n.testBit index) := by
  cases n with
  | ofNat magnitude => exact Nat.testBit_mod_two_pow magnitude width index
  | negSucc magnitude =>
      have hlt : magnitude % pow2 width < pow2 width := Nat.mod_lt _ (Nat.two_pow_pos width)
      have hrest : (Int.negSucc magnitude % (pow2 width : Int)).toNat =
          pow2 width - (magnitude % pow2 width + 1) := by
        rw [Int.emod_negSucc, Int.natAbs_natCast, Int.subNatNat_of_le hlt]
        rfl
      have hcomplement : (pow2 width - (magnitude % pow2 width + 1)).testBit index =
          (decide (index < width) && !(magnitude % pow2 width).testBit index) :=
        Nat.testBit_two_pow_sub_succ hlt index
      have hlowest : (magnitude % pow2 width).testBit index =
          (decide (index < width) && magnitude.testBit index) :=
        Nat.testBit_mod_two_pow magnitude width index
      rw [hrest, hcomplement, hlowest]
      by_cases hindex : index < width
      · simp [hindex, Int.testBit]
      · simp [hindex]

theorem testBit_shiftRight (n : Int) (start index : Nat) :
    (n >>> start).testBit index = n.testBit (start + index) := by
  cases n with
  | ofNat magnitude => exact Nat.testBit_shiftRight magnitude
  | negSucc magnitude => exact congrArg (!·) (Nat.testBit_shiftRight magnitude)

@[simp]
theorem bit_ofInt (width : Nat) (n : Int) (index : Nat) :
    (ofInt width n).bit index = (decide (index < width) && n.testBit index) := by
  rw [bit, ← testBit_emod_pow2, ← value_ofInt, Int.toNat_natCast]

/-- A slice of an integer has the places from its start up. -/
theorem bit_ofIntSlice (n : Int) (start length index : Nat) :
    (ofIntSlice n start length).bit index =
      (decide (index < length) && n.testBit (start + index)) := by
  rw [ofIntSlice, bit_ofInt, testBit_shiftRight]

/-! ## How many bits an integer needs -/

/-- A negative number has one bit more than its complement, which is the sign. -/
theorem bitsNeeded_negSucc (magnitude : Nat) :
    bitsNeeded (.negSucc magnitude) = bitsNeeded magnitude + 1 := by
  cases magnitude <;> rfl

/-- The bits needed suffice, and no fewer do. -/
theorem bitsNeeded_le_iff : bitsNeeded n ≤ width ↔
    (0 ≤ n ∧ n < pow2 width) ∨ (n < 0 ∧ 1 ≤ width ∧ -(pow2 (width - 1) : Int) ≤ n) := by
  cases n with
  | ofNat magnitude =>
      have hneeded : bitsNeeded magnitude ≤ width ↔ magnitude < pow2 width :=
        bitsNeeded_natCast_le_iff
      rw [Int.ofNat_eq_natCast]
      omega
  | negSucc magnitude =>
      have hneeded : bitsNeeded magnitude ≤ width - 1 ↔ magnitude < pow2 (width - 1) :=
        bitsNeeded_natCast_le_iff
      rw [bitsNeeded_negSucc]
      omega

theorem lt_pow2_of_nonneg (hnonneg : 0 ≤ n) (hneeded : bitsNeeded n ≤ width) : n < pow2 width := by
  have hrange := bitsNeeded_le_iff.mp hneeded
  omega

/-! ## Reading back -/

theorem unsigned_ofInt (hnonneg : 0 ≤ n) (hneeded : bitsNeeded n ≤ width) :
    (ofInt width n).unsigned = n := by
  rw [unsigned, value_ofInt]
  exact Int.emod_eq_of_lt hnonneg (lt_pow2_of_nonneg hnonneg hneeded)

theorem signed_ofInt (hneg : n < 0) (hneeded : bitsNeeded n ≤ width) :
    (ofInt width n).signed = n := by
  obtain ⟨magnitude, rfl⟩ := Int.eq_negSucc_of_lt_zero hneg
  rw [bitsNeeded_negSucc] at hneeded
  have hpos : 0 < width := by omega
  have hbound : magnitude < pow2 (width - 1) := bitsNeeded_natCast_le_iff.mp (by omega)
  have hdouble : pow2 (width - 1) ≤ pow2 width := Nat.pow_le_pow_right Nat.two_pos (Nat.sub_le _ _)
  have hsign : (ofInt width (.negSucc magnitude)).bit (width - 1) = true := by
    have hclear : magnitude.testBit (width - 1) = false := Nat.testBit_lt_two_pow hbound
    have hinside : width - 1 < width := by omega
    rw [bit_ofInt, decide_eq_true hinside, Bool.true_and, Int.testBit, hclear]
    rfl
  -- The remainder is one modulus above the number, and the sign takes it off.
  have hvalue : ((ofInt width (.negSucc magnitude)).value : Int) =
      Int.negSucc magnitude + pow2 width :=
    calc ((ofInt width (.negSucc magnitude)).value : Int)
        = Int.negSucc magnitude % pow2 width := value_ofInt width _
      _ = (Int.negSucc magnitude + pow2 width) % pow2 width := by
        rw [Int.add_emod_right]
      _ = Int.negSucc magnitude + pow2 width := Int.emod_eq_of_lt (by omega) (by omega)
  rw [signed, width_ofInt, if_pos ⟨hpos, hsign⟩, hvalue]
  omega

/-- The vector reads back as the integer, without a sign if that has none. -/
def ReadsAs (bits : Bits) (n : Int) : Prop :=
  (0 ≤ n → bits.unsigned = n) ∧ (n < 0 → bits.signed = n)

theorem readsAs_ofInt (hneeded : bitsNeeded n ≤ width) : (ofInt width n).ReadsAs n :=
  ⟨fun hnonneg => unsigned_ofInt hnonneg hneeded, fun hneg => signed_ofInt hneg hneeded⟩

theorem bitsNeeded_le_inferredWidth (n : Int) (hint : Nat) : bitsNeeded n ≤ inferredWidth n hint :=
  Nat.le_trans (Nat.le_max_left _ _) (Nat.le_max_left _ _)

end Bits

/-! ## Widening -/

namespace Value

theorem toBitsExact_int (n : Int) (width : Nat) : (int n).toBitsExact width =
    if max 1 (Bits.bitsNeeded n) ≤ width then .ok (Bits.ofInt width n)
    else .error ((int n).mismatch [.bits (some width)]) := by
  have hview : (int n).toBitsExact width =
      if (Bits.ofInt (Bits.inferredWidth n width) n).width = width then
        .ok (Bits.ofInt (Bits.inferredWidth n width) n)
      else .error ((int n).mismatch [.bits (some width)]) := rfl
  have hwidth : Bits.inferredWidth n width = width ↔ max 1 (Bits.bitsNeeded n) ≤ width := by
    rw [Bits.inferredWidth]
    omega
  rw [hview, Bits.width_ofInt]
  by_cases hfits : max 1 (Bits.bitsNeeded n) ≤ width
  · rw [if_pos hfits, if_pos (hwidth.mpr hfits), hwidth.mpr hfits]
  · rw [if_neg hfits, if_neg (mt hwidth.mp hfits)]

theorem toBitsExact_bits (source : Bits) (width : Nat) : (bits source).toBitsExact width =
    if source.width = width then .ok source
    else .error ((bits source).mismatch [.bits (some width)]) := rfl

/-- An integer is widened to the least width that keeps it, or further if more
bits are referred to, and it reads back unchanged.  Where the width is given, it
has to suffice, and a vector has to have it. -/
theorem widening_lossless :
    (∀ (n : Int) (width : Nat), Bits.bitsNeeded n ≤ width ↔
      (0 ≤ n ∧ n < pow2 width) ∨ (n < 0 ∧ 1 ≤ width ∧ -(pow2 (width - 1) : Int) ≤ n)) ∧
    (∀ (n : Int) (hint : Nat), ∃ widened, (int n).toBits hint = .ok widened ∧
      widened.width = max 1 (max (Bits.bitsNeeded n) hint) ∧ widened.ReadsAs n) ∧
    (∀ (n : Int) (width : Nat),
      ((∃ widened, (int n).toBitsExact width = .ok widened) ↔
        max 1 (Bits.bitsNeeded n) ≤ width) ∧
      ∀ widened, (int n).toBitsExact width = .ok widened →
        widened.width = width ∧ widened.ReadsAs n) ∧
    (∀ (source : Bits) (width : Nat),
      ((∃ kept, (bits source).toBitsExact width = .ok kept) ↔ source.width = width) ∧
      ∀ kept, (bits source).toBitsExact width = .ok kept → kept = source) := by
  refine ⟨fun n width => Bits.bitsNeeded_le_iff, fun n hint => ?_, fun n width => ?_,
    fun source width => ?_⟩
  · refine ⟨Bits.ofInt (Bits.inferredWidth n hint) n, rfl, ?_, ?_⟩
    · rw [Bits.width_ofInt, Bits.inferredWidth, Nat.max_comm]
    · exact Bits.readsAs_ofInt (Bits.bitsNeeded_le_inferredWidth n hint)
  · rw [toBitsExact_int]
    by_cases hfits : max 1 (Bits.bitsNeeded n) ≤ width
    · rw [if_pos hfits]
      refine ⟨⟨fun _ => hfits, fun _ => ⟨_, rfl⟩⟩, fun widened hwidened => ?_⟩
      cases hwidened
      exact ⟨Bits.width_ofInt width n, Bits.readsAs_ofInt (by omega)⟩
    · rw [if_neg hfits]
      exact ⟨⟨nofun, fun hwidth => absurd hwidth hfits⟩, nofun⟩
  · rw [toBitsExact_bits]
    by_cases hwidth : source.width = width
    · rw [if_pos hwidth]
      exact ⟨⟨fun _ => hwidth, fun _ => ⟨_, rfl⟩⟩, fun kept hkept => (Except.ok.inj hkept).symm⟩
    · rw [if_neg hwidth]
      exact ⟨⟨nofun, fun hsame => absurd hsame hwidth⟩, nofun⟩

/-- The least number that eight bits hold takes all of them. -/
theorem widening_lossless_least :
    (int (-128)).toBitsExact 8 = .ok ⟨8, 128⟩ ∧ (⟨8, 128⟩ : Bits).ReadsAs (-128) := by
  have hwidened : (int (-128)).toBitsExact 8 = .ok ⟨8, 128⟩ := rfl
  exact ⟨hwidened, ((widening_lossless.2.2.1 (-128) 8).2 _ hwidened).2⟩

end Value

end ArchSpec
