import ArchSpec.Proofs.Bits.Integers
import ArchSpec.Proofs.Slicing.Ranges

/-!
# Slices of integers

An integer is cut slice by slice, and never as a vector that has all its places.
The parts are those of the widened vector nevertheless, since neither sees more
than the two's complement.  So to read from an integer, or to write into one, is
to do so with the vector that it is widened to.
-/

namespace ArchSpec

namespace Bits

theorem extract?_ofInt {width start length : Nat} (n : Int) (hfits : start + length ≤ width) :
    (ofInt width n).extract? start length = some (ofIntSlice n start length) := by
  have hinside : start + length ≤ (ofInt width n).width := by
    rw [width_ofInt]
    exact hfits
  have hextract := extract?_eq_some hinside
  rw [hextract]
  apply congrArg some
  apply ext_bit
  · rw [ofIntSlice, width_ofInt, width_ofNat]
  · intro index
    rw [bit_of_extract? hextract, bit_ofInt, bit_ofIntSlice]
    by_cases hindex : index < length
    · have hplace : start + index < width := by omega
      simp [hplace]
    · simp [hindex]

/-- The places from the start up, the highest one first. -/
theorem toList_ofIntSlice (n : Int) (start length : Nat) : (ofIntSlice n start length).toList =
    (List.range length).reverse.map fun index => n.testBit (start + index) := by
  have hwidth : (ofIntSlice n start length).width = length := width_ofInt length _
  rw [toList, hwidth]
  apply List.map_congr_left
  intro index hmem
  have hindex : index < length := List.mem_range.mp (List.mem_reverse.mp hmem)
  rw [bit_ofIntSlice, decide_eq_true hindex, Bool.true_and]

end Bits

namespace Slice

variable {pairs : List (Int × Int)} {slices : List Position} {width : Nat}

/-- An integer as a vector with all slices inside. -/
def widened (n : Int) (pairs : List (Int × Int)) : Bits :=
  Bits.ofInt (Bits.inferredWidth n (reach (slicesOf pairs))) n

theorem inside_widened (n : Int) (pairs : List (Int × Int)) :
    Inside (widened n pairs).width (slicesOf pairs) := by
  rw [← reach_le_iff, widened, Bits.width_ofInt]
  exact Nat.le_trans (Nat.le_max_right _ _) (Nat.le_max_left _ _)

/-- A slice whose end is a size is never out of range of an integer. -/
theorem inRange_iff_inside_widened (n : Int) (pairs : List (Int × Int)) :
    InRange (Size.bound - 1) pairs ↔
      InRange (Size.bound - 1) pairs ∧ Inside (widened n pairs).width (slicesOf pairs) :=
  ⟨fun hrange => ⟨hrange, inside_widened n pairs⟩, And.left⟩

theorem readParts_ofInt (n : Int) (hinside : Inside width slices) :
    readParts (Bits.ofInt width n) slices =
      .ok (slices.map fun slice => Bits.ofIntSlice n slice.start slice.length) := by
  induction slices with
  | nil => rfl
  | cons slice rest ih =>
      obtain ⟨hslice, hrest⟩ := inside_cons.mp hinside
      rw [readParts, Bits.extract?_ofInt n hslice, ih hrest]
      rfl

theorem parts_int (n : Int) (hrange : InRange (Size.bound - 1) pairs) :
    parts (valuesOf pairs) (.int n) =
      .ok ((slicesOf pairs).map fun slice => Bits.ofIntSlice n slice.start slice.length) := by
  rw [parts, positions_of_inRange hrange]
  rfl

/-- The parts of an integer are those of the widened vector. -/
theorem parts_int_eq_parts_widened (n : Int) (pairs : List (Int × Int)) :
    parts (valuesOf pairs) (.int n) = parts (valuesOf pairs) (.bits (widened n pairs)) := by
  by_cases hrange : InRange (Size.bound - 1) pairs
  · have hinside := inside_widened n pairs
    rw [widened, Bits.width_ofInt] at hinside
    have hparts := readParts_ofInt n hinside
    rw [parts_int n hrange, parts, positions_of_inRange hrange]
    exact hparts.symm
  · obtain ⟨_, _, herror⟩ := positions_of_not_inRange hrange
    rw [parts, parts, herror]
    rfl

theorem read_int_eq_read_widened (n : Int) (pairs : List (Int × Int)) :
    read (valuesOf pairs) (.int n) = read (valuesOf pairs) (.bits (widened n pairs)) := by
  rw [read_eq_map, read_eq_map, parts_int_eq_parts_widened]

theorem write_int_eq_write_widened (source : Value) (n : Int) (pairs : List (Int × Int)) :
    write (valuesOf pairs) source (.int n) =
      write (valuesOf pairs) source (.bits (widened n pairs)) := by
  by_cases hrange : InRange (Size.bound - 1) pairs
  · rw [write, write, positions_of_inRange hrange]
    rfl
  · obtain ⟨_, _, herror⟩ := positions_of_not_inRange hrange
    rw [write, write, herror]
    rfl

/-- Slices of an integer are read as those of the vector that it is widened to,
and what is read lists the places of the two's complement, slice by slice. -/
theorem read_int_twosComplement (n : Int) {pairs : List (Int × Int)}
    (hrange : InRange (Size.bound - 1) pairs)
    (htotal : lengths (slicesOf pairs) < Size.bound) :
    ∃ vector out, (Value.int n).toBits (reach (slicesOf pairs)) = .ok vector ∧
      vector.width = max 1 (max (Bits.bitsNeeded n) (reach (slicesOf pairs))) ∧
      read (valuesOf pairs) (.int n) = .ok (some (.bits out)) ∧
      read (valuesOf pairs) (.bits vector) = .ok (some (.bits out)) ∧
      out.toList = (slicesOf pairs).flatMap fun slice =>
        (List.range slice.length).reverse.map fun index => n.testBit (slice.start + index) := by
  have hwidth : Bits.totalWidth ((slicesOf pairs).map fun slice =>
      Bits.ofIntSlice n slice.start slice.length) = lengths (slicesOf pairs) :=
    totalWidth_map (fun slice => Bits.width_ofInt slice.length _) _
  have hread : read (valuesOf pairs) (.int n) = .ok (some (.bits (Bits.concat
      ((slicesOf pairs).map fun slice => Bits.ofIntSlice n slice.start slice.length)))) := by
    rw [read_eq_map, parts_int n hrange, Except.map, join_eq_some (by rw [hwidth]; exact htotal)]
  refine ⟨widened n pairs, _, rfl, ?_, hread, ?_, ?_⟩
  · rw [widened, Bits.width_ofInt, Bits.inferredWidth, Nat.max_comm]
  · rw [← read_int_eq_read_widened, hread]
  · have hvalid : ∀ part ∈ (slicesOf pairs).map fun slice =>
        Bits.ofIntSlice n slice.start slice.length, part.Valid := by
      intro part hmem
      obtain ⟨slice, _, rfl⟩ := List.mem_map.mp hmem
      exact Bits.valid_ofInt slice.length _
    have hlists : (fun slice : Position => (Bits.ofIntSlice n slice.start slice.length).toList) =
        fun slice => (List.range slice.length).reverse.map fun index =>
          n.testBit (slice.start + index) := by
      funext slice
      exact Bits.toList_ofIntSlice n slice.start slice.length
    rw [Bits.toList_concat hvalid, List.flatMap_map, hlists]

/-- A bit of minus six, and then two bits of its sign. -/
theorem read_minusSix :
    InRange (Size.bound - 1) [(1, 1), (pow2 36, 2)] ∧
      lengths (slicesOf [(1, 1), (pow2 36, 2)]) < Size.bound ∧
      ∃ vector out, (Value.int (-6)).toBits (reach (slicesOf [(1, 1), (pow2 36, 2)])) = .ok vector ∧
        vector.width = max 1 (max (Bits.bitsNeeded (-6))
          (reach (slicesOf [(1, 1), (pow2 36, 2)]))) ∧
        read (valuesOf [(1, 1), (pow2 36, 2)]) (.int (-6)) = .ok (some (.bits out)) ∧
        read (valuesOf [(1, 1), (pow2 36, 2)]) (.bits vector) = .ok (some (.bits out)) ∧
        out.toList = [true, true, true] := by
  have hrange : InRange (Size.bound - 1) [(1, 1), (pow2 36, 2)] := by decide
  have htotal : lengths (slicesOf [(1, 1), (pow2 36, 2)]) < Size.bound := by decide
  exact ⟨hrange, htotal, read_int_twosComplement (-6) hrange htotal⟩

end Slice

end ArchSpec
