import ArchSpec.Proofs.Slicing.Integers

/-!
# Widths of joined vectors

The widths of parts that are joined are added up in machine words, and nothing
looks whether the sum still is one before it is kept.  So a read or a
concatenation has a result, as wide as its parts are together, exactly if that is
a size, and overflows if it is not.  A write adds up the lengths of its slices
beforehand and refuses them.
-/

namespace ArchSpec

namespace Slice

variable {pairs : List (Int × Int)} {values : List Value} {vectors : List Bits} {limit : Nat}

/-- What a read gives is as wide as its slices, slices with more bits than a
size counts are refused, and no sum of positions or widths outgrows a machine
word. -/
structure ReadsExactly (pairs : List (Int × Int)) (source : Value) : Prop where
  width_eq : ∀ value, read (valuesOf pairs) source = .ok (some value) →
    ∃ bits, value = .bits bits ∧ bits.width = lengths (slicesOf pairs)
  refuses : Size.bound ≤ lengths (slicesOf pairs) → ∃ start length width,
    read (valuesOf pairs) source = .error (.badSlice start length width)
  ends_lt : ∀ slices, positions (valuesOf pairs) = .ok slices →
    ∀ slice ∈ slices, slice.start + slice.length < Size.bound
  fits : read (valuesOf pairs) source ≠ .ok none

/-- What values are joined to is as wide as they are together, and no sum of
widths outgrows a machine word. -/
structure JoinsExactly (values : List Value) : Prop where
  width_eq : ∀ value, concat values = .ok (some value) → ∃ vectors bits,
    widenAll values = .ok vectors ∧ value = .bits bits ∧ bits.width = Bits.totalWidth vectors
  needed_lt : ∀ vectors, widenAll values = .ok vectors →
    ∀ n, .int n ∈ values → Bits.bitsNeeded n < Size.bound
  fits : concat values ≠ .ok none

theorem ends_lt_of_positions {slices : List Position}
    (hslices : positions (valuesOf pairs) = .ok slices) :
    ∀ slice ∈ slices, slice.start + slice.length < Size.bound := by
  obtain ⟨hrange, rfl⟩ := positions_eq_ok_iff.mp hslices
  have hpos : 0 < Size.bound := Nat.two_pow_pos 64
  have hinside := ((inRange_iff_inside (Nat.sub_lt hpos Nat.one_pos)).mp hrange).2
  intro slice hmem
  have hend := hinside slice hmem
  omega

/-- A source whose parts are those of a vector is read exactly if its slices are
a size together, unless they are refused. -/
theorem readsExactly_iff_of_parts {source : Value} {vector : Bits}
    (hparts : parts (valuesOf pairs) source = parts (valuesOf pairs) (.bits vector))
    (hlimit : InRange limit pairs ↔
      InRange (Size.bound - 1) pairs ∧ Inside vector.width (slicesOf pairs)) :
    ReadsExactly pairs source ↔
      (InRange limit pairs → lengths (slicesOf pairs) < Size.bound) := by
  by_cases hrange : InRange limit pairs
  · obtain ⟨hsizes, hinside⟩ := hlimit.mp hrange
    have htaken := hparts.trans (parts_of_inside hsizes hinside)
    have htotal := totalWidth_map (width_cut vector) (slicesOf pairs)
    have hread : read (valuesOf pairs) source = .ok (join ((slicesOf pairs).map (cut vector))) := by
      rw [read_eq_map, htaken, Except.map]
    constructor
    · intro hexact _
      have hfits := hexact.fits
      rw [hread, ne_eq, Except.ok.injEq, join_eq_none_iff, htotal, Nat.not_le] at hfits
      exact hfits
    · intro hlengths
      have hwidth := hlengths hrange
      rw [← htotal] at hwidth
      rw [join_eq_some hwidth] at hread
      refine ⟨fun value hvalue => ?_, fun hlarge => ?_, fun slices => ends_lt_of_positions,
        by rw [hread]; nofun⟩
      · rw [hread] at hvalue
        cases hvalue
        exact ⟨_, rfl, by rw [Bits.width_concat, htotal]⟩
      · omega
  · obtain ⟨start, length, width, herror⟩ := parts_of_not_inside (mt hlimit.mpr hrange)
    have hread : read (valuesOf pairs) source = .error (.badSlice start length width) := by
      rw [read_eq_map, hparts.trans herror]
      rfl
    refine ⟨fun _ hinside => absurd hinside hrange, fun _ => ⟨fun value hvalue => ?_,
      fun _ => ⟨start, length, width, hread⟩, fun slices => ends_lt_of_positions,
      by rw [hread]; nofun⟩⟩
    rw [hread] at hvalue
    nomatch hvalue

/-- Values are together at least as wide as each integer among them needs. -/
theorem bitsNeeded_le_of_widenAll (hwiden : widenAll values = .ok vectors) {n : Int}
    (hmem : .int n ∈ values) : Bits.bitsNeeded n ≤ Bits.totalWidth vectors := by
  induction values generalizing vectors with
  | nil => nomatch hmem
  | cons first rest ih =>
      obtain ⟨vector, hvector, hrest⟩ := bind_eq_ok_iff.mp hwiden
      obtain ⟨others, hothers, hsame⟩ := bind_eq_ok_iff.mp hrest
      cases hsame
      rw [Bits.totalWidth_cons]
      rcases List.mem_cons.mp hmem with rfl | hlater
      · cases hvector
        rw [Bits.width_ofInt]
        exact Nat.le_trans (Bits.bitsNeeded_le_inferredWidth n 0) (Nat.le_add_right _ _)
      · exact Nat.le_trans (ih hothers hlater) (Nat.le_add_left _ _)

theorem joinsExactly_iff (values : List Value) : JoinsExactly values ↔
    ∀ vectors, widenAll values = .ok vectors → Bits.totalWidth vectors < Size.bound := by
  constructor
  · intro hexact vectors hwiden
    have hfits := hexact.fits
    rw [concat_eq_map, hwiden, Except.map, ne_eq, Except.ok.injEq, join_eq_none_iff,
      Nat.not_le] at hfits
    exact hfits
  · intro htotal
    cases hwiden : widenAll values with
    | error cause =>
        have hconcat : concat values = .error cause := by
          rw [concat_eq_map, hwiden, Except.map]
        refine ⟨fun value hvalue => ?_, fun vectors hsame => ?_, by rw [hconcat]; nofun⟩
        · rw [hconcat] at hvalue
          nomatch hvalue
        · rw [hwiden] at hsame
          nomatch hsame
    | ok vectors =>
        have hwidth := htotal vectors hwiden
        have hconcat : concat values = .ok (some (.bits (Bits.concat vectors))) := by
          rw [concat_eq_map, hwiden, Except.map, join_eq_some hwidth]
        refine ⟨fun value hvalue => ?_, fun others hsame n hmem => ?_, by rw [hconcat]; nofun⟩
        · rw [hconcat] at hvalue
          cases hvalue
          exact ⟨vectors, _, hwiden, rfl, Bits.width_concat vectors⟩
        · exact Nat.lt_of_le_of_lt (bitsNeeded_le_of_widenAll hwiden hmem) hwidth

/-- Slices with more bits than a size counts are never written. -/
theorem write_of_le (source target : Value) (hlarge : Size.bound ≤ lengths (slicesOf pairs)) :
    ∃ start length width,
      write (valuesOf pairs) source target = .error (.badSlice start length width) := by
  by_cases hrange : InRange (Size.bound - 1) pairs
  · obtain ⟨slice, _, herror⟩ := totalLength_of_le (Nat.two_pow_pos 64)
      (by rw [Nat.zero_add]; exact hlarge : Size.bound ≤ 0 + lengths (slicesOf pairs))
    refine ⟨slice.start, slice.length, 0, ?_⟩
    simp only [write, positions_of_inRange hrange, herror, bind, Except.bind]
    rfl
  · obtain ⟨pair, _, herror⟩ := positions_of_not_inRange hrange
    refine ⟨pair.1, pair.2, 0, ?_⟩
    rw [write, herror]
    rfl

/-- Values are joined, and slices of a vector or an integer are read, with exact
widths if and only if what is joined has a size; a write refuses all others. -/
theorem exactWidths_iff (values : List Value) (pairs : List (Int × Int)) :
    (JoinsExactly values ↔
      ∀ vectors, widenAll values = .ok vectors → Bits.totalWidth vectors < Size.bound) ∧
    (∀ source : Bits, source.width < Size.bound → (ReadsExactly pairs (.bits source) ↔
      (InRange source.width pairs → lengths (slicesOf pairs) < Size.bound))) ∧
    (∀ n : Int, ReadsExactly pairs (.int n) ↔
      (InRange (Size.bound - 1) pairs → lengths (slicesOf pairs) < Size.bound)) ∧
    (∀ source target : Value, Size.bound ≤ lengths (slicesOf pairs) → ∃ start length width,
      write (valuesOf pairs) source target = .error (.badSlice start length width)) := by
  refine ⟨joinsExactly_iff values, fun source hwidth => ?_, fun n => ?_, write_of_le⟩
  · exact readsExactly_iff_of_parts rfl (inRange_iff_inside hwidth)
  · exact readsExactly_iff_of_parts (parts_int_eq_parts_widened n pairs)
      (inRange_iff_inside_widened n pairs)

/-- One bit more than a size counts is no result, and no refusal either. -/
theorem not_exactWidths :
    ¬ReadsExactly [(0, pow2 64 - 1), (0, 1)] (.int 5) ∧
      read (valuesOf [(0, pow2 64 - 1), (0, 1)]) (.int 5) = .ok none := by
  have hread : read (valuesOf [(0, pow2 64 - 1), (0, 1)]) (.int 5) = .ok none := rfl
  exact ⟨fun hexact => hexact.fits hread, hread⟩

end Slice

end ArchSpec
