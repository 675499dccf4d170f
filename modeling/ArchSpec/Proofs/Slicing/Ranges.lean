import ArchSpec.Proofs.Bits.Refinement
import ArchSpec.Proofs.Slicing

/-!
# Slices given by integers

A start and a length denote a slice if neither is negative and its end is a
size.  Such slices can be read from a vector exactly if they all end inside it,
and their parts have as many bits together as the slices.  What refuses them is
always a fault that names a slice.
-/

namespace ArchSpec

namespace Slice

/-- The slice of a start and a length that are not negative. -/
def Position.ofPair (pair : Int × Int) : Position := ⟨pair.1.toNat, pair.2.toNat⟩

/-- The slices of starts and lengths that are not negative. -/
def slicesOf (pairs : List (Int × Int)) : List Position := pairs.map .ofPair

/-- Starts and lengths as values. -/
def valuesOf (pairs : List (Int × Int)) : List (Value × Value) :=
  pairs.map fun pair => (.int pair.1, .int pair.2)

/-- No start and no length is negative, and no slice ends above the limit. -/
def InRange (limit : Nat) (pairs : List (Int × Int)) : Prop :=
  ∀ pair ∈ pairs, 0 ≤ pair.1 ∧ 0 ≤ pair.2 ∧ pair.1 + pair.2 ≤ limit

instance (limit : Nat) (pairs : List (Int × Int)) : Decidable (InRange limit pairs) :=
  inferInstanceAs (Decidable (∀ pair ∈ pairs, _))

/-- All slices end inside so many bits. -/
def Inside (width : Nat) (slices : List Position) : Prop :=
  ∀ slice ∈ slices, slice.start + slice.length ≤ width

variable {pairs : List (Int × Int)} {slices : List Position} {limit width sum : Nat}

@[simp]
theorem inside_cons {slice : Position} : Inside width (slice :: slices) ↔
    slice.start + slice.length ≤ width ∧ Inside width slices :=
  List.forall_mem_cons

@[simp]
theorem inRange_cons {pair : Int × Int} : InRange limit (pair :: pairs) ↔
    (0 ≤ pair.1 ∧ 0 ≤ pair.2 ∧ pair.1 + pair.2 ≤ limit) ∧ InRange limit pairs :=
  List.forall_mem_cons

/-! ## Positions -/

theorem position_int (start length : Int) : position (.int start) (.int length) =
    if 0 ≤ start ∧ 0 ≤ length ∧ start + length ≤ (Size.bound - 1 : Nat) then
      .ok (.ofPair (start, length))
    else .error (.badSlice start length 0) := by
  have hpos : 0 < Size.bound := Nat.two_pow_pos 64
  have hasInt : ∀ n : Int, (Value.int n).asInt = .ok n := fun _ => rfl
  simp only [position, hasInt, Size.ofInt?, bind, Except.bind]
  by_cases hstart : 0 ≤ start ∧ start < (Size.bound : Int)
  · by_cases hlength : 0 ≤ length ∧ length < (Size.bound : Int)
    · have hend : start.toNat + length.toNat < Size.bound ↔
          0 ≤ start ∧ 0 ≤ length ∧ start + length ≤ (Size.bound - 1 : Nat) := by omega
      simp only [if_pos hstart, if_pos hlength, hend]
      rfl
    · have hrefused : ¬(0 ≤ start ∧ 0 ≤ length ∧ start + length ≤ (Size.bound - 1 : Nat)) := by
        omega
      rw [if_pos hstart, if_neg hlength, if_neg hrefused]
      rfl
  · have hrefused : ¬(0 ≤ start ∧ 0 ≤ length ∧ start + length ≤ (Size.bound - 1 : Nat)) := by omega
    rw [if_neg hstart, if_neg hrefused]
    rfl

theorem positions_of_inRange (hrange : InRange (Size.bound - 1) pairs) :
    positions (valuesOf pairs) = .ok (slicesOf pairs) := by
  induction pairs with
  | nil => rfl
  | cons pair rest ih =>
      obtain ⟨hpair, hrest⟩ := inRange_cons.mp hrange
      change (position (.int pair.1) (.int pair.2) >>= fun first =>
        positions (valuesOf rest) >>= fun others => pure (first :: others)) = _
      rw [position_int, if_pos hpair, ih hrest]
      rfl

theorem positions_of_not_inRange (hrange : ¬InRange (Size.bound - 1) pairs) :
    ∃ pair ∈ pairs, positions (valuesOf pairs) = .error (.badSlice pair.1 pair.2 0) := by
  induction pairs with
  | nil => exact absurd (fun _ hmem => nomatch hmem) hrange
  | cons pair rest ih =>
      have hcons : positions (valuesOf (pair :: rest)) =
        (position (.int pair.1) (.int pair.2) >>= fun first =>
          positions (valuesOf rest) >>= fun others => pure (first :: others)) := rfl
      rw [hcons, position_int]
      split
      · rename_i hpair
        have hrest : ¬InRange (Size.bound - 1) rest := fun hrest =>
          hrange (inRange_cons.mpr ⟨hpair, hrest⟩)
        obtain ⟨refused, hmem, herror⟩ := ih hrest
        exact ⟨refused, List.mem_cons_of_mem _ hmem, by rw [herror]; rfl⟩
      · exact ⟨pair, List.mem_cons_self, rfl⟩

theorem positions_eq_ok_iff : positions (valuesOf pairs) = .ok slices ↔
    InRange (Size.bound - 1) pairs ∧ slices = slicesOf pairs := by
  by_cases hrange : InRange (Size.bound - 1) pairs
  · rw [positions_of_inRange hrange]
    exact ⟨fun hsame => ⟨hrange, (Except.ok.inj hsame).symm⟩, fun hsame => by rw [hsame.2]⟩
  · obtain ⟨_, _, herror⟩ := positions_of_not_inRange hrange
    rw [herror]
    exact ⟨nofun, fun hboth => absurd hboth.1 hrange⟩

/-- In range of a vector is a matter of the ends, once all are sizes. -/
theorem inRange_iff_inside (hlimit : limit < Size.bound) : InRange limit pairs ↔
    InRange (Size.bound - 1) pairs ∧ Inside limit (slicesOf pairs) := by
  induction pairs with
  | nil => exact ⟨fun _ => ⟨nofun, nofun⟩, fun _ => nofun⟩
  | cons pair rest ih =>
      have hpair : (0 ≤ pair.1 ∧ 0 ≤ pair.2 ∧ pair.1 + pair.2 ≤ (limit : Int)) ↔
          (0 ≤ pair.1 ∧ 0 ≤ pair.2 ∧ pair.1 + pair.2 ≤ (Size.bound - 1 : Nat)) ∧
            pair.1.toNat + pair.2.toNat ≤ limit := by omega
      rw [inRange_cons, inRange_cons, slicesOf, List.map_cons, inside_cons, ih, hpair]
      exact and_and_and_comm

/-- The reach is the least width that has all slices inside. -/
theorem reach_le_iff : reach slices ≤ width ↔ Inside width slices := by
  have hfold : ∀ highest, slices.foldl
      (fun highest slice => max highest (slice.start + slice.length)) highest ≤ width ↔
        highest ≤ width ∧ Inside width slices := by
    induction slices with
    | nil => exact fun highest => ⟨fun hle => ⟨hle, nofun⟩, And.left⟩
    | cons slice rest ih =>
        intro highest
        rw [List.foldl_cons, ih, Nat.max_le, inside_cons, and_assoc]
  rw [reach, hfold]
  exact ⟨And.right, fun hinside => ⟨Nat.zero_le width, hinside⟩⟩

/-! ## Lengths -/

theorem totalLength_of_lt (htotal : sum + lengths slices < Size.bound) :
    totalLength sum slices = .ok (sum + lengths slices) := by
  induction slices generalizing sum with
  | nil => rfl
  | cons slice rest ih =>
      rw [lengths_cons] at htotal
      rw [totalLength, if_pos (by omega), ih (by omega), lengths_cons, Nat.add_assoc]

theorem totalLength_of_le (hsum : sum < Size.bound) (htotal : Size.bound ≤ sum + lengths slices) :
    ∃ slice ∈ slices, totalLength sum slices = .error (slice.outside 0) := by
  induction slices generalizing sum with
  | nil => exact absurd hsum (Nat.not_lt.mpr htotal)
  | cons slice rest ih =>
      rw [lengths_cons] at htotal
      rw [totalLength]
      split
      · rename_i hfits
        obtain ⟨refused, hmem, herror⟩ := ih hfits (by omega)
        exact ⟨refused, List.mem_cons_of_mem _ hmem, herror⟩
      · exact ⟨slice, List.mem_cons_self, rfl⟩

/-! ## Parts of a vector -/

variable {source : Bits}

/-- The bits of a slice that lies inside. -/
def cut (source : Bits) (slice : Position) : Bits :=
  Bits.ofNat slice.length (source.value >>> slice.start)

theorem width_cut (source : Bits) (slice : Position) : (cut source slice).width = slice.length :=
  rfl

theorem valid_cut (source : Bits) (slice : Position) : (cut source slice).Valid :=
  Bits.valid_ofNat slice.length _

theorem bit_cut (source : Bits) (slice : Position) (index : Nat) : (cut source slice).bit index =
    (decide (index < slice.length) && source.bit (slice.start + index)) := by
  rw [cut, Bits.bit_ofNat, Nat.testBit_shiftRight, Bits.bit]

theorem readParts_of_inside (hinside : Inside source.width slices) :
    readParts source slices = .ok (slices.map (cut source)) := by
  induction slices with
  | nil => rfl
  | cons slice rest ih =>
      obtain ⟨hslice, hrest⟩ := inside_cons.mp hinside
      rw [readParts, Bits.extract?_eq_some hslice, ih hrest]
      rfl

theorem readParts_of_not_inside (hinside : ¬Inside source.width slices) :
    ∃ slice ∈ slices, readParts source slices = .error (slice.outside source.width) := by
  induction slices with
  | nil => exact absurd (fun _ hmem => nomatch hmem) hinside
  | cons slice rest ih =>
      rw [readParts]
      by_cases hslice : slice.start + slice.length ≤ source.width
      · have hrest : ¬Inside source.width rest := fun hrest =>
          hinside (inside_cons.mpr ⟨hslice, hrest⟩)
        obtain ⟨refused, hmem, herror⟩ := ih hrest
        refine ⟨refused, List.mem_cons_of_mem _ hmem, ?_⟩
        rw [Bits.extract?_eq_some hslice, herror]
        rfl
      · rw [Bits.extract?_eq_none_iff.mpr (Nat.lt_of_not_le hslice)]
        exact ⟨slice, List.mem_cons_self, rfl⟩

theorem parts_of_inside (hrange : InRange (Size.bound - 1) pairs)
    (hinside : Inside source.width (slicesOf pairs)) :
    parts (valuesOf pairs) (.bits source) = .ok ((slicesOf pairs).map (cut source)) := by
  rw [parts, positions_of_inRange hrange]
  exact readParts_of_inside hinside

/-- A read is refused only for a slice that is out of range. -/
theorem parts_of_not_inside
    (hrefused : ¬(InRange (Size.bound - 1) pairs ∧ Inside source.width (slicesOf pairs))) :
    ∃ start length width,
      parts (valuesOf pairs) (.bits source) = .error (.badSlice start length width) := by
  by_cases hrange : InRange (Size.bound - 1) pairs
  · have hinside : ¬Inside source.width (slicesOf pairs) := fun hinside =>
      hrefused ⟨hrange, hinside⟩
    obtain ⟨slice, _, herror⟩ := readParts_of_not_inside hinside
    refine ⟨slice.start, slice.length, source.width, ?_⟩
    rw [parts, positions_of_inRange hrange]
    exact herror
  · obtain ⟨pair, _, herror⟩ := positions_of_not_inRange hrange
    refine ⟨pair.1, pair.2, 0, ?_⟩
    rw [parts, herror]
    rfl

theorem totalWidth_map {part : Position → Bits}
    (hwidth : ∀ slice, (part slice).width = slice.length) (slices : List Position) :
    Bits.totalWidth (slices.map part) = lengths slices := by
  induction slices with
  | nil => rfl
  | cons slice rest ih => rw [List.map_cons, Bits.totalWidth_cons, hwidth, ih, lengths_cons]

end Slice

end ArchSpec
