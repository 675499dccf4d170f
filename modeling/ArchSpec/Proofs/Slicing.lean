import Mathlib.Algebra.Ring.Nat
import ArchSpec.Data.Slicing
import ArchSpec.Proofs.Bits.Refinement
import ArchSpec.Proofs.Effects

/-!
# Reading back what was written

To write spreads a vector over the listed slices, one part after the other.  The
width stays and no bit outside the slices changes.  If no two slices share a
bit, then every part is still there at the end, and reading the same slices puts
the parts together again.
-/

namespace ArchSpec

namespace Bits

variable {bits : Bits}

/-- Two neighbouring parts of a number, side by side. -/
theorem append_ofNat (width length value below : Nat) :
    append (ofNat width (value >>> (below + length))) (ofNat length (value >>> below)) =
      ofNat (width + length) (value >>> below) := by
  apply ext_bit
  · rfl
  · intro index
    rw [bit_append _ (valid_ofNat length _)]
    simp only [width_ofNat, bit_ofNat, Nat.testBit_shiftRight]
    by_cases hindex : index < length
    · have hinside : index < width + length := by omega
      simp [hindex, hinside]
    · have hplace : below + length + (index - length) = below + index := by omega
      have hinside : index - length < width ↔ index < width + length := by omega
      simp [hindex, hplace, hinside]

/-- No slice looks at a bit beyond the width. -/
theorem extract?_lowest (bits : Bits) (start length : Nat) :
    (ofNat bits.width bits.value).extract? start length = bits.extract? start length := by
  by_cases hfits : start + length ≤ bits.width
  · have hlowest : start + length ≤ (ofNat bits.width bits.value).width := hfits
    rw [extract?_eq_some hfits, extract?_eq_some hlowest]
    apply congrArg some
    apply ext_bit (by rfl)
    intro index
    have hplace := bit_ofNat bits.width bits.value (start + index)
    rw [bit] at hplace
    rw [bit_ofNat, bit_ofNat, Nat.testBit_shiftRight, Nat.testBit_shiftRight, hplace]
    by_cases hindex : index < length
    · have hinside : start + index < bits.width := by omega
      simp [hinside]
    · simp [hindex]
  · have hbeyond : bits.width < start + length := by omega
    rw [extract?_eq_none_iff.mpr hbeyond]
    exact extract?_eq_none_iff.mpr hbeyond

end Bits

namespace Slice

/-- A bit lies inside a slice. -/
def Position.Covers (slice : Position) (index : Nat) : Prop :=
  slice.start ≤ index ∧ index < slice.start + slice.length

/-- No bit lies inside both slices. -/
def Position.Apart (left right : Position) : Prop :=
  ∀ index, ¬(left.Covers index ∧ right.Covers index)

theorem Position.apart_iff {left right : Position} : left.Apart right ↔
    left.start + left.length ≤ right.start ∨ right.start + right.length ≤ left.start ∨
      left.length = 0 ∨ right.length = 0 := by
  constructor
  · intro hapart
    -- If both have bits, then the higher start is a bit of one of them only.
    have hshared := hapart (max left.start right.start)
    simp only [Covers] at hshared
    omega
  · intro hplaces index hshared
    simp only [Covers] at hshared
    omega

instance : DecidableRel Position.Apart := fun _ _ => decidable_of_iff' _ Position.apart_iff

/-- The number of bits in all slices together. -/
def lengths (slices : List Position) : Nat := (slices.map Position.length).sum

variable {slice : Position} {rest slices : List Position} {bits dest out : Bits}
variable {total sum remaining : Nat}

@[simp]
theorem lengths_nil : lengths [] = 0 := rfl

@[simp]
theorem lengths_cons (slice : Position) (rest : List Position) :
    lengths (slice :: rest) = slice.length + lengths rest :=
  List.sum_cons

theorem eq_of_totalLength (htotal : totalLength sum slices = .ok total) :
    total = sum + lengths slices ∧ (sum < Size.bound → total < Size.bound) := by
  induction slices generalizing sum with
  | nil =>
      simp only [totalLength, Except.ok.injEq] at htotal
      subst htotal
      exact ⟨by simp, id⟩
  | cons slice rest ih =>
      rw [totalLength] at htotal
      split at htotal
      · rename_i hfits
        obtain ⟨hsum, hbound⟩ := ih htotal
        rw [lengths_cons]
        exact ⟨by omega, fun _ => hbound hfits⟩
      · nomatch htotal

/-! ## Writing -/

theorem writeParts_cons_eq_ok (hwrite : writeParts bits remaining dest (slice :: rest) = .ok out) :
    ∃ part between, bits.extract? (remaining - slice.length) slice.length = some part ∧
      dest.overwrite? slice.start part = some between ∧
      writeParts bits (remaining - slice.length) between rest = .ok out := by
  simp only [writeParts] at hwrite
  cases hextract : bits.extract? (remaining - slice.length) slice.length with
  | none =>
      rw [hextract] at hwrite
      nomatch hwrite
  | some part =>
      cases hoverwrite : dest.overwrite? slice.start part with
      | none =>
          simp only [hextract, hoverwrite] at hwrite
          nomatch hwrite
      | some between =>
          simp only [hextract, hoverwrite] at hwrite
          exact ⟨part, between, rfl, hoverwrite, hwrite⟩

theorem width_of_writeParts (hwrite : writeParts bits remaining dest slices = .ok out) :
    out.width = dest.width := by
  induction slices generalizing remaining dest with
  | nil =>
      simp only [writeParts, Except.ok.injEq] at hwrite
      rw [hwrite]
  | cons slice rest ih =>
      obtain ⟨part, between, _, hoverwrite, hrest⟩ := writeParts_cons_eq_ok hwrite
      exact (ih hrest).trans (Bits.width_of_overwrite? hoverwrite)

/-- A bit outside all slices keeps its value. -/
theorem bit_of_writeParts (hwrite : writeParts bits remaining dest slices = .ok out) {index : Nat}
    (houtside : ∀ slice ∈ slices, ¬slice.Covers index) : out.bit index = dest.bit index := by
  induction slices generalizing remaining dest with
  | nil =>
      simp only [writeParts, Except.ok.injEq] at hwrite
      rw [hwrite]
  | cons slice rest ih =>
      obtain ⟨hslice, hrestOutside⟩ := List.forall_mem_cons.mp houtside
      obtain ⟨part, between, hextract, hoverwrite, hrest⟩ := writeParts_cons_eq_ok hwrite
      rw [ih hrest hrestOutside,
        Bits.bit_of_overwrite? (Bits.valid_of_extract? hextract) hoverwrite,
        Bits.width_of_extract? hextract]
      exact if_neg hslice

/-! ## Reading back -/

/-- The parts of a vector that go to the listed slices, the first one from its
most significant end; the lowest `remaining` bits are still to be placed. -/
def spread (bits : Bits) : Nat → List Position → List Bits
  | _, [] => []
  | remaining, slice :: rest =>
      Bits.ofNat slice.length (bits.value >>> (remaining - slice.length)) ::
        spread bits (remaining - slice.length) rest

/-- Each part is found where it was put, if no later part can overwrite it. -/
theorem readParts_of_writeParts (hwrite : writeParts bits remaining dest slices = .ok out)
    (hapart : slices.Pairwise Position.Apart) :
    readParts out slices = .ok (spread bits remaining slices) := by
  induction slices generalizing remaining dest with
  | nil => rfl
  | cons slice rest ih =>
      obtain ⟨hslice, hrestApart⟩ := List.pairwise_cons.mp hapart
      obtain ⟨part, between, hextract, hoverwrite, hrest⟩ := writeParts_cons_eq_ok hwrite
      have hwidth := Bits.width_of_extract? hextract
      have hfits : slice.start + slice.length ≤ out.width := by
        rw [width_of_writeParts hrest, Bits.width_of_overwrite? hoverwrite, ← hwidth]
        exact Bits.le_of_overwrite? hoverwrite
      have hpart : Bits.ofNat slice.length (out.value >>> slice.start) = part := by
        apply Bits.ext_bit hwidth.symm
        intro index
        by_cases hindex : index < slice.length
        · have hcovers : slice.Covers (slice.start + index) := ⟨by omega, by omega⟩
          have hkept := bit_of_writeParts hrest fun later hlater hcovered =>
            hslice later hlater _ ⟨hcovers, hcovered⟩
          have hplaced := Bits.bit_of_overwrite? (Bits.valid_of_extract? hextract) hoverwrite
            (slice.start + index)
          rw [if_pos (by rw [hwidth]; exact hcovers), Nat.add_sub_cancel_left] at hplaced
          rw [Bits.bit_ofNat, Nat.testBit_shiftRight, decide_eq_true hindex, Bool.true_and,
            ← hplaced, ← hkept]
          rfl
        · rw [Bits.bit_ofNat, decide_eq_false hindex, Bool.false_and]
          have hbeyond : part.width ≤ index := by omega
          exact ((Bits.valid_of_extract? hextract).bit_eq_false hbeyond).symm
      obtain ⟨_, hsource⟩ := Bits.extract?_eq_some_iff.mp hextract
      rw [readParts, Bits.extract?_eq_some hfits, hpart, spread, hsource]
      simp only [ih hrest hrestApart]
      rfl

theorem foldl_append_spread (bits : Bits) (width : Nat) (hremaining : lengths slices ≤ remaining) :
    (spread bits remaining slices).foldl Bits.append (Bits.ofNat width (bits.value >>> remaining)) =
      Bits.ofNat (width + lengths slices) (bits.value >>> (remaining - lengths slices)) := by
  induction slices generalizing remaining width with
  | nil => rfl
  | cons slice rest ih =>
      rw [lengths_cons] at hremaining ⊢
      have hsplit : remaining = remaining - slice.length + slice.length := by omega
      have hfirst : Bits.append (Bits.ofNat width (bits.value >>> remaining))
          (Bits.ofNat slice.length (bits.value >>> (remaining - slice.length))) =
            Bits.ofNat (width + slice.length) (bits.value >>> (remaining - slice.length)) := by
        conv => lhs; arg 1; rw [hsplit]
        exact Bits.append_ofNat width slice.length bits.value _
      rw [spread, List.foldl_cons, hfirst, ih _ (by omega), Nat.add_assoc, Nat.sub_sub]

/-- Side by side, the parts are the vector again. -/
theorem concat_spread (bits : Bits) (slices : List Position) :
    Bits.concat (spread bits (lengths slices) slices) = Bits.ofNat (lengths slices) bits.value := by
  have hempty : Bits.zeros 0 = Bits.ofNat 0 (bits.value >>> lengths slices) := by
    apply Bits.ext_bit (by rfl)
    intro index
    simp
  have hall := foldl_append_spread bits 0 (Nat.le_refl (lengths slices))
  rw [Bits.concat, hempty, hall, Nat.zero_add, Nat.sub_self]
  rfl

/-! ## On values -/

variable {places : List (Value × Value)} {source target updated : Value}

/-- What a write consists of. -/
theorem write_eq_ok (hwrite : write places source target = .ok updated) :
    ∃ slices total bits old new, positions places = .ok slices ∧
      totalLength 0 slices = .ok total ∧ source.toBitsExact total = .ok bits ∧
      target.toBits (reach slices) = .ok old ∧ writeParts bits total old slices = .ok new ∧
      updated = .bits new := by
  rw [write] at hwrite
  obtain ⟨slices, hslices, hwrite⟩ := bind_eq_ok_iff.mp hwrite
  obtain ⟨total, htotal, hwrite⟩ := bind_eq_ok_iff.mp hwrite
  obtain ⟨bits, hbits, hwrite⟩ := bind_eq_ok_iff.mp hwrite
  obtain ⟨old, hold, hwrite⟩ := bind_eq_ok_iff.mp hwrite
  obtain ⟨new, hnew, hupdated⟩ := bind_eq_ok_iff.mp hwrite
  cases hupdated
  exact ⟨slices, total, bits, old, new, hslices, htotal, hbits, hold, hnew, rfl⟩

/-- To read is to take the parts and to put them side by side. -/
theorem read_eq_map (places : List (Value × Value)) (source : Value) :
    read places source = (parts places source).map join := rfl

theorem concat_eq_map (values : List Value) : concat values = (widenAll values).map join := rfl

theorem join_eq_some {vectors : List Bits} (hwidth : Bits.totalWidth vectors < Size.bound) :
    join vectors = some (.bits (Bits.concat vectors)) := by
  rw [join, Bits.concat?_eq_some hwidth]
  rfl

theorem join_eq_none_iff {vectors : List Bits} :
    join vectors = none ↔ Size.bound ≤ Bits.totalWidth vectors := by
  rw [join, Option.map_eq_none_iff, Bits.concat?_eq_none_iff]

/-- What vectors are joined to is a vector, as wide as they are together. -/
theorem eq_concat_of_join {vectors : List Bits} (hjoin : join vectors = some target) :
    target = .bits (Bits.concat vectors) := by
  obtain ⟨joined, hconcat, rfl⟩ := Option.map_eq_some_iff.mp hjoin
  rw [Bits.eq_of_concat? hconcat]

/-- So is what was spread, if it has a size. -/
theorem join_spread (bits : Bits) {slices : List Position} (hsize : lengths slices < Size.bound) :
    join (spread bits (lengths slices) slices) =
      some (.bits (Bits.ofNat (lengths slices) bits.value)) := by
  have hjoined := concat_spread bits slices
  have htotal : Bits.totalWidth (spread bits (lengths slices) slices) = lengths slices := by
    rw [← Bits.width_concat, hjoined, Bits.width_ofNat]
  rw [join_eq_some (by rw [htotal]; exact hsize), hjoined]

/-- What is read is a vector. -/
theorem eq_bits_of_read (hread : read places source = .ok (some target)) :
    ∃ bits, target = .bits bits := by
  rw [read_eq_map] at hread
  cases hparts : parts places source with
  | error cause =>
      rw [hparts] at hread
      nomatch hread
  | ok vectors =>
      rw [hparts] at hread
      exact ⟨_, eq_concat_of_join (Except.ok.inj hread)⟩

theorem read_bits {slices : List Position} (hslices : positions places = .ok slices) (bits : Bits) :
    read places (.bits bits) = (readParts bits slices).map join := by
  rw [read_eq_map, parts, hslices]
  rfl

/-- Nothing beyond the width of a vector is ever read. -/
theorem readParts_lowest (bits : Bits) (slices : List Position) :
    readParts (Bits.ofNat bits.width bits.value) slices = readParts bits slices := by
  induction slices with
  | nil => rfl
  | cons slice rest ih =>
      rw [readParts, readParts, Bits.extract?_lowest, ih]
      rfl

end Slice

end ArchSpec
