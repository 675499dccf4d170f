import ArchSpec.Proofs.Slicing.Widths

/-!
# Writing slices and reading them

A write lays the bits of a vector over the listed slices of another one.  The
first slice takes the most significant bits, and where slices overlap the last
one counts.  To write back what was read therefore changes nothing, in whatever
order the slices come and however they overlap, as long as they have a size
together: a read of others overflows, and a write refuses them.
-/

namespace ArchSpec

namespace Bits

variable {parts before after : List Bits} {part : Bits} {index : Nat}

theorem bit_foldl_append (hparts : ∀ part ∈ parts, part.Valid) (start : Bits) (index : Nat) :
    (parts.foldl append start).bit (totalWidth parts + index) = start.bit index := by
  induction parts generalizing start index with
  | nil => exact congrArg start.bit (Nat.zero_add index)
  | cons part rest ih =>
      obtain ⟨hpart, hrest⟩ := List.forall_mem_cons.mp hparts
      have hplace : part.width + totalWidth rest + index =
          totalWidth rest + (part.width + index) := by omega
      have habove : ¬part.width + index < part.width := by omega
      rw [List.foldl_cons, totalWidth_cons, hplace, ih hrest, bit_append start hpart,
        if_neg habove, Nat.add_sub_cancel_left]

/-- A part is found above those that come after it. -/
theorem bit_concat (hpart : part.Valid) (hafter : ∀ later ∈ after, later.Valid)
    (hindex : index < part.width) :
    (concat (before ++ part :: after)).bit (totalWidth after + index) = part.bit index := by
  rw [concat, List.foldl_append, List.foldl_cons, bit_foldl_append hafter, bit_append _ hpart,
    if_pos hindex]

theorem ofNat_value {bits : Bits} (hvalid : bits.Valid) : ofNat bits.width bits.value = bits := by
  rw [ofNat, lowest_eq_mod, Nat.mod_eq_of_lt hvalid]

end Bits

namespace Slice

variable {pairs : List (Int × Int)} {slices before after : List Position} {slice : Position}
variable {source dest new : Bits} {result : Value} {remaining limit : Nat}

theorem lengths_append (before after : List Position) :
    lengths (before ++ after) = lengths before + lengths after := by
  rw [lengths, List.map_append, List.sum_append]
  rfl

/-! ## What a write gives -/

/-- A write goes through as long as the slices lie inside. -/
theorem exists_writeParts_iff (hremaining : lengths slices ≤ remaining)
    (hsource : remaining ≤ source.width) :
    (∃ new, writeParts source remaining dest slices = .ok new) ↔ Inside dest.width slices := by
  induction slices generalizing remaining dest with
  | nil => exact ⟨fun _ => nofun, fun _ => ⟨dest, rfl⟩⟩
  | cons slice rest ih =>
      rw [lengths_cons] at hremaining
      have hrest : lengths rest ≤ remaining - slice.length := by omega
      have hbelow : remaining - slice.length ≤ source.width := by omega
      rw [inside_cons]
      constructor
      · rintro ⟨new, hwrite⟩
        obtain ⟨part, between, hextract, hoverwrite, hwrite⟩ := writeParts_cons_eq_ok hwrite
        have hslice := Bits.le_of_overwrite? hoverwrite
        have hinside := (ih hrest hbelow).mp ⟨new, hwrite⟩
        rw [Bits.width_of_extract? hextract] at hslice
        rw [Bits.width_of_overwrite? hoverwrite] at hinside
        exact ⟨hslice, hinside⟩
      · rintro ⟨hslice, hinside⟩
        have hextract := Bits.extract?_eq_some
          (by omega : remaining - slice.length + slice.length ≤ source.width)
        cases hoverwrite : dest.overwrite? slice.start
            (Bits.ofNat slice.length (source.value >>> (remaining - slice.length))) with
        | none => exact absurd (Bits.overwrite?_eq_none_iff.mp hoverwrite) (Nat.not_lt.mpr hslice)
        | some between =>
            rw [← Bits.width_of_overwrite? hoverwrite] at hinside
            obtain ⟨new, hwrite⟩ := (ih hrest hbelow).mpr hinside
            refine ⟨new, ?_⟩
            simp only [writeParts, hextract, hoverwrite]
            exact hwrite

theorem writeParts_append_eq_ok
    (hwrite : writeParts source remaining dest (before ++ after) = .ok new) :
    ∃ between, writeParts source remaining dest before = .ok between ∧
      writeParts source (remaining - lengths before) between after = .ok new := by
  induction before generalizing remaining dest with
  | nil => exact ⟨dest, rfl, hwrite⟩
  | cons slice rest ih =>
      obtain ⟨part, first, hextract, hoverwrite, hrest⟩ := writeParts_cons_eq_ok hwrite
      obtain ⟨between, hbefore, hafter⟩ := ih hrest
      refine ⟨between, ?_, ?_⟩
      · simp only [writeParts, hextract, hoverwrite]
        exact hbefore
      · rw [lengths_cons, ← Nat.sub_sub]
        exact hafter

/-- The bits of `source` lie over those of `dest`, first slice highest.  A place
has the bit that the last slice over it takes. -/
structure Overlaid (source dest : Bits) (slices : List Position) (new : Bits) : Prop where
  width_eq : new.width = dest.width
  covered : ∀ before slice after, slices = before ++ slice :: after →
    ∀ index, slice.Covers index → (∀ later ∈ after, ¬later.Covers index) →
      new.bit index = source.bit (lengths after + (index - slice.start))
  uncovered : ∀ index, (∀ slice ∈ slices, ¬slice.Covers index) → new.bit index = dest.bit index

theorem overlaid_of_writeParts (hwrite : writeParts source (lengths slices) dest slices = .ok new) :
    Overlaid source dest slices new := by
  refine ⟨width_of_writeParts hwrite, ?_, fun index => bit_of_writeParts hwrite⟩
  intro before slice after hslices index hcovers hlater
  subst hslices
  obtain ⟨between, _, hfrom⟩ := writeParts_append_eq_ok hwrite
  obtain ⟨part, placed, hextract, hoverwrite, hrest⟩ := writeParts_cons_eq_ok hfrom
  have hremaining : lengths (before ++ slice :: after) - lengths before - slice.length =
      lengths after := by
    rw [lengths_append, lengths_cons]
    omega
  obtain ⟨hstart, hend⟩ := hcovers
  have hinside : index - slice.start < slice.length := by omega
  rw [hremaining] at hextract
  calc new.bit index
      = placed.bit index := bit_of_writeParts hrest hlater
    _ = part.bit (index - slice.start) := by
      rw [Bits.bit_of_overwrite? (Bits.valid_of_extract? hextract) hoverwrite,
        Bits.width_of_extract? hextract, if_pos ⟨hstart, hend⟩]
    _ = source.bit (lengths after + (index - slice.start)) := by
      rw [Bits.bit_of_extract? hextract, decide_eq_true hinside, Bool.true_and]

/-- If any slice lies over a place, then one of them is the last to do so. -/
theorem exists_last_covering {index : Nat} (hsome : ∃ slice ∈ slices, slice.Covers index) :
    ∃ before slice after, slices = before ++ slice :: after ∧ slice.Covers index ∧
      ∀ later ∈ after, ¬later.Covers index := by
  induction slices with
  | nil => nomatch hsome
  | cons slice rest ih =>
      by_cases hrest : ∃ later ∈ rest, later.Covers index
      · obtain ⟨before, last, after, rfl, hcovers, hlater⟩ := ih hrest
        exact ⟨slice :: before, last, after, rfl, hcovers, hlater⟩
      · obtain ⟨found, hmem, hcovers⟩ := hsome
        rcases List.mem_cons.mp hmem with rfl | hlater
        · exact ⟨[], found, rest, rfl, hcovers, fun later hmem hcovers =>
            hrest ⟨later, hmem, hcovers⟩⟩
        · exact absurd ⟨found, hlater, hcovers⟩ hrest

/-- Every place is one or the other, so only one vector has these bits. -/
theorem Overlaid.unique {left right : Bits} (hleft : Overlaid source dest slices left)
    (hright : Overlaid source dest slices right) : left = right := by
  apply Bits.ext_bit (hleft.width_eq.trans hright.width_eq.symm)
  intro index
  by_cases hsome : ∃ slice ∈ slices, slice.Covers index
  · obtain ⟨before, slice, after, hslices, hcovers, hlater⟩ := exists_last_covering hsome
    rw [hleft.covered before slice after hslices index hcovers hlater,
      hright.covered before slice after hslices index hcovers hlater]
  · have hnone : ∀ slice ∈ slices, ¬slice.Covers index := fun slice hmem hcovers =>
      hsome ⟨slice, hmem, hcovers⟩
    rw [hleft.uncovered index hnone, hright.uncovered index hnone]

/-- A vector with its own parts over it is the same vector. -/
theorem overlaid_cuts (dest : Bits) (slices : List Position) :
    Overlaid (Bits.concat (slices.map (cut dest))) dest slices dest := by
  refine ⟨rfl, ?_, fun _ _ => rfl⟩
  intro before slice after hslices index hcovers _
  subst hslices
  obtain ⟨hstart, hend⟩ := hcovers
  have hinside : index - slice.start < slice.length := by omega
  have hplace : slice.start + (index - slice.start) = index := by omega
  have hafter : ∀ later ∈ after.map (cut dest), later.Valid := by
    intro later hmem
    obtain ⟨slice, _, rfl⟩ := List.mem_map.mp hmem
    exact valid_cut dest slice
  calc dest.bit index
      = (cut dest slice).bit (index - slice.start) := by
        rw [bit_cut, decide_eq_true hinside, Bool.true_and, hplace]
    _ = (Bits.concat ((before ++ slice :: after).map (cut dest))).bit
        (lengths after + (index - slice.start)) := by
      rw [List.map_append, List.map_cons, ← totalWidth_map (width_cut dest) after,
        Bits.bit_concat (valid_cut dest slice) hafter hinside]

/-! ## On values -/

theorem write_bits_eq_ok_iff : write (valuesOf pairs) (.bits source) (.bits dest) = .ok result ↔
    InRange (Size.bound - 1) pairs ∧ lengths (slicesOf pairs) < Size.bound ∧
      source.width = lengths (slicesOf pairs) ∧
      ∃ new, writeParts source (lengths (slicesOf pairs)) dest (slicesOf pairs) = .ok new ∧
        result = .bits new := by
  constructor
  · intro hwrite
    obtain ⟨slices, total, bits, old, new, hslices, htotal, hbits, hold, hnew, hresult⟩ :=
      write_eq_ok hwrite
    obtain ⟨hrange, rfl⟩ := positions_eq_ok_iff.mp hslices
    obtain ⟨hsum, hsize⟩ := eq_of_totalLength htotal
    have hbound := hsize (Nat.two_pow_pos 64)
    rw [Nat.zero_add] at hsum
    subst hsum
    rw [Value.toBitsExact_bits] at hbits
    split at hbits
    · rename_i hwidth
      cases hbits
      cases hold
      exact ⟨hrange, hbound, hwidth, new, hnew, hresult⟩
    · nomatch hbits
  · rintro ⟨hrange, hbound, hwidth, new, hnew, rfl⟩
    have htotal : totalLength 0 (slicesOf pairs) = .ok (lengths (slicesOf pairs)) := by
      rw [totalLength_of_lt (by omega), Nat.zero_add]
    have hbits : (Value.bits source).toBitsExact (lengths (slicesOf pairs)) = .ok source := by
      rw [Value.toBitsExact_bits, if_pos hwidth]
    have hdest : (Value.bits dest).toBits (reach (slicesOf pairs)) = .ok dest := rfl
    simp only [write, positions_of_inRange hrange, htotal, hbits, hdest, hnew, bind, Except.bind]
    rfl

theorem exists_write_iff (hsize : source.width < Size.bound) :
    (∃ result, write (valuesOf pairs) (.bits source) (.bits dest) = .ok result) ↔
      (InRange (Size.bound - 1) pairs ∧ Inside dest.width (slicesOf pairs)) ∧
        source.width = lengths (slicesOf pairs) := by
  constructor
  · rintro ⟨result, hwrite⟩
    obtain ⟨hrange, _, hwidth, new, hnew, _⟩ := write_bits_eq_ok_iff.mp hwrite
    have hinside :=
      (exists_writeParts_iff (Nat.le_refl _) (Nat.le_of_eq hwidth.symm)).mp ⟨new, hnew⟩
    exact ⟨⟨hrange, hinside⟩, hwidth⟩
  · rintro ⟨⟨hrange, hinside⟩, hwidth⟩
    obtain ⟨new, hnew⟩ :=
      (exists_writeParts_iff (Nat.le_refl _) (Nat.le_of_eq hwidth.symm)).mpr hinside
    exact ⟨.bits new, write_bits_eq_ok_iff.mpr ⟨hrange, hwidth ▸ hsize, hwidth, new, hnew, rfl⟩⟩

theorem overlaid_of_write
    (hwrite : write (valuesOf pairs) (.bits source) (.bits dest) = .ok result) :
    ∃ new, result = .bits new ∧ Overlaid source dest (slicesOf pairs) new := by
  obtain ⟨_, _, _, new, hnew, hresult⟩ := write_bits_eq_ok_iff.mp hwrite
  exact ⟨new, hresult, overlaid_of_writeParts hnew⟩

/-- What was read is written back without a change. -/
theorem write_of_read (hrange : InRange (Size.bound - 1) pairs)
    (hinside : Inside dest.width (slicesOf pairs))
    (hsize : lengths (slicesOf pairs) < Size.bound) :
    ∃ part, read (valuesOf pairs) (.bits dest) = .ok (some part) ∧
      write (valuesOf pairs) part (.bits dest) = .ok (.bits dest) := by
  have hwidth : (Bits.concat ((slicesOf pairs).map (cut dest))).width =
      lengths (slicesOf pairs) := by
    rw [Bits.width_concat, totalWidth_map (width_cut dest)]
  have hread : read (valuesOf pairs) (.bits dest) =
      .ok (some (.bits (Bits.concat ((slicesOf pairs).map (cut dest))))) := by
    rw [read_eq_map, parts_of_inside hrange hinside, Except.map,
      join_eq_some (by rw [← Bits.width_concat, hwidth]; exact hsize)]
  obtain ⟨result, hwrite⟩ :=
    (exists_write_iff (hwidth ▸ hsize)).mpr ⟨⟨hrange, hinside⟩, hwidth⟩
  obtain ⟨new, rfl, hnew⟩ := overlaid_of_write hwrite
  have hsame : new = dest := hnew.unique (overlaid_cuts dest (slicesOf pairs))
  exact ⟨_, hread, hsame ▸ hwrite⟩

/-- What was written is read back, if no slice overwrites another one. -/
theorem read_of_write (hapart : (slicesOf pairs).Pairwise Position.Apart) (hvalid : source.Valid)
    (hwrite : write (valuesOf pairs) (.bits source) (.bits dest) = .ok result) :
    read (valuesOf pairs) result = .ok (some (.bits source)) := by
  obtain ⟨hrange, hsize, hwidth, new, hnew, rfl⟩ := write_bits_eq_ok_iff.mp hwrite
  rw [read_bits (positions_of_inRange hrange), readParts_of_writeParts hnew hapart, Except.map,
    join_spread source hsize, ← hwidth, Bits.ofNat_value hvalid]

/-- Writing slices of a target, which as a vector is `dest`, and reading them
keep to what slices are.  A write goes through exactly if no slice is out of
range and the vector has as many bits as they have together; it lays that vector
over the target; it restores what was read; and slices apart from each other
read back what was written. -/
structure Faithful (pairs : List (Int × Int)) (target : Value) (limit : Nat) (dest : Bits) :
    Prop where
  writes_iff : ∀ source : Bits, source.width < Size.bound →
    ((∃ result, write (valuesOf pairs) (.bits source) target = .ok result) ↔
      InRange limit pairs ∧ source.width = lengths (slicesOf pairs))
  overlays : ∀ source result, write (valuesOf pairs) (.bits source) target = .ok result →
    ∃ new, result = .bits new ∧ Overlaid source dest (slicesOf pairs) new
  restores : InRange limit pairs → ∃ part, read (valuesOf pairs) target = .ok (some part) ∧
    write (valuesOf pairs) part target = .ok (.bits dest)
  readsBack : (slicesOf pairs).Pairwise Position.Apart → ∀ source result, source.Valid →
    write (valuesOf pairs) (.bits source) target = .ok result →
      read (valuesOf pairs) result = .ok (some (.bits source))

/-- All of it holds of a target that is read and written as a vector, but for
slices without a size together, whose read overflows. -/
theorem faithful_iff_of_vector {target : Value}
    (hread : read (valuesOf pairs) target = read (valuesOf pairs) (.bits dest))
    (hwrite : ∀ source, write (valuesOf pairs) source target =
      write (valuesOf pairs) source (.bits dest))
    (hlimit : InRange limit pairs ↔
      InRange (Size.bound - 1) pairs ∧ Inside dest.width (slicesOf pairs)) :
    Faithful pairs target limit dest ↔
      (InRange limit pairs → lengths (slicesOf pairs) < Size.bound) := by
  constructor
  · intro hfaithful hrange
    obtain ⟨part, _, hrestored⟩ := hfaithful.restores hrange
    apply Nat.lt_of_not_le
    intro hlarge
    obtain ⟨_, _, _, hrefused⟩ := write_of_le part target hlarge
    rw [hrefused] at hrestored
    nomatch hrestored
  · intro hsize
    refine ⟨fun source hwidth => ?_, fun source result hresult => ?_, fun hrange => ?_,
      fun hapart source result hvalid hresult => ?_⟩
    · rw [hwrite, exists_write_iff hwidth, hlimit]
    · rw [hwrite] at hresult
      exact overlaid_of_write hresult
    · obtain ⟨hsizes, hinside⟩ := hlimit.mp hrange
      obtain ⟨part, hpart, hrestored⟩ := write_of_read hsizes hinside (hsize hrange)
      exact ⟨part, hread.trans hpart, (hwrite part).trans hrestored⟩
    · rw [hwrite] at hresult
      exact read_of_write hapart hvalid hresult

/-- Slices of a vector, and of an integer as the vector that it is widened to,
are written and read back as they should be if and only if their lengths are a
size together. -/
theorem faithful_iff (pairs : List (Int × Int)) :
    (∀ dest : Bits, dest.width < Size.bound → (Faithful pairs (.bits dest) dest.width dest ↔
      (InRange dest.width pairs → lengths (slicesOf pairs) < Size.bound))) ∧
    (∀ n : Int, Faithful pairs (.int n) (Size.bound - 1)
        (Bits.ofInt (max 1 (max (Bits.bitsNeeded n) (reach (slicesOf pairs)))) n) ↔
      (InRange (Size.bound - 1) pairs → lengths (slicesOf pairs) < Size.bound)) := by
  constructor
  · intro dest hwidth
    exact faithful_iff_of_vector rfl (fun _ => rfl) (inRange_iff_inside hwidth)
  · intro n
    have hwidened : Bits.ofInt (max 1 (max (Bits.bitsNeeded n) (reach (slicesOf pairs)))) n =
        widened n pairs := by
      rw [widened, Bits.inferredWidth, Nat.max_comm]
    rw [hwidened]
    exact faithful_iff_of_vector (read_int_eq_read_widened n pairs)
      (fun source => write_int_eq_write_widened source n pairs)
      (inRange_iff_inside_widened n pairs)

/-- Both slices are in range of an integer, and there is nothing that a read of them
gives and that could be written back. -/
theorem not_faithful :
    ¬Faithful [(0, pow2 64 - 1), (0, 1)] (.int 0) (Size.bound - 1) ⟨pow2 64 - 1, 0⟩ ∧
      InRange (Size.bound - 1) [(0, pow2 64 - 1), (0, 1)] ∧
      read (valuesOf [(0, pow2 64 - 1), (0, 1)]) (.int 0) = .ok none := by
  have hrange : InRange (Size.bound - 1) [(0, pow2 64 - 1), (0, 1)] := by decide
  have hread : read (valuesOf [(0, pow2 64 - 1), (0, 1)]) (.int 0) = .ok none := rfl
  refine ⟨fun hfaithful => ?_, hrange, hread⟩
  obtain ⟨part, hpart, _⟩ := hfaithful.restores hrange
  rw [hread] at hpart
  nomatch hpart

end Slice

end ArchSpec
