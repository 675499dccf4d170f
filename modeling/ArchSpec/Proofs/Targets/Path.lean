import ArchSpec.Proofs.Slicing
import ArchSpec.Proofs.Storage.Rebinding

/-!
# Paths into values

A part of a value is one of its fields, one of its items, or the bits of some
slices, and parts nest.  To put a value there rebuilds all wholes around it.
What was put can be got again, and at each level everything beside the part is as
before.
-/

namespace ArchSpec

/-- A part of a value; the positions of slices are values. -/
inductive Part where
  | field (name : String)
  | item (index : Nat)
  | slice (places : List (Value × Value))

namespace Part

/-- The part of a whole, if the whole has it and slices fit a vector. -/
def get? : Part → Value → Option Value
  | field name, whole => (whole.getField name).toOption
  | item index, whole => (whole.getItem index).toOption
  | slice places, whole => (Slice.read places whole).toOption.join

/-- The whole with another value as its part. -/
def put : Part → Value → Value → Except Fault Value
  | field name, value, whole => whole.setField name value
  | item index, value, whole => whole.setItem index value
  | slice places, value, whole => Slice.write places value whole

/-- The value as the part holds it: slices hold a bit vector of their total
length, and fields and items any value. -/
def fit : Part → Value → Except Fault Value
  | field _, value => .ok value
  | item _, value => .ok value
  | slice places, value => do
      let slices ← Slice.positions places
      let total ← Slice.totalLength 0 slices
      let bits ← value.toBitsExact total
      return .bits (Bits.ofNat total bits.value)

/-- No two slices of the part share a bit. -/
def Apart : Part → Prop
  | field _ => True
  | item _ => True
  | slice places => ∀ slices, Slice.positions places = .ok slices →
      slices.Pairwise Slice.Position.Apart

instance (part : Part) : Decidable part.Apart :=
  match part with
  | field _ => isTrue trivial
  | item _ => isTrue trivial
  | slice places =>
      match hslices : Slice.positions places with
      | .error _ => isTrue fun _ hok => nomatch hslices.symm.trans hok
      | .ok slices => decidable_of_iff (slices.Pairwise Slice.Position.Apart) (by
          simp only [Apart, hslices, Except.ok.injEq, forall_eq'])

/-- Beside the part both values are the same: all other fields or items, or the
bits that no slice covers.  An integer is first widened to the highest position
of the slices. -/
def Kept : Part → Value → Value → Prop
  | field name, before, after => ∃ old new fields updated,
      Named.Rebound name old new fields updated ∧
        (before = .record fields ∧ after = .record updated ∨
          ∃ exc, before = .exception exc fields ∧ after = .exception exc updated)
  | item index, before, after => ∃ items new, index < items.length ∧
      before = .tuple items ∧ after = .tuple (items.set index new)
  | slice places, before, after => ∃ slices old new, Slice.positions places = .ok slices ∧
      before.toBits (Slice.reach slices) = .ok old ∧ after = .bits new ∧ new.width = old.width ∧
      ∀ index, index < old.width → (∀ slice ∈ slices, ¬slice.Covers index) →
        new.bit index = old.bit index

variable {part : Part} {value whole updated : Value} {name : String} {index : Nat}

/-- Fields are those of a record or an exception. -/
theorem setField_eq_ok (hput : whole.setField name value = .ok updated) :
    ∃ fields changed, Named.replace? fields name value = some changed ∧
      (whole = .record fields ∧ updated = .record changed ∨
        ∃ exc, whole = .exception exc fields ∧ updated = .exception exc changed) := by
  unfold Value.setField at hput
  split at hput
  · split at hput
    · rename_i hreplace
      cases hput
      exact ⟨_, _, hreplace, .inl ⟨rfl, rfl⟩⟩
    · nomatch hput
  · split at hput
    · rename_i hreplace
      cases hput
      exact ⟨_, _, hreplace, .inr ⟨_, rfl, rfl⟩⟩
    · nomatch hput
  · nomatch hput

/-- Items are those of a tuple. -/
theorem setItem_eq_ok (hput : whole.setItem index value = .ok updated) :
    ∃ items, index < items.length ∧ whole = .tuple items ∧
      updated = .tuple (items.set index value) := by
  unfold Value.setItem at hput
  split at hput
  · split at hput
    · rename_i items hindex
      cases hput
      exact ⟨items, hindex, rfl, rfl⟩
    · nomatch hput
  · nomatch hput

/-! ## One level -/

/-- A part gives back what was put there, as it holds it. -/
theorem get?_of_put (hput : part.put value whole = .ok updated) (hapart : part.Apart) :
    ∃ held, part.fit value = .ok held ∧ part.get? updated = some held := by
  cases part with
  | field name =>
      obtain ⟨fields, changed, hreplace, hwhole⟩ := setField_eq_ok hput
      have hget : Named.get? changed name = some value := by
        rw [Named.get?_of_replace? hreplace, if_pos rfl]
      refine ⟨value, rfl, ?_⟩
      rcases hwhole with ⟨_, rfl⟩ | ⟨exc, _, rfl⟩ <;> simp only [get?, Value.getField, hget] <;> rfl
  | item index =>
      obtain ⟨items, hindex, _, rfl⟩ := setItem_eq_ok hput
      refine ⟨value, rfl, ?_⟩
      simp only [get?, Value.getItem, List.getElem?_set_self hindex]
      rfl
  | slice places =>
      obtain ⟨slices, total, bits, old, new, hslices, htotal, hbits, _, hwrite, rfl⟩ :=
        Slice.write_eq_ok hput
      obtain ⟨hsum, hbound⟩ := Slice.eq_of_totalLength htotal
      rw [Nat.zero_add] at hsum
      subst hsum
      have hparts := Slice.readParts_of_writeParts hwrite (hapart slices hslices)
      have hwidth : Slice.lengths slices < Size.bound := hbound (Nat.two_pow_pos 64)
      refine ⟨.bits (Bits.ofNat (Slice.lengths slices) bits.value), ?_, ?_⟩
      · exact bind_eq_ok_iff.mpr ⟨slices, hslices, bind_eq_ok_iff.mpr ⟨_, htotal,
          bind_eq_ok_iff.mpr ⟨bits, hbits, rfl⟩⟩⟩
      · rw [get?, Slice.read_bits hslices, hparts, Except.map, Slice.join_spread bits hwidth]
        rfl

theorem kept_of_put (hput : part.put value whole = .ok updated) : part.Kept whole updated := by
  cases part with
  | field name =>
      obtain ⟨fields, changed, hreplace, hwhole⟩ := setField_eq_ok hput
      obtain ⟨old, _, hrebound⟩ := Named.rebound_of_replace? hreplace
      exact ⟨old, value, fields, changed, hrebound, hwhole⟩
  | item index =>
      obtain ⟨items, hindex, hwhole, hupdated⟩ := setItem_eq_ok hput
      exact ⟨items, value, hindex, hwhole, hupdated⟩
  | slice places =>
      obtain ⟨slices, total, bits, old, new, hslices, _, _, hold, hwrite, rfl⟩ :=
        Slice.write_eq_ok hput
      exact ⟨slices, old, new, hslices, hold, rfl, Slice.width_of_writeParts hwrite,
        fun index _ houtside => Slice.bit_of_writeParts hwrite houtside⟩

/-- A vector that lost its bits beyond the width is the same for slices. -/
theorem get?_slice_lowest (places : List (Value × Value)) (bits : Bits) :
    (slice places).get? (.bits (Bits.ofNat bits.width bits.value)) =
      (slice places).get? (.bits bits) := by
  rw [get?, get?]
  cases hslices : Slice.positions places with
  | error cause =>
      rw [Slice.read_eq_map, Slice.read_eq_map, Slice.parts, Slice.parts, hslices]
      rfl
  | ok slices =>
      rw [Slice.read_bits hslices, Slice.read_bits hslices, Slice.readParts_lowest]

theorem kept_slice_lowest {places : List (Value × Value)} {bits : Bits}
    (hkept : (slice places).Kept whole (.bits bits)) :
    (slice places).Kept whole (.bits (Bits.ofNat bits.width bits.value)) := by
  obtain ⟨slices, old, new, hslices, hold, hnew, hwidth, hbits⟩ := hkept
  cases hnew
  refine ⟨slices, old, _, hslices, hold, rfl, hwidth, ?_⟩
  intro index hindex houtside
  rw [Bits.bit_ofNat, decide_eq_true (by rw [hwidth]; exact hindex), Bool.true_and]
  exact hbits index hindex houtside

end Part

/-! ## All levels -/

/-- Parts of parts, the outermost access first: the last part is one of the root. -/
abbrev Path := List Part

namespace Path

def get? : Path → Value → Option Value
  | [], root => some root
  | part :: path, root => do
      let whole ← get? path root
      part.get? whole

/-- The root with another value at the end of the path. -/
def put? : Path → Value → Value → Option Value
  | [], value, _ => some value
  | part :: path, value, root => do
      let whole ← get? path root
      let updated ← (part.put value whole).toOption
      put? path updated root

/-- The value as the end of the path holds it. -/
def fit : Path → Value → Except Fault Value
  | [], value => .ok value
  | part :: _, value => part.fit value

/-- Beside the path both roots are the same, level by level. -/
def Kept : Path → Value → Value → Prop
  | [], _, _ => True
  | part :: path, before, after => Kept path before after ∧
      ∃ whole updated, get? path before = some whole ∧ get? path after = some updated ∧
        part.Kept whole updated

variable {part : Part} {path : Path} {value whole updated held root changed : Value}

theorem put?_cons_eq_some_iff : put? (part :: path) value root = some changed ↔
    ∃ whole, get? path root = some whole ∧ ∃ updated, part.put value whole = .ok updated ∧
      put? path updated root = some changed := by
  simp only [put?, Option.bind_eq_bind, Option.bind_eq_some_iff, toOption_eq_some_iff]

/-- What a whole holds after a part of it was put differs at most in bits beyond
the width of a vector. -/
theorem eq_or_lowest_of_put (hput : part.put value whole = .ok updated)
    (hfit : fit path updated = .ok held) :
    held = updated ∨ ∃ places bits, part = .slice places ∧ updated = .bits bits ∧
      held = .bits (Bits.ofNat bits.width bits.value) := by
  match path, hfit with
  | [], hfit | .field _ :: _, hfit | .item _ :: _, hfit =>
      cases hfit
      exact .inl rfl
  | .slice _ :: _, hfit =>
      rw [fit, Part.fit] at hfit
      obtain ⟨_, _, hfit⟩ := bind_eq_ok_iff.mp hfit
      obtain ⟨total, _, hfit⟩ := bind_eq_ok_iff.mp hfit
      obtain ⟨bits, hexact, hfit⟩ := bind_eq_ok_iff.mp hfit
      cases hfit
      obtain ⟨wide, hwide, hwidth⟩ := bind_eq_ok_iff.mp hexact
      cases part with
      | field name =>
          obtain ⟨_, _, _, hwhole⟩ := Part.setField_eq_ok hput
          rcases hwhole with ⟨_, rfl⟩ | ⟨_, _, rfl⟩ <;> nomatch hwide
      | item index =>
          obtain ⟨_, _, _, rfl⟩ := Part.setItem_eq_ok hput
          nomatch hwide
      | slice places =>
          obtain ⟨_, _, _, _, _, _, _, _, _, _, rfl⟩ := Slice.write_eq_ok hput
          cases hwide
          split at hwidth
          · rename_i hsame
            cases hwidth
            exact .inr ⟨places, _, rfl, rfl, by rw [hsame]⟩
          · nomatch hwidth

theorem get?_part_of_put (hput : part.put value whole = .ok updated)
    (hfit : fit path updated = .ok held) : part.get? held = part.get? updated := by
  rcases eq_or_lowest_of_put hput hfit with rfl | ⟨places, bits, rfl, rfl, rfl⟩
  · rfl
  · exact Part.get?_slice_lowest places bits

theorem kept_part_of_put (hput : part.put value whole = .ok updated)
    (hfit : fit path updated = .ok held) : part.Kept whole held := by
  have hkept := Part.kept_of_put hput
  rcases eq_or_lowest_of_put hput hfit with rfl | ⟨places, bits, rfl, rfl, rfl⟩
  · exact hkept
  · exact Part.kept_slice_lowest hkept

/-- Level by level, a part gives back what was put there, since the wholes around
it were rebuilt with it. -/
theorem get?_of_put? (hput : put? path value root = some changed)
    (hapart : ∀ part ∈ path, part.Apart) :
    ∃ held, fit path value = .ok held ∧ get? path changed = some held := by
  induction path generalizing value with
  | nil =>
      cases hput
      exact ⟨changed, rfl, rfl⟩
  | cons part path ih =>
      obtain ⟨hpart, hpath⟩ := List.forall_mem_cons.mp hapart
      obtain ⟨whole, _, updated, hupdated, hput⟩ := put?_cons_eq_some_iff.mp hput
      obtain ⟨outer, houter, hgetOuter⟩ := ih hput hpath
      obtain ⟨held, hheld, hget⟩ := Part.get?_of_put hupdated hpart
      refine ⟨held, hheld, Option.bind_eq_some_iff.mpr ⟨outer, hgetOuter, ?_⟩⟩
      rw [get?_part_of_put hupdated houter, hget]

theorem kept_of_put? (hput : put? path value root = some changed)
    (hapart : ∀ part ∈ path, part.Apart) : Kept path root changed := by
  induction path generalizing value with
  | nil => trivial
  | cons part path ih =>
      obtain ⟨_, hpath⟩ := List.forall_mem_cons.mp hapart
      obtain ⟨whole, hwhole, updated, hupdated, hput⟩ := put?_cons_eq_some_iff.mp hput
      obtain ⟨outer, houter, hgetOuter⟩ := get?_of_put? hput hpath
      exact ⟨ih hput hpath, whole, outer, hwhole, hgetOuter, kept_part_of_put hupdated houter⟩

end Path

end ArchSpec
