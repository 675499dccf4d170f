import Mathlib.Algebra.Ring.Nat
import ArchSpec.Proofs.Bits.Places

/-!
# Bit vectors as lists of bits

A vector of so many bits is the list of its bits, most significant first.  Side
by side is append, a slice is a sublist, overwriting replaces a sublist, and the
connectives act bit by bit.  The text of a vector spells out the list, and
reading it gives the vector back.
-/

namespace ArchSpec

namespace Bits

variable {bits left right high low source part out : Bits}
variable {width start length : Nat}

/-! ## The list of a vector -/

@[simp]
theorem length_toList (bits : Bits) : bits.toList.length = bits.width := by
  simp [toList]

theorem getElem_toList (bits : Bits) {position : Nat} (hposition : position < bits.toList.length) :
    bits.toList[position] = bits.bit (bits.width - 1 - position) := by
  simp [toList]

theorem bit_eq_of_toList_eq (hlists : left.toList = right.toList) {index : Nat}
    (hindex : index < left.width) : left.bit index = right.bit index := by
  have hwidth : left.width = right.width := by
    rw [← length_toList left, ← length_toList right, hlists]
  have hposition : left.width - 1 - index < left.toList.length := by
    rw [length_toList]
    omega
  have hplace : left.width - 1 - (left.width - 1 - index) = index := by omega
  have hsame := getElem_toList left hposition
  rw [hplace] at hsame
  simp only [hlists, getElem_toList, ← hwidth, hplace] at hsame
  exact hsame.symm

/-- Valid vectors are equal exactly if their lists are. -/
theorem toList_inj (hleft : left.Valid) (hright : right.Valid) :
    left.toList = right.toList ↔ left = right := by
  constructor
  · intro hlists
    have hwidth : left.width = right.width := by
      rw [← length_toList left, ← length_toList right, hlists]
    apply ext_bit hwidth
    intro index
    by_cases hindex : index < left.width
    · exact bit_eq_of_toList_eq hlists hindex
    · have hbeyond : left.width ≤ index := by omega
      rw [hleft.bit_eq_false hbeyond, hright.bit_eq_false (hwidth ▸ hbeyond)]
  · intro hsame
    rw [hsame]

/-! ## Side by side -/

theorem toList_append (high : Bits) (hlow : low.Valid) :
    (append high low).toList = high.toList ++ low.toList := by
  have hsum : (append high low).width = high.width + low.width := rfl
  apply List.ext_getElem
  · rw [List.length_append, length_toList, length_toList, length_toList, hsum]
  · intro position hleft hright
    have hinside : position < high.width + low.width := by simpa [hsum] using hleft
    rw [getElem_toList, hsum, bit_append high hlow]
    by_cases hposition : position < high.width
    · have hplace : ¬high.width + low.width - 1 - position < low.width := by omega
      have hindex : high.width + low.width - 1 - position - low.width =
          high.width - 1 - position := by omega
      rw [if_neg hplace, List.getElem_append_left (by simpa using hposition), getElem_toList,
        hindex]
    · have hplace : high.width + low.width - 1 - position < low.width := by omega
      have hindex : low.width - 1 - (position - high.toList.length) =
          high.width + low.width - 1 - position := by
        rw [length_toList]
        omega
      rw [if_pos hplace, List.getElem_append_right (by simpa using hposition), getElem_toList,
        hindex]

/-- The number of bits in all parts together. -/
def totalWidth (parts : List Bits) : Nat := (parts.map Bits.width).sum

@[simp]
theorem totalWidth_nil : totalWidth [] = 0 := rfl

@[simp]
theorem totalWidth_cons (part : Bits) (parts : List Bits) :
    totalWidth (part :: parts) = part.width + totalWidth parts :=
  List.sum_cons

/-- All parts side by side, whether a machine word counts their bits or not. -/
def concat (parts : List Bits) : Bits := parts.foldl append (zeros 0)

theorem width_foldl_append (start : Bits) (parts : List Bits) :
    (parts.foldl append start).width = start.width + totalWidth parts := by
  induction parts generalizing start with
  | nil => rfl
  | cons part rest ih => rw [List.foldl_cons, ih, totalWidth_cons, ← Nat.add_assoc, append]

theorem width_concat (parts : List Bits) : (concat parts).width = totalWidth parts :=
  (width_foldl_append (zeros 0) parts).trans (Nat.zero_add _)

/-- Widths overflow at some part exactly if they do so together. -/
theorem foldlM_append? {start : Bits} (hstart : start.width < Size.bound) (parts : List Bits) :
    parts.foldlM append? start =
      if start.width + totalWidth parts < Size.bound then some (parts.foldl append start)
      else none := by
  induction parts generalizing start with
  | nil => exact (if_pos hstart).symm
  | cons part rest ih =>
      rw [List.foldlM_cons, append?, totalWidth_cons, ← Nat.add_assoc]
      by_cases hfirst : start.width + part.width < Size.bound
      · rw [if_pos hfirst]
        exact ih hfirst
      · have hall : ¬start.width + part.width + totalWidth rest < Size.bound := by omega
        rw [if_neg hfirst, if_neg hall]
        rfl

theorem concat?_eq (parts : List Bits) :
    concat? parts = if totalWidth parts < Size.bound then some (concat parts) else none := by
  rw [concat?, foldlM_append? (Nat.two_pow_pos 64) parts, zeros, Nat.zero_add]
  rfl

theorem concat?_eq_some {parts : List Bits} (hwidth : totalWidth parts < Size.bound) :
    concat? parts = some (concat parts) := by
  rw [concat?_eq, if_pos hwidth]

theorem concat?_eq_none_iff {parts : List Bits} :
    concat? parts = none ↔ Size.bound ≤ totalWidth parts := by
  rw [concat?_eq]
  split <;> simp <;> omega

theorem eq_of_concat? {parts : List Bits} (hconcat : concat? parts = some out) :
    out = concat parts := by
  rw [concat?_eq, Option.ite_none_right_eq_some] at hconcat
  exact (Option.some.inj hconcat.2).symm

theorem foldl_append_spec {parts : List Bits} {start : Bits} (hstart : start.Valid)
    (hparts : ∀ part ∈ parts, part.Valid) :
    (parts.foldl append start).Valid ∧
      (parts.foldl append start).toList = start.toList ++ parts.flatMap toList := by
  induction parts generalizing start with
  | nil => exact ⟨hstart, by simp⟩
  | cons part rest ih =>
      obtain ⟨hpart, hrest⟩ := List.forall_mem_cons.mp hparts
      have hall := ih (valid_append hstart hpart) hrest
      rw [toList_append start hpart, List.append_assoc] at hall
      exact hall

theorem valid_of_concat? {parts : List Bits} (hparts : ∀ part ∈ parts, part.Valid)
    (hconcat : concat? parts = some out) : out.Valid := by
  rw [eq_of_concat? hconcat]
  exact (foldl_append_spec (valid_zeros 0) hparts).1

theorem toList_concat {parts : List Bits} (hparts : ∀ part ∈ parts, part.Valid) :
    (concat parts).toList = parts.flatMap toList :=
  (foldl_append_spec (valid_zeros 0) hparts).2

/-! ## Slices -/

/-- The slice ends `start` places above the end of the list. -/
theorem toList_of_extract? (hextract : bits.extract? start length = some part) :
    part.toList = (bits.toList.drop (bits.width - (start + length))).take length := by
  obtain ⟨hfits, _⟩ := extract?_eq_some_iff.mp hextract
  have hwidth := width_of_extract? hextract
  apply List.ext_getElem
  · simp only [length_toList, List.length_take, List.length_drop, hwidth]
    omega
  · intro position hleft hright
    have hinside : position < length := by simpa [hwidth] using hleft
    have hplace : length - 1 - position < length := by omega
    have hindex : bits.width - 1 - (bits.width - (start + length) + position) =
        start + (length - 1 - position) := by omega
    rw [getElem_toList, bit_of_extract? hextract, hwidth, decide_eq_true hplace, Bool.true_and,
      List.getElem_take, List.getElem_drop, getElem_toList, hindex]

/-- The slice is replaced, and what stands before and after it stays. -/
theorem toList_of_overwrite? (hsource : source.Valid)
    (hwrite : bits.overwrite? start source = some out) :
    out.toList = bits.toList.take (bits.width - (start + source.width)) ++ source.toList ++
      bits.toList.drop (bits.width - start) := by
  have hfits := le_of_overwrite? hwrite
  have hwidth := width_of_overwrite? hwrite
  apply List.ext_getElem
  · simp only [length_toList, List.length_append, List.length_take, List.length_drop, hwidth]
    omega
  · intro position hleft hright
    have hinside : position < bits.width := by simpa [hwidth] using hleft
    rw [getElem_toList, bit_of_overwrite? hsource hwrite, hwidth]
    by_cases hbefore : position < bits.width - (start + source.width)
    · have houtside : ¬(start ≤ bits.width - 1 - position ∧
          bits.width - 1 - position < start + source.width) := by omega
      have htake : position < (bits.toList.take (bits.width - (start + source.width))).length := by
        simp only [List.length_take, length_toList]
        omega
      rw [if_neg houtside,
        List.getElem_append_left (by rw [List.length_append]; exact Nat.lt_add_right _ htake),
        List.getElem_append_left htake, List.getElem_take, getElem_toList]
    · by_cases hafter : position < bits.width - start
      · have hcovered : start ≤ bits.width - 1 - position ∧
            bits.width - 1 - position < start + source.width := by omega
        have hindex : bits.width - 1 - position - start =
            source.width - 1 - (position - (bits.width - (start + source.width))) := by omega
        have htake : (bits.toList.take (bits.width - (start + source.width))).length =
            bits.width - (start + source.width) := by
          simp only [List.length_take, length_toList]
          omega
        rw [if_pos hcovered,
          List.getElem_append_left (by simp only [List.length_append, htake, length_toList]; omega),
          List.getElem_append_right (by rw [htake]; omega), getElem_toList]
        simp only [htake, hindex]
      · have houtside : ¬(start ≤ bits.width - 1 - position ∧
            bits.width - 1 - position < start + source.width) := by omega
        have hlength : (bits.toList.take (bits.width - (start + source.width)) ++
            source.toList).length = bits.width - start := by
          simp only [List.length_append, List.length_take, length_toList]
          omega
        have hindex : bits.width - 1 - (bits.width - start + (position - (bits.width - start))) =
            bits.width - 1 - position := by omega
        rw [if_neg houtside, List.getElem_append_right (by rw [hlength]; omega),
          List.getElem_drop, getElem_toList]
        simp only [hlength, hindex]

/-! ## Connectives -/

theorem toList_zipWith {op : Bits → Bits → Bits} {onBit : Bool → Bool → Bool}
    (hop : ∀ (left right : Bits) (index : Nat), (op left right).bit index =
      (decide (index < left.width) && onBit (left.bit index) (right.bit index)))
    (hopWidth : ∀ left right, (op left right).width = left.width)
    (hwidth : left.width = right.width) :
    (op left right).toList = List.zipWith onBit left.toList right.toList := by
  apply List.ext_getElem
  · simp [hopWidth, hwidth]
  · intro position hleft hright
    have hinside : position < left.width := by simpa [hopWidth] using hleft
    have hplace : left.width - 1 - position < left.width := by omega
    rw [getElem_toList, hop, hopWidth, decide_eq_true hplace, Bool.true_and, List.getElem_zipWith,
      getElem_toList, getElem_toList, ← hwidth]

theorem toList_and (hwidth : left.width = right.width) :
    (left.and right).toList = List.zipWith (· && ·) left.toList right.toList :=
  toList_zipWith bit_and (fun _ _ => rfl) hwidth

theorem toList_or (hwidth : left.width = right.width) :
    (left.or right).toList = List.zipWith (· || ·) left.toList right.toList :=
  toList_zipWith bit_or (fun _ _ => rfl) hwidth

theorem toList_xor (hwidth : left.width = right.width) :
    (left.xor right).toList = List.zipWith (· ^^ ·) left.toList right.toList :=
  toList_zipWith bit_xor (fun _ _ => rfl) hwidth

theorem toList_not (bits : Bits) : bits.not.toList = bits.toList.map (!·) := by
  apply List.ext_getElem
  · simp [not, ofNat]
  · intro position hleft hright
    have hinside : position < bits.width := by simpa [not, ofNat] using hleft
    have hplace : bits.width - 1 - position < bits.width := by omega
    have hsame : bits.not.width = bits.width := rfl
    rw [getElem_toList, hsame, bit_not, decide_eq_true hplace, Bool.true_and, List.getElem_map,
      getElem_toList]

/-! ## Text -/

theorem toList_push (bits : Bits) (digit : Bool) :
    (bits.push digit).toList = bits.toList ++ [digit] := by
  apply List.ext_getElem
  · simp [push]
  · intro position hleft hright
    have hinside : position < bits.width + 1 := by simpa [push] using hleft
    have hplace : (bits.push digit).bit (bits.width - position) =
        (bits.value <<< 1 ||| digit.toNat).testBit (bits.width - position) := rfl
    have hwidth : (bits.push digit).width = bits.width + 1 := rfl
    rw [getElem_toList, hwidth, Nat.add_sub_cancel, hplace, Nat.testBit_or, Nat.testBit_shiftLeft,
      Nat.testBit_bool_toNat]
    by_cases hlast : position < bits.width
    · have hone : 1 ≤ bits.width - position := by omega
      have hzero : ¬bits.width - position = 0 := by omega
      have hindex : bits.width - position - 1 = bits.width - 1 - position := by omega
      rw [List.getElem_append_left (by simpa using hlast), getElem_toList]
      simp [hone, hzero, hindex, bit]
    · have hend : position = bits.width := by omega
      subst hend
      simp

theorem valid_push (hbits : bits.Valid) (digit : Bool) : (bits.push digit).Valid := by
  have hdigit : digit.toNat < 2 ^ 1 := Bool.toNat_lt digit
  have hdouble : pow2 (bits.width + 1) = pow2 bits.width * 2 := rfl
  have hbound : bits.value < pow2 bits.width := hbits
  change bits.value <<< 1 ||| digit.toNat < pow2 (bits.width + 1)
  rw [← Nat.shiftLeft_add_eq_or_of_lt hdigit, Nat.shiftLeft_eq, hdouble]
  omega

/-- A digit of a bit vector, or a space. -/
def IsDigit (c : Char) : Prop := c = '0' ∨ c = '1' ∨ c = ' '

/-- The bits that a text lists; spaces list nothing. -/
def listed : List Char → List Bool
  | [] => []
  | c :: rest => if c = ' ' then listed rest else (c = '1') :: listed rest

theorem ofChars?_eq_some_iff {chars : List Char} (hbits : bits.Valid) :
    ofChars? bits chars = some out ↔
      (∀ c ∈ chars, IsDigit c) ∧ out.Valid ∧ out.toList = bits.toList ++ listed chars := by
  induction chars generalizing bits with
  | nil =>
      simp only [ofChars?, Option.some.injEq, listed, List.append_nil]
      constructor
      · intro hsame
        rw [← hsame]
        exact ⟨nofun, hbits, rfl⟩
      · intro hread
        exact ((toList_inj hread.2.1 hbits).mp hread.2.2).symm
  | cons c rest ih =>
      have hdigits : (∀ d ∈ c :: rest, IsDigit d) ↔ IsDigit c ∧ ∀ d ∈ rest, IsDigit d :=
        List.forall_mem_cons
      rw [ofChars?, hdigits]
      by_cases hzero : c = '0'
      · rw [if_pos hzero, ih (valid_push hbits false), toList_push]
        simp [hzero, IsDigit, listed]
      · rw [if_neg hzero]
        by_cases hone : c = '1'
        · rw [if_pos hone, ih (valid_push hbits true), toList_push]
          simp [hone, IsDigit, listed]
        · rw [if_neg hone]
          by_cases hspace : c = ' '
          · rw [if_pos hspace, ih hbits]
            simp [hspace, IsDigit, listed]
          · rw [if_neg hspace]
            simp [hzero, hone, hspace, IsDigit]

/-- A text is read exactly if it has digits and spaces only, as the vector of the
listed bits. -/
theorem ofString?_eq_some_iff {text : String} :
    ofString? text = some bits ↔
      (∀ c ∈ text.toList, IsDigit c) ∧ bits.Valid ∧ bits.toList = listed text.toList := by
  have hempty : (zeros 0).toList = [] := rfl
  rw [ofString?, ofChars?_eq_some_iff (valid_zeros 0), hempty, List.nil_append]

theorem exists_ofChars?_eq_some {chars : List Char} (hdigits : ∀ c ∈ chars, IsDigit c)
    (bits : Bits) : ∃ out, ofChars? bits chars = some out := by
  induction chars generalizing bits with
  | nil => exact ⟨bits, rfl⟩
  | cons c rest ih =>
      obtain ⟨hc, hrest⟩ := List.forall_mem_cons.mp hdigits
      rcases hc with rfl | rfl | rfl
      · exact ih hrest (bits.push false)
      · exact ih hrest (bits.push true)
      · exact ih hrest bits

theorem ofString?_isSome_iff {text : String} :
    (ofString? text).isSome ↔ ∀ c ∈ text.toList, IsDigit c := by
  constructor
  · intro hsome
    obtain ⟨bits, hbits⟩ := Option.isSome_iff_exists.mp hsome
    exact (ofString?_eq_some_iff.mp hbits).1
  · intro hdigits
    obtain ⟨bits, hbits⟩ := exists_ofChars?_eq_some hdigits (zeros 0)
    rw [ofString?, hbits]
    rfl

theorem listed_digits (digits : List Bool) :
    listed (digits.map fun digit => if digit then '1' else '0') = digits := by
  induction digits with
  | nil => rfl
  | cons digit rest ih => cases digit <;> simp [listed, ih]

/-- Reading the text of a vector gives the vector back. -/
theorem ofString?_digits (hbits : bits.Valid) : ofString? bits.digits = some bits := by
  rw [ofString?_eq_some_iff, digits, String.toList_ofList, listed_digits]
  refine ⟨fun c hmem => ?_, hbits, rfl⟩
  obtain ⟨digit, _, rfl⟩ := List.mem_map.mp hmem
  cases digit
  · exact .inl rfl
  · exact .inr (.inl rfl)

/-! ## All operations -/

/-- The vectors that the operations build. -/
inductive Built : Bits → Prop
  | zeros (width : Nat) : Built (zeros width)
  | ofNat (width value : Nat) : Built (ofNat width value)
  | ofInt (width : Nat) (n : Int) : Built (ofInt width n)
  | ofString {text : String} {bits : Bits} (hread : ofString? text = some bits) : Built bits
  | extract {bits part : Bits} {start length : Nat} (hbits : Built bits)
      (hextract : bits.extract? start length = some part) : Built part
  | ofIntSlice (n : Int) (start length : Nat) : Built (ofIntSlice n start length)
  | overwrite {bits source out : Bits} {start : Nat} (hbits : Built bits)
      (hsource : Built source) (hwrite : bits.overwrite? start source = some out) : Built out
  | concat {parts : List Bits} {out : Bits} (hparts : ∀ part ∈ parts, Built part)
      (hconcat : concat? parts = some out) : Built out
  | and {left right : Bits} (hleft : Built left) (hright : Built right)
      (hwidth : left.width = right.width) : Built (left.and right)
  | or {left right : Bits} (hleft : Built left) (hright : Built right)
      (hwidth : left.width = right.width) : Built (left.or right)
  | xor {left right : Bits} (hleft : Built left) (hright : Built right)
      (hwidth : left.width = right.width) : Built (left.xor right)
  | not {bits : Bits} (hbits : Built bits) : Built bits.not
  | addInt {bits : Bits} (hbits : Built bits) (n : Int) : Built (bits.addInt n)

theorem Built.valid (hbuilt : Built bits) : bits.Valid := by
  induction hbuilt with
  | zeros width => exact valid_zeros width
  | ofNat width value => exact valid_ofNat width value
  | ofInt width n => exact valid_ofInt width n
  | ofString hread => exact (ofString?_eq_some_iff.mp hread).2.1
  | extract _ hextract _ => exact valid_of_extract? hextract
  | ofIntSlice n start length => exact valid_ofInt length _
  | overwrite _ _ hwrite hbits hsource => exact valid_of_overwrite? hbits hsource hwrite
  | concat _ hconcat hparts => exact valid_of_concat? hparts hconcat
  | and | or | xor | not => exact valid_ofNat _ _
  | addInt _ n _ => exact valid_ofInt _ _

/-- Bit vectors are lists of bits: what the operations build has no bit beyond
its width, equality is that of the lists, and joining, cutting out, overwriting,
the connectives, reading and printing are what they are on lists. -/
theorem refines_lists :
    (∀ bits : Bits, Built bits → bits.Valid) ∧
    (∀ left right : Bits, left.Valid → right.Valid →
      (left = right ↔ left.toList = right.toList)) ∧
    (∀ parts : List Bits, (concat? parts = none ↔ Size.bound ≤ totalWidth parts) ∧
      ∀ out, (∀ part ∈ parts, part.Valid) → concat? parts = some out →
        out.toList = parts.flatMap toList) ∧
    (∀ (bits : Bits) (start length : Nat),
      (bits.extract? start length = none ↔ bits.width < start + length) ∧
      ∀ part, bits.extract? start length = some part →
        part.toList = (bits.toList.drop (bits.width - (start + length))).take length) ∧
    (∀ (bits source : Bits) (start : Nat),
      (bits.overwrite? start source = none ↔ bits.width < start + source.width) ∧
      ∀ out, source.Valid → bits.overwrite? start source = some out →
        out.toList = bits.toList.take (bits.width - (start + source.width)) ++ source.toList ++
          bits.toList.drop (bits.width - start)) ∧
    (∀ left right : Bits, left.width = right.width →
      (left.and right).toList = List.zipWith (· && ·) left.toList right.toList ∧
      (left.or right).toList = List.zipWith (· || ·) left.toList right.toList ∧
      (left.xor right).toList = List.zipWith (· ^^ ·) left.toList right.toList) ∧
    (∀ bits : Bits, bits.not.toList = bits.toList.map (!·)) ∧
    (∀ text : String, ((ofString? text).isSome ↔ ∀ c ∈ text.toList, c = '0' ∨ c = '1' ∨ c = ' ') ∧
      ∀ bits, ofString? text = some bits → bits.toList = listed text.toList) ∧
    ∀ bits : Bits, bits.Valid →
      ∃ text, bits.print = "'" ++ text ++ "'" ∧ ofString? text = some bits := by
  refine ⟨fun bits => Built.valid, fun left right hleft hright => (toList_inj hleft hright).symm,
    fun parts => ⟨concat?_eq_none_iff, fun out hparts hconcat => ?_⟩,
    fun bits start length => ⟨extract?_eq_none_iff, fun part => ?_⟩,
    fun bits source start => ⟨overwrite?_eq_none_iff, fun out => ?_⟩,
    fun left right hwidth => ⟨toList_and hwidth, toList_or hwidth, toList_xor hwidth⟩,
    toList_not, fun text => ⟨ofString?_isSome_iff, fun bits hread => ?_⟩, fun bits hbits => ?_⟩
  · rw [eq_of_concat? hconcat, toList_concat hparts]
  · exact toList_of_extract?
  · exact toList_of_overwrite?
  · exact (ofString?_eq_some_iff.mp hread).2.2
  · exact ⟨bits.digits, rfl, ofString?_digits hbits⟩

/-- The three most significant bits are overwritten. -/
theorem refines_lists_top :
    (⟨3, 1⟩ : Bits).Valid ∧ (⟨8, 202⟩ : Bits).overwrite? 5 ⟨3, 1⟩ = some ⟨8, 42⟩ ∧
      (⟨8, 42⟩ : Bits).toList =
        [] ++ [false, false, true] ++ [false, true, false, true, false] := by
  have hvalid : (⟨3, 1⟩ : Bits).Valid := by decide
  have hwrite : (⟨8, 202⟩ : Bits).overwrite? 5 ⟨3, 1⟩ = some ⟨8, 42⟩ := by decide
  exact ⟨hvalid, hwrite,
    (refines_lists.2.2.2.2.1 ⟨8, 202⟩ ⟨3, 1⟩ 5).2 ⟨8, 42⟩ hvalid hwrite⟩

end Bits

end ArchSpec
