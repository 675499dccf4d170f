import Mathlib.Algebra.Ring.Int.Defs
import Mathlib.Tactic.Ring
import ArchSpec.Data.Operator

/-!
# Division, remainders and shifts

The floored division of two integers is a quotient with a rest on the divisor's
side of zero, and there is one of them.  So it is enough that each of the exact
division, the rounded one, the remainder and the two shifts yields numbers of
this kind.
-/

namespace ArchSpec

namespace BinaryOp

variable {a b n quotient rest other otherRest : Int} {amount : Nat}

/-! ## The floored quotient -/

/-- The quotient and the rest of a division whose rest lies between zero and the
divisor. -/
structure Divides (a b quotient rest : Int) : Prop where
  recompose : a = quotient * b + rest
  of_pos : 0 < b → 0 ≤ rest ∧ rest < b
  of_neg : b < 0 → b < rest ∧ rest ≤ 0

/-- A divisor leaves room for one rest only. -/
theorem Divides.unique (h : Divides a b quotient rest) (h' : Divides a b other otherRest)
    (hb : b ≠ 0) : quotient = other ∧ rest = otherRest := by
  have hdiff : rest - otherRest = (other - quotient) * b := by
    have hsame := h.recompose.symm.trans h'.recompose
    rw [sub_mul]
    omega
  have hsmall : (rest - otherRest).natAbs < b.natAbs := by
    rcases lt_or_gt_of_ne hb with hneg | hpos
    · have hrest := h.of_neg hneg
      have hother := h'.of_neg hneg
      omega
    · have hrest := h.of_pos hpos
      have hother := h'.of_pos hpos
      omega
  have hzero : rest - otherRest = 0 :=
    Int.eq_zero_of_dvd_of_natAbs_lt_natAbs ⟨other - quotient, hdiff.trans (mul_comm _ _)⟩ hsmall
  have hquotient : other - quotient = 0 :=
    (mul_eq_zero.mp (hdiff.symm.trans hzero)).resolve_right hb
  omega

theorem divides_floorDiv (a : Int) (hb : b ≠ 0) :
    Divides a b (floorDiv a b) (a - floorDiv a b * b) := by
  -- What the quotient rounded towards zero leaves is smaller than the divisor.
  have hrest : a - a.tdiv b * b = a.tmod b := by rw [Int.tmod_def, mul_comm]
  have hsmall : (a.tmod b).natAbs < b.natAbs := by
    rw [Int.natAbs_tmod]
    exact Nat.mod_lt _ (Int.natAbs_pos.mpr hb)
  refine ⟨by omega, ?_, ?_⟩
  all_goals
    intro hsign
    simp only [floorDiv, hrest]
    split
    · have hstep : a - (a.tdiv b - 1) * b = a.tmod b + b := by
        rw [← hrest]
        ring
      omega
    · omega

theorem Divides.floorDiv_eq (h : Divides a b quotient rest) (hb : b ≠ 0) :
    floorDiv a b = quotient := ((divides_floorDiv a hb).unique h hb).1

/-- There is no rest exactly if the quotient rounded towards zero leaves none,
and the two quotients are then one. -/
theorem divides_zero_iff (hb : b ≠ 0) :
    Divides a b quotient 0 ↔ a.tmod b = 0 ∧ a.tdiv b = quotient := by
  have hparts := Int.tdiv_mul_add_tmod a b
  constructor
  · intro h
    have hmultiple : a = quotient * b := h.recompose.trans (add_zero _)
    subst hmultiple
    exact ⟨Int.mul_tmod_left quotient b, Int.mul_tdiv_cancel quotient hb⟩
  · rintro ⟨hzero, rfl⟩
    exact ⟨by rw [← hzero]; exact hparts.symm, by omega, by omega⟩

/-! ## The three divisions -/

theorem div_int (a : Int) (hb : b ≠ 0) :
    div.apply (.int a) (.int b) =
      if a.tmod b = 0 then .ok (.int (a.tdiv b)) else .error (.inexactDivision a b) := by
  simp only [apply, onFitting, onIntegers, nonZero, if_neg hb]
  rfl

theorem divRm_int (a : Int) (hb : b ≠ 0) :
    divRm.apply (.int a) (.int b) = .ok (.int (floorDiv a b)) := by
  simp only [apply, onFitting, onIntegers, nonZero, if_neg hb]
  rfl

theorem mod_int (a : Int) (hb : b ≠ 0) :
    mod.apply (.int a) (.int b) = .ok (.int (a - floorDiv a b * b)) := by
  simp only [apply, onFitting, onIntegers, nonZero, if_neg hb]
  rfl

/-- No division fails for any other reason with this fault. -/
theorem divisionByZero_iff {op : BinaryOp} (hop : op ∈ [div, divRm, mod]) :
    op.apply (.int a) (.int b) = .error .divisionByZero ↔ b = 0 := by
  simp only [List.mem_cons, List.not_mem_nil, or_false] at hop
  constructor
  · intro hfault
    by_contra hb
    rcases hop with rfl | rfl | rfl
    · rw [div_int a hb] at hfault
      split at hfault <;> cases hfault
    · rw [divRm_int a hb] at hfault
      cases hfault
    · rw [mod_int a hb] at hfault
      cases hfault
  · rintro rfl
    rcases hop with rfl | rfl | rfl <;> rfl

/-! ## Shifts -/

theorem shiftLeft_eq (n : Int) (amount : Nat) : shiftLeft n amount = n * pow2 amount := by
  rw [shiftLeft]
  split
  · rename_i hzero
    rw [hzero, zero_mul]
  · rfl

theorem shl_int (a : Int) (hn : Size.ofInt? n = some amount) :
    shl.apply (.int a) (.int n) = .ok (.int (a * pow2 amount)) := by
  simp only [apply, onFitting, onIntegers, Value.asSize_int, hn, shiftLeft_eq, bind, Except.bind]
  rfl

theorem shr_int (a : Int) (hn : Size.ofInt? n = some amount) :
    shr.apply (.int a) (.int n) = .ok (.int (a >>> amount)) := by
  simp only [apply, onFitting, onIntegers, Value.asSize_int, hn, bind, Except.bind]
  rfl

/-- The bits that a shift drops are the rest of a division. -/
theorem divides_shiftRight (a : Int) (amount : Nat) :
    Divides a (pow2 amount) (a >>> amount) (a % pow2 amount) := by
  have hpos := pow2_cast_pos amount
  have hshift : a >>> amount = a / (pow2 amount : Int) := Int.shiftRight_eq_div_pow a amount
  refine ⟨?_, fun _ => ⟨Int.emod_nonneg a hpos.ne', Int.emod_lt_of_pos a hpos⟩, by omega⟩
  rw [hshift]
  exact (Int.ediv_mul_add_emod a (pow2 amount)).symm

theorem shr_eq_divRm (a : Int) (hn : Size.ofInt? n = some amount) :
    shr.apply (.int a) (.int n) = divRm.apply (.int a) (.int (pow2 amount)) := by
  have hpow := (pow2_cast_pos amount).ne'
  rw [shr_int a hn, divRm_int a hpow, (divides_shiftRight a amount).floorDiv_eq hpow]

/-- To shift to the left and back loses nothing. -/
theorem shr_shl (a : Int) (hn : Size.ofInt? n = some amount) :
    (shl.apply (.int a) (.int n) >>= fun shifted => shr.apply shifted (.int n)) =
      .ok (.int a) := by
  have hmultiple : Divides (a * pow2 amount) (pow2 amount) a 0 :=
    ⟨(add_zero _).symm, by omega, by omega⟩
  have hback : (a * pow2 amount) >>> amount = a :=
    ((divides_shiftRight _ amount).unique hmultiple (pow2_cast_pos amount).ne').1
  simp only [shl_int a hn, shr_int _ hn, hback, bind, Except.bind]

/-! ## Their laws -/

/-- Each of the three divisions fails on zero alone.  Otherwise the rounded
quotient and the remainder recompose the dividend, the remainder is on the
divisor's side, and the exact division is the rounded one where nothing remains.
Shifts multiply and divide by a power of two, and the second undoes the first. -/
theorem division_laws (a b : Int) :
    (∀ op ∈ [div, divRm, mod], op.apply (.int a) (.int b) = .error .divisionByZero ↔ b = 0) ∧
    (b ≠ 0 → ∃ quotient rest,
      divRm.apply (.int a) (.int b) = .ok (.int quotient) ∧
      mod.apply (.int a) (.int b) = .ok (.int rest) ∧
      Divides a b quotient rest ∧
      div.apply (.int a) (.int b) =
        if rest = 0 then .ok (.int quotient) else .error (.inexactDivision a b)) ∧
    ∀ amount < Size.bound,
      shl.apply (.int a) (.int amount) = .ok (.int (a * pow2 amount)) ∧
      shr.apply (.int a) (.int amount) = divRm.apply (.int a) (.int (pow2 amount)) ∧
      (shl.apply (.int a) (.int amount) >>= fun shifted => shr.apply shifted (.int amount)) =
        .ok (.int a) := by
  refine ⟨fun op hop => divisionByZero_iff hop, fun hb => ?_, fun amount hamount => ?_⟩
  · have hdivides := divides_floorDiv a hb
    refine ⟨_, _, divRm_int a hb, mod_int a hb, hdivides, ?_⟩
    rw [div_int a hb]
    by_cases hrest : a - floorDiv a b * b = 0
    · rw [hrest] at hdivides
      have hexact := (divides_zero_iff hb).mp hdivides
      rw [if_pos hexact.1, if_pos hrest, hexact.2]
    · have hinexact : a.tmod b ≠ 0 := by
        intro hzero
        have hzeroRest := (divides_zero_iff hb).mpr ⟨hzero, rfl⟩
        exact hrest (hdivides.unique hzeroRest hb).2
      rw [if_neg hinexact, if_neg hrest]
  · have hsize : Size.ofInt? amount = some amount := Size.ofInt?_eq_some_iff.mpr ⟨rfl, hamount⟩
    exact ⟨shl_int a hsize, shr_eq_divRm a hsize, shr_shl a hsize⟩

/-- Seven by minus two is minus four, and the rest has the divisor's sign. -/
theorem division_laws_seven :
    divRm.apply (.int 7) (.int (-2)) = .ok (.int (-4)) ∧
      mod.apply (.int 7) (.int (-2)) = .ok (.int (-1)) ∧
      div.apply (.int 7) (.int (-2)) = .error (.inexactDivision 7 (-2)) := by
  obtain ⟨quotient, rest, hdivRm, hmod, hdivides, hdiv⟩ := (division_laws 7 (-2)).2.1 (by decide)
  have hparts := hdivides.recompose
  have hside := hdivides.of_neg (by decide)
  obtain ⟨rfl, rfl⟩ : quotient = -4 ∧ rest = -1 := by omega
  exact ⟨hdivRm, hmod, hdiv⟩

end BinaryOp

end ArchSpec
