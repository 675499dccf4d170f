import ArchSpec.Proofs.Bits.Refinement
import ArchSpec.Proofs.Invariants.Evaluator

/-!
# Well-formed values

A value is well-formed if no record or exception in it has a field name twice
and no vector in it has a bit beyond its width.  Every operation on values gives
well-formed ones: where the width of vectors side by side is no machine size,
there is no value at all.  So at each moment of all runs everything is
well-formed.
-/

namespace ArchSpec

open Eval

namespace Named

variable {seen names : List String}

theorem repeats_go_eq_nil_iff :
    repeats.go seen names = [] ↔ names.Nodup ∧ ∀ name ∈ names, name ∉ seen := by
  induction names generalizing seen with
  | nil => simp [repeats.go]
  | cons name rest ih =>
      rw [repeats.go]
      by_cases hseen : name ∈ seen
      · simp [hseen]
      · simp only [List.contains_eq_mem, hseen, decide_false, Bool.false_eq_true, if_false, ih,
          List.nodup_cons, List.mem_cons, not_or, forall_eq_or_imp]
        grind

/-- No name stands earlier in a list exactly if all its names are distinct. -/
theorem repeats_eq_nil_iff : repeats names = [] ↔ names.Nodup := by
  rw [repeats, repeats_go_eq_nil_iff]
  simp

end Named

namespace Value

mutual

/-- At every depth, field names are distinct and vectors are valid. -/
def WellFormed : Value → Prop
  | int _ | bool _ | str _ => True
  | bits b => b.Valid
  | tuple items => ItemsWellFormed items
  | record fields | exception _ fields => (Named.names fields).Nodup ∧ FieldsWellFormed fields

def ItemsWellFormed : List Value → Prop
  | [] => True
  | first :: rest => first.WellFormed ∧ ItemsWellFormed rest

def FieldsWellFormed : List (String × Value) → Prop
  | [] => True
  | (_, first) :: rest => first.WellFormed ∧ FieldsWellFormed rest

end

variable {value whole item : Value} {items : List Value} {fields : Named Value} {name : String}

theorem itemsWellFormed_iff : ItemsWellFormed items ↔ Each WellFormed items := by
  induction items with
  | nil => simp [ItemsWellFormed, Each]
  | cons first rest ih => rw [ItemsWellFormed, ih, Each, Each, List.forall_mem_cons]

theorem fieldsWellFormed_iff : FieldsWellFormed fields ↔ Named.Each WellFormed fields := by
  induction fields with
  | nil => simp [FieldsWellFormed, Named.Each]
  | cons first rest ih => rw [FieldsWellFormed, ih, Named.each_cons]

theorem wellFormed_tuple : (tuple items).WellFormed ↔ Each WellFormed items := by
  rw [WellFormed, itemsWellFormed_iff]

theorem wellFormed_record :
    (record fields).WellFormed ↔ (Named.names fields).Nodup ∧ Named.Each WellFormed fields := by
  rw [WellFormed, fieldsWellFormed_iff]

theorem wellFormed_exception :
    (exception name fields).WellFormed ↔
      (Named.names fields).Nodup ∧ Named.Each WellFormed fields := by
  rw [WellFormed, fieldsWellFormed_iff]

/-! ## Operations on values -/

theorem nodup_of_checkDistinct (hcheck : checkDistinct fields = .ok ()) :
    (Named.names fields).Nodup := by
  rw [checkDistinct] at hcheck
  split at hcheck
  · nomatch hcheck
  · rename_i hnone
    exact Named.repeats_eq_nil_iff.mp hnone

theorem wellFormed_of_makeRecord (hfields : Named.Each WellFormed fields)
    (hmake : makeRecord fields = .ok value) : value.WellFormed := by
  obtain ⟨_, hcheck, hvalue⟩ := bind_eq_ok_iff.mp hmake
  cases hvalue
  exact wellFormed_record.mpr ⟨nodup_of_checkDistinct hcheck, hfields⟩

theorem wellFormed_of_makeException (hfields : Named.Each WellFormed fields)
    (hmake : makeException name fields = .ok value) : value.WellFormed := by
  obtain ⟨_, hcheck, hvalue⟩ := bind_eq_ok_iff.mp hmake
  cases hvalue
  exact wellFormed_exception.mpr ⟨nodup_of_checkDistinct hcheck, hfields⟩

theorem WellFormed.getItem {index : Nat} (hwhole : whole.WellFormed)
    (hget : whole.getItem index = .ok value) : value.WellFormed := by
  cases whole with
  | tuple items =>
      rw [Value.getItem] at hget
      split at hget
      · rename_i hitem
        cases hget
        exact wellFormed_tuple.mp hwhole _ (List.mem_of_getElem? hitem)
      · nomatch hget
  | int | bool | bits | str | record | exception => nomatch hget

theorem WellFormed.setItem {index : Nat} (hwhole : whole.WellFormed) (hitem : item.WellFormed)
    (hset : whole.setItem index item = .ok value) : value.WellFormed := by
  cases whole with
  | tuple items =>
      rw [Value.setItem] at hset
      split at hset
      · cases hset
        apply wellFormed_tuple.mpr
        intro other hmem
        rcases List.mem_or_eq_of_mem_set hmem with hold | rfl
        · exact wellFormed_tuple.mp hwhole other hold
        · exact hitem
      · nomatch hset
  | int | bool | bits | str | record | exception => nomatch hset

theorem WellFormed.getField (hwhole : whole.WellFormed)
    (hget : whole.getField name = .ok value) : value.WellFormed := by
  cases whole with
  | record fields =>
      rw [Value.getField] at hget
      split at hget
      · rename_i hitem
        cases hget
        exact (wellFormed_record.mp hwhole).right.get? hitem
      · nomatch hget
  | exception other fields =>
      rw [Value.getField] at hget
      split at hget
      · rename_i hitem
        cases hget
        exact (wellFormed_exception.mp hwhole).right.get? hitem
      · nomatch hget
  | int | bool | bits | str | tuple => nomatch hget

/-- Names stay as they are, so they need not be checked again. -/
theorem nodup_of_replace? {fields updated : Named Value}
    (hfields : (Named.names fields).Nodup ∧ Named.Each WellFormed fields)
    (hitem : item.WellFormed) (hreplace : Named.replace? fields name item = some updated) :
    (Named.names updated).Nodup ∧ Named.Each WellFormed updated := by
  rw [Named.names_of_replace? hreplace]
  exact ⟨hfields.left, hfields.right.replace? hitem hreplace⟩

theorem WellFormed.setField (hwhole : whole.WellFormed) (hitem : item.WellFormed)
    (hset : whole.setField name item = .ok value) : value.WellFormed := by
  cases whole with
  | record fields =>
      rw [Value.setField] at hset
      split at hset
      · rename_i hreplace
        cases hset
        exact wellFormed_record.mpr
          (nodup_of_replace? (wellFormed_record.mp hwhole) hitem hreplace)
      · nomatch hset
  | exception other fields =>
      rw [Value.setField] at hset
      split at hset
      · rename_i hreplace
        cases hset
        exact wellFormed_exception.mpr
          (nodup_of_replace? (wellFormed_exception.mp hwhole) hitem hreplace)
      · nomatch hset
  | int | bool | bits | str | tuple => nomatch hset

theorem WellFormed.valid_of_toBits {hint : Nat} {bits : Bits} (hvalue : value.WellFormed)
    (hbits : value.toBits hint = .ok bits) : bits.Valid := by
  cases value with
  | bits b =>
      cases hbits
      rwa [WellFormed] at hvalue
  | int n =>
      cases hbits
      exact Bits.valid_ofInt _ n
  | bool | str | tuple | record | exception => nomatch hbits

end Value

/-! ## Operators, slices and primitives -/

section Operations

variable {value left right source target : Value} {places : List (Value × Value)}

theorem Literal.wellFormed_of_value {literal : Literal} (hvalue : literal.value = .ok value) :
    value.WellFormed := by
  cases literal with
  | bits digits =>
      rw [Literal.value] at hvalue
      split at hvalue
      · rename_i hread
        cases hvalue
        exact (Bits.ofString?_eq_some_iff.mp hread).2.1
      · nomatch hvalue
  | int | bool | str =>
      cases hvalue
      exact trivial

namespace BinaryOp

variable {op : BinaryOp}

theorem wellFormed_of_onIntegers {a b : Int} (hop : op.onIntegers a b = some (.ok value)) :
    value.WellFormed := by
  cases op with
  | add | sub | mul | lt | le | gt | ge =>
      cases hop
      exact trivial
  | divRm | mod | pow | shl | shr =>
      obtain ⟨_, _, hresult⟩ := bind_eq_ok_iff.mp (Option.some.inj hop)
      cases hresult
      exact trivial
  | div =>
      obtain ⟨_, _, hresult⟩ := bind_eq_ok_iff.mp (Option.some.inj hop)
      split at hresult
      · cases hresult
        exact trivial
      · nomatch hresult
  | eq | ne | and | or | impl | equiv | bitAnd | bitOr | bitXor => nomatch hop

theorem valid_of_onBits {a b out : Bits} (hop : op.onBits a b = some out) : out.Valid := by
  cases op with
  | bitAnd | bitOr | bitXor =>
      cases hop
      exact Bits.valid_ofNat _ _
  | add | sub =>
      cases hop
      exact Bits.valid_ofInt _ _
  | mul | div | divRm | mod | pow | shl | shr | eq | ne | lt | gt | le | ge | and | or | impl
  | equiv => nomatch hop

theorem wellFormed_of_truth {outcome : Option Bool} {truth : Bool → Bool}
    (hop : (outcome.map fun result => .ok (.bool (truth result))) =
      some (.ok value : Except Fault Value)) : value.WellFormed := by
  obtain ⟨_, _, hvalue⟩ := Option.map_eq_some_iff.mp hop
  cases hvalue
  exact trivial

theorem wellFormed_of_onFitting (hop : op.onFitting left right = some (.ok value)) :
    value.WellFormed := by
  unfold onFitting at hop
  split at hop
  · exact wellFormed_of_truth hop
  · exact wellFormed_of_truth hop
  · exact wellFormed_of_onIntegers hop
  · exact wellFormed_of_truth hop
  · split at hop
    · obtain ⟨_, hbits, hvalue⟩ := Option.map_eq_some_iff.mp hop
      cases hvalue
      exact valid_of_onBits hbits
    · nomatch hop
  · cases hop
    exact Bits.valid_ofInt _ _
  · cases hop
    exact Bits.valid_ofInt _ _
  · nomatch hop

theorem wellFormed_of_apply (hop : op.apply left right = .ok value) : value.WellFormed := by
  rw [apply] at hop
  split at hop
  · rename_i result hfits
    rw [hop] at hfits
    exact wellFormed_of_onFitting hfits
  · nomatch hop

end BinaryOp

theorem UnaryOp.wellFormed_of_apply {op : UnaryOp} {operand : Value}
    (hop : op.apply operand = .ok value) : value.WellFormed := by
  unfold UnaryOp.apply at hop
  split at hop
  · cases hop
    exact trivial
  · cases hop
    exact trivial
  · cases hop
    exact Bits.valid_ofNat _ _
  · nomatch hop

namespace Slice

theorem valid_of_readParts {source : Bits} {slices : List Position} {parts : List Bits}
    (hread : readParts source slices = .ok parts) : ∀ part ∈ parts, part.Valid := by
  induction slices generalizing parts with
  | nil =>
      cases hread
      exact List.forall_mem_nil Bits.Valid
  | cons slice rest ih =>
      rw [readParts] at hread
      split at hread
      · rename_i part hextract
        obtain ⟨others, hothers, hparts⟩ := bind_eq_ok_iff.mp hread
        cases hparts
        exact List.forall_mem_cons.mpr ⟨Bits.valid_of_extract? hextract, ih hothers⟩
      · cases hread

/-- Parts are valid, whatever they are taken from. -/
theorem valid_of_parts {parts : List Bits} (hparts : Slice.parts places source = .ok parts) :
    ∀ part ∈ parts, part.Valid := by
  obtain ⟨slices, _, hparts⟩ := bind_eq_ok_iff.mp hparts
  split at hparts
  · cases hparts
    intro part hmem
    obtain ⟨slice, _, rfl⟩ := List.mem_map.mp hmem
    exact Bits.valid_ofInt _ _
  · obtain ⟨bits, _, hread⟩ := bind_eq_ok_iff.mp hparts
    exact valid_of_readParts hread

theorem valid_of_widenAll {values : List Value} {parts : List Bits}
    (hvalues : Value.Each Value.WellFormed values) (hwiden : widenAll values = .ok parts) :
    ∀ part ∈ parts, part.Valid := by
  induction values generalizing parts with
  | nil =>
      cases hwiden
      exact fun _ hmem => nomatch hmem
  | cons first rest ih =>
      obtain ⟨hfirst, hrest⟩ := List.forall_mem_cons.mp hvalues
      obtain ⟨part, hpart, hwiden⟩ := bind_eq_ok_iff.mp hwiden
      obtain ⟨others, hothers, hparts⟩ := bind_eq_ok_iff.mp hwiden
      cases hparts
      exact List.forall_mem_cons.mpr ⟨hfirst.valid_of_toBits hpart, ih hrest hothers⟩

theorem wellFormed_of_join {parts : List Bits} (hparts : ∀ part ∈ parts, part.Valid)
    (hjoin : join parts = some value) : value.WellFormed := by
  obtain ⟨joined, hconcat, rfl⟩ := Option.map_eq_some_iff.mp hjoin
  exact Bits.valid_of_concat? hparts hconcat

theorem wellFormed_of_read (hread : read places source = .ok (some value)) :
    value.WellFormed := by
  obtain ⟨parts, hparts, hjoin⟩ := bind_eq_ok_iff.mp hread
  exact wellFormed_of_join (valid_of_parts hparts) (Except.ok.inj hjoin)

theorem wellFormed_of_concat {values : List Value} (hvalues : Value.Each Value.WellFormed values)
    (hconcat : concat values = .ok (some value)) : value.WellFormed := by
  obtain ⟨parts, hparts, hjoin⟩ := bind_eq_ok_iff.mp hconcat
  exact wellFormed_of_join (valid_of_widenAll hvalues hparts) (Except.ok.inj hjoin)

theorem valid_of_writeParts {bits dest out : Bits} {slices : List Position} {remaining : Nat}
    (hdest : dest.Valid) (hwrite : writeParts bits remaining dest slices = .ok out) :
    out.Valid := by
  induction slices generalizing remaining dest with
  | nil =>
      cases hwrite
      exact hdest
  | cons slice rest ih =>
      obtain ⟨part, between, hextract, hoverwrite, hrest⟩ := writeParts_cons_eq_ok hwrite
      exact ih (Bits.valid_of_overwrite? hdest (Bits.valid_of_extract? hextract) hoverwrite) hrest

theorem wellFormed_of_write (htarget : target.WellFormed)
    (hwrite : write places source target = .ok value) : value.WellFormed := by
  obtain ⟨_, _, _, old, new, _, _, _, hold, hnew, rfl⟩ := write_eq_ok hwrite
  exact valid_of_writeParts (htarget.valid_of_toBits hold) hnew

end Slice

namespace Primitive

variable {primitive : Primitive} {values : List Value} {reply : Reply}

theorem wellFormed_of_onOne {compute : Value → Except Fault Value}
    (hcompute : ∀ argument result, compute argument = .ok result → result.WellFormed)
    (hreply : primitive.onOne values compute = .ok reply) :
    Value.Each Value.WellFormed reply.results := by
  match values with
  | [] | _ :: _ :: _ => nomatch hreply
  | [argument] =>
      obtain ⟨result, hresult, hreply⟩ := bind_eq_ok_iff.mp hreply
      cases hreply
      exact List.forall_mem_singleton.mpr (hcompute argument result hresult)

/-- Primitives give integers and strings. -/
theorem wellFormed_of_call (hcall : primitive.call values = .ok reply) :
    Value.Each Value.WellFormed reply.results := by
  cases primitive with
  | uint | sint | decStr | hexStr =>
      refine wellFormed_of_onOne (fun _ _ hresult => ?_) hcall
      obtain ⟨_, _, hresult⟩ := bind_eq_ok_iff.mp hresult
      cases hresult
      exact trivial
  | asciiStr | log2 =>
      refine wellFormed_of_onOne (fun _ _ hresult => ?_) hcall
      obtain ⟨_, _, hresult⟩ := bind_eq_ok_iff.mp hresult
      split at hresult
      · cases hresult
        exact trivial
      · nomatch hresult
  | print =>
      obtain ⟨_, _, hreply⟩ := bind_eq_ok_iff.mp hcall
      cases hreply
      exact fun _ hmem => nomatch hmem

end Primitive

end Operations

open Value in
/-- Every operation on values gives well-formed ones. -/
theorem ValueLaws.wellFormed : ValueLaws WellFormed WellFormed where
  int _ := trivial
  bool _ := trivial
  str _ := trivial
  literal hvalue := Literal.wellFormed_of_value hvalue
  binary _ _ hop := BinaryOp.wellFormed_of_apply hop
  unary _ hop := UnaryOp.wellFormed_of_apply hop
  read _ hread := Slice.wellFormed_of_read hread
  concat hvalues hconcat := Slice.wellFormed_of_concat hvalues hconcat
  write _ htarget hwrite := Slice.wellFormed_of_write htarget hwrite
  zeros _ hzeros := by
    obtain ⟨width, _, hvalue⟩ := bind_eq_ok_iff.mp hzeros
    cases hvalue
    exact Bits.valid_zeros width
  tuple hitems := wellFormed_tuple.mpr hitems
  getItem hwhole hget := hwhole.getItem hget
  setItem hwhole hitem hset := hwhole.setItem hitem hset
  record hfields hmake := wellFormed_of_makeRecord hfields hmake
  exception hfields hmake := wellFormed_of_makeException hfields hmake
  getField hwhole hget := hwhole.getField hget
  setField hwhole hitem hset := hwhole.setField hitem hset
  primitive _ hcall := Primitive.wellFormed_of_call hcall
  raised hexc _ := hexc
  caught hexc := hexc

/-! ## Runs -/

/-- All variables and all exceptions that are being handled are well-formed. -/
def State.WellFormed (state : State) : Prop :=
  state.storage.Each Value.WellFormed ∧ ∀ exc ∈ state.handled, exc.WellFormed

/-- The values of a moment are well-formed: those of its state, and the one that is
produced or propagating. -/
def Moment.WellFormed : Moment → Prop
  | .passing state => state.WellFormed
  | .produced value state => value.WellFormed ∧ state.WellFormed
  | .propagating exc state => exc.WellFormed ∧ state.WellFormed

namespace Session

/-- At every moment of all runs, however they end, the values of all variables, of
exceptions being handled or on their way, and of all expressions are well-formed. -/
theorem wellFormed_of_meets (subprograms : Table) (unroll : Nat) (recording : Bool) (bound : Nat)
    (programs : List Program) :
    ∀ moment, (start subprograms unroll recording).Meets bound programs moment →
      moment.WellFormed := by
  intro moment hmoment
  have hI := Invariant.stored_lawful .wellFormed
  have hstart : (Invariant.stored Value.WellFormed Value.WellFormed).ofState
      (State.start recording) := ⟨.empty, fun _ hmem => nomatch hmem⟩
  have hholds := (holds_of_meets hI.staged hstart).left moment hmoment
  cases moment with
  | passing | produced | propagating => exact hholds

/-- The entry point puts a bit and a slice side by side and throws them. -/
def packing : Program :=
  ⟨[.subprogram (.ofFunction entryPoint [] .integer
    (.raise (some (.exception "Packed" [("bits", .concat [.literal (.bits "1"),
      .slice (.literal (.int 6))
        [.length (.literal (.int 0)) (.literal (.int 3))]])]))))]⟩

theorem wellFormed_packing :
    ∃ state, (start packing.table 0 false).Meets 1 [packing]
        (.propagating (.exception "Packed" [("bits", .bits ⟨4, 14⟩)]) state) ∧
      (Moment.propagating (.exception "Packed" [("bits", .bits ⟨4, 14⟩)]) state).WellFormed := by
  let state := (State.start false).onStorage fun storage =>
    ((storage.setInitialising true).setInitialising false).pushFrame entryPoint
  have hmoment : (start packing.table 0 false).Meets 1 [packing]
      (.propagating (.exception "Packed" [("bits", .bits ⟨4, 14⟩)]) state) :=
    .inl (.inr (.inl (.inr ⟨(), _, rfl, .inr ⟨(), _, rfl, .inr (.inr rfl)⟩⟩)))
  exact ⟨state, hmoment, wellFormed_of_meets packing.table 0 false 1 [packing] _ hmoment⟩

end Session

end ArchSpec
