import Mathlib.Data.List.Nodup
import ArchSpec.Data.Size
import ArchSpec.Eval.Storage

/-!
# The numbers of activations

Each activation of a subprogram has a scope of its own as long as the numbers
last.  A number is a 32-bit word that goes up by one with every activation of the
subprogram, whatever happens between, and there is none after the largest word.  To
go on all the same would be to begin again with zero.  So the activations of one
subprogram are numbered from one and told apart up to there, and not any longer.
-/

namespace ArchSpec

/-- One use of a storage. -/
inductive Storage.Operation (α : Type) where
  | setInitialising (initialising : Bool)
  | declareGlobal (name : String) (value : α)
  | pushFrame (subprogram : String)
  | popFrame
  | pushBlock
  | popBlock
  | declare (name : String) (value : α)
  | assign (name : String) (value : α)
  | lookup (name : String)
  | currentScope
  | depth

namespace Storage

variable {α : Type}

namespace Operation

/-- What a storage is after an operation.  Assigning to an unknown name and looking
something up leave it alone. -/
def perform : Operation α → Storage α → Storage α
  | setInitialising initialising, storage => storage.setInitialising initialising
  | declareGlobal name value, storage => storage.declareGlobal name value
  | pushFrame subprogram, storage => storage.pushFrame subprogram
  | popFrame, storage => storage.popFrame
  | pushBlock, storage => storage.pushBlock
  | popBlock, storage => storage.popBlock
  | declare name value, storage => storage.declare name value
  | assign name value, storage => ((storage.assign name value).map Prod.fst).getD storage
  | lookup _, storage => storage
  | currentScope, storage => storage
  | depth, storage => storage

/-- The subprogram that an operation activates. -/
def activated? : Operation α → Option String
  | pushFrame subprogram => some subprogram
  | _ => none

end Operation

/-- The scopes of the activations that operations start, in order. -/
def startedScopes (storage : Storage α) : List (Operation α) → List Scope
  | [] => []
  | operation :: rest =>
      let after := operation.perform storage
      match operation.activated? with
      | some _ => after.currentScope :: startedScopes after rest
      | none => startedScopes after rest

/-- Every activation that operations start finds a number. -/
def Counted (storage : Storage α) : List (Operation α) → Prop
  | [] => True
  | operation :: rest =>
      (∀ subprogram, operation.activated? = some subprogram → ¬storage.Full subprogram) ∧
        Counted (operation.perform storage) rest

/-- How often operations activate a subprogram. -/
def activationCount (subprogram : String) (operations : List (Operation α)) : Nat :=
  (operations.filterMap Operation.activated?).count subprogram

end Storage

/-- The number of a scope that is an activation of a subprogram. -/
def Scope.numberIn? (subprogram : String) : Scope → Option UInt32
  | .global _ => none
  | .activation other number => if other = subprogram then some number else none

namespace Storage

variable {α : Type} {storage : Storage α} {subprogram : String}

/-! ## One operation -/

theorem activations_onFrame (storage : Storage α) (change : Frame α → Frame α) :
    (storage.onFrame change).activations = storage.activations := by
  rw [onFrame]
  split <;> rfl

theorem activations_of_assign {name : String} {value : α} {updated : Storage α} {scope : Scope}
    (hassign : storage.assign name value = some (updated, scope)) :
    updated.activations = storage.activations := by
  have hglobal : ∀ result, storage.assignGlobal name value = some result →
      result.1.activations = storage.activations := by
    intro result hresult
    rw [assignGlobal, Option.map_eq_some_iff] at hresult
    obtain ⟨globals, _, rfl⟩ := hresult
    rfl
  rw [assign] at hassign
  split at hassign
  · split at hassign
    · simp only [Option.some.injEq, Prod.mk.injEq] at hassign
      rw [← hassign.1]
    · exact hglobal _ hassign
  · exact hglobal _ hassign

/-- The numbers move with the activations only. -/
theorem activations_perform {operation : Operation α} (hother : operation.activated? = none)
    (storage : Storage α) : (operation.perform storage).activations = storage.activations := by
  cases operation with
  | pushFrame subprogram => nomatch hother
  | pushBlock | popBlock => exact activations_onFrame storage _
  | declare name value =>
      rw [Operation.perform, declare]
      split <;> rfl
  | assign name value =>
      rw [Operation.perform]
      cases hassign : storage.assign name value with
      | none => rfl
      | some result => exact activations_of_assign hassign
  | setInitialising | declareGlobal | popFrame | lookup | currentScope | depth => rfl

theorem latest_pushFrame (storage : Storage α) (subprogram other : String) :
    (storage.pushFrame subprogram).latest other =
      if subprogram = other then storage.latest subprogram + 1 else storage.latest other := by
  rw [latest, pushFrame, Named.get?_insert]
  split <;> rfl

/-! ## Sequences of operations -/

theorem startedScopes_of_not_activated {operation : Operation α}
    (hother : operation.activated? = none) (storage : Storage α) (rest : List (Operation α)) :
    startedScopes storage (operation :: rest) = startedScopes (operation.perform storage) rest := by
  rw [startedScopes, hother]

theorem startedScopes_pushFrame (storage : Storage α) (subprogram : String)
    (rest : List (Operation α)) :
    startedScopes storage (.pushFrame subprogram :: rest) =
      .activation subprogram (storage.latest subprogram + 1) ::
        startedScopes (storage.pushFrame subprogram) rest := rfl

/-- Each operation either activates a subprogram or does not. -/
theorem activated?_cases (operation : Operation α) :
    (∃ subprogram, operation = .pushFrame subprogram) ∨ operation.activated? = none := by
  cases operation with
  | pushFrame subprogram => exact .inl ⟨subprogram, rfl⟩
  | _ => exact .inr rfl

theorem activated?_pushFrame (name : String) :
    (.pushFrame name : Operation α).activated? = some name := rfl

theorem activationCount_pushFrame (name : String) (rest : List (Operation α)) :
    activationCount subprogram (.pushFrame name :: rest) =
      if name = subprogram then activationCount subprogram rest + 1
      else activationCount subprogram rest := by
  rw [activationCount, List.filterMap_cons_some (activated?_pushFrame name), List.count_cons,
    ← activationCount]
  by_cases hname : name = subprogram
  · rw [if_pos (by simpa using hname), if_pos hname]
  · rw [if_neg (by simpa using hname), if_neg hname, Nat.add_zero]

theorem activationCount_of_not_activated {operation : Operation α}
    (hother : operation.activated? = none) (rest : List (Operation α)) :
    activationCount subprogram (operation :: rest) = activationCount subprogram rest := by
  rw [activationCount, List.filterMap_cons_none hother, activationCount]

theorem counted_of_not_activated {operation : Operation α} (hother : operation.activated? = none)
    (storage : Storage α) (rest : List (Operation α)) :
    Counted storage (operation :: rest) ↔ Counted (operation.perform storage) rest := by
  rw [Counted, hother]
  exact and_iff_right nofun

theorem counted_pushFrame (storage : Storage α) (subprogram : String)
    (rest : List (Operation α)) : Counted storage (.pushFrame subprogram :: rest) ↔
      ¬storage.Full subprogram ∧ Counted (storage.pushFrame subprogram) rest := by
  rw [Counted, activated?_pushFrame]
  simp only [Option.some.injEq, forall_eq']
  rfl

/-- As long as it is not full, a counter goes up with each activation. -/
theorem toNat_latest_pushFrame {name : String} (hroom : ¬storage.Full name)
    (rest : List (Operation α)) (subprogram : String) :
    ((storage.pushFrame name).latest subprogram).toNat + activationCount subprogram rest =
      (storage.latest subprogram).toNat +
        activationCount subprogram (.pushFrame name :: rest) := by
  rw [latest_pushFrame, activationCount_pushFrame]
  by_cases hname : name = subprogram
  · subst hname
    have hnext : (storage.latest name + 1).toNat = (storage.latest name).toNat + 1 := by
      rw [UInt32.toNat_add]
      exact Nat.mod_eq_of_lt (Nat.lt_of_not_le hroom)
    rw [if_pos rfl, if_pos rfl, hnext]
    omega
  · rw [if_neg hname, if_neg hname]

/-- Every activation finds a number if all of them together do not overflow their
counter. -/
theorem counted_iff (operations : List (Operation α)) (storage : Storage α) :
    Counted storage operations ↔ ∀ subprogram,
      (storage.latest subprogram).toNat + activationCount subprogram operations < UInt32.size := by
  induction operations generalizing storage with
  | nil => exact iff_of_true trivial fun subprogram => (storage.latest subprogram).toNat_lt
  | cons operation rest ih =>
      rcases activated?_cases operation with ⟨name, rfl⟩ | hother
      · rw [counted_pushFrame, ih]
        constructor
        · rintro ⟨hroom, hrest⟩ subprogram
          rw [← toNat_latest_pushFrame hroom]
          exact hrest subprogram
        · intro hcount
          have hroom : ¬storage.Full name := by
            have hname := hcount name
            rw [activationCount_pushFrame, if_pos rfl] at hname
            rw [Full]
            omega
          refine ⟨hroom, fun subprogram => ?_⟩
          rw [toNat_latest_pushFrame hroom]
          exact hcount subprogram
      · rw [counted_of_not_activated hother, ih]
        simp only [activationCount_of_not_activated hother, latest, activations_perform hother]

/-- The activations of a subprogram have the numbers that follow the latest one, as
words. -/
theorem numbers_startedScopes {start : Nat} (hlatest : storage.latest subprogram = .ofNat start)
    (operations : List (Operation α)) :
    (startedScopes storage operations).filterMap (Scope.numberIn? subprogram) =
      (List.range' (start + 1) (activationCount subprogram operations)).map UInt32.ofNat := by
  induction operations generalizing storage start with
  | nil => rfl
  | cons operation rest ih =>
      rcases activated?_cases operation with ⟨name, rfl⟩ | hother
      · have hpushed := storage.latest_pushFrame name subprogram
        rw [startedScopes_pushFrame, activationCount_pushFrame]
        by_cases hname : name = subprogram
        · subst hname
          have hnext : storage.latest name + 1 = .ofNat (start + 1) := by
            rw [hlatest, UInt32.ofNat_add]
            rfl
          rw [if_pos rfl, hnext] at hpushed
          rw [List.filterMap_cons_some (by rw [Scope.numberIn?, if_pos rfl]), ih hpushed,
            if_pos rfl, List.range'_succ, List.map_cons, hnext]
        · rw [if_neg hname] at hpushed
          rw [List.filterMap_cons_none (by rw [Scope.numberIn?, if_neg hname]),
            ih (hpushed.trans hlatest), if_neg hname]
      · rw [startedScopes_of_not_activated hother, activationCount_of_not_activated hother]
        apply ih
        rw [latest, activations_perform hother, ← latest, hlatest]

/-- From the first operation on, the numbers begin with one. -/
theorem numbers_startedScopes_empty (subprogram : String) (operations : List (Operation α)) :
    (startedScopes .empty operations).filterMap (Scope.numberIn? subprogram) =
      (List.range' 1 (activationCount subprogram operations)).map UInt32.ofNat :=
  numbers_startedScopes rfl operations

/-- Whatever starts is an activation. -/
theorem exists_of_mem_startedScopes {scope : Scope} {operations : List (Operation α)}
    (hscope : scope ∈ startedScopes storage operations) :
    ∃ subprogram number, scope = .activation subprogram number := by
  induction operations generalizing storage with
  | nil => nomatch hscope
  | cons operation rest ih =>
      rcases activated?_cases operation with ⟨name, rfl⟩ | hother
      · rw [startedScopes_pushFrame] at hscope
        rcases List.mem_cons.mp hscope with rfl | hrest
        · exact ⟨_, _, rfl⟩
        · exact ih hrest
      · rw [startedScopes_of_not_activated hother] at hscope
        exact ih hscope

end Storage

/-! ## Numbers as words -/

section Words

variable {count : Nat}

/-- The words for the numbers up to `count` are distinct unless there are more than
words. -/
theorem nodup_words_iff : ((List.range' 1 count).map UInt32.ofNat).Nodup ↔ count ≤ pow2 32 := by
  rw [List.nodup_map_iff_inj_on List.nodup_range', show pow2 32 = 4294967296 from rfl]
  constructor
  · intro hdistinct
    by_contra hcount
    have hfirst : 1 ∈ List.range' 1 count := by
      rw [List.mem_range'_1]
      omega
    have hagain : 4294967297 ∈ List.range' 1 count := by
      rw [List.mem_range'_1]
      omega
    have hsame := hdistinct 1 hfirst 4294967297 hagain rfl
    omega
  · intro hcount left hleft right hright hwords
    have hnumbers := congrArg UInt32.toNat hwords
    rw [UInt32.toNat_ofNat', UInt32.toNat_ofNat'] at hnumbers
    rw [List.mem_range'_1] at hleft hright
    omega

/-- The words for the numbers up to `count` are those numbers if each of them is a
word. -/
theorem toNat_words_iff :
    ((List.range' 1 count).map UInt32.ofNat).map UInt32.toNat = List.range' 1 count ↔
      count < pow2 32 := by
  have hself : ((List.range' 1 count).map UInt32.ofNat).map UInt32.toNat = List.range' 1 count ↔
      ∀ number ∈ List.range' 1 count, (UInt32.ofNat number).toNat = number := by
    rw [List.map_map]
    nth_rewrite 2 [← List.map_id (List.range' 1 count)]
    exact List.map_inj_left
  rw [hself, show pow2 32 = 4294967296 from rfl]
  simp only [List.mem_range'_1, UInt32.toNat_ofNat']
  constructor
  · intro hnumbers
    by_contra hcount
    have hlast := hnumbers 4294967296 (by omega)
    omega
  · intro hcount number hnumber
    omega

end Words

namespace Scope

variable {scopes : List Scope} {subprogram : String} {number : UInt32}

theorem mem_numbers_iff :
    number ∈ scopes.filterMap (numberIn? subprogram) ↔ .activation subprogram number ∈ scopes := by
  rw [List.mem_filterMap]
  constructor
  · rintro ⟨scope, hscope, hnumber⟩
    cases scope with
    | global initialising => nomatch hnumber
    | activation other found =>
        simp only [numberIn?, Option.ite_none_right_eq_some, Option.some.injEq] at hnumber
        obtain ⟨rfl, rfl⟩ := hnumber
        exact hscope
  · exact fun hscope => ⟨_, hscope, by rw [numberIn?, if_pos rfl]⟩

/-- Activations are distinct if those of each subprogram have distinct numbers. -/
theorem nodup_iff
    (hscopes : ∀ scope ∈ scopes, ∃ subprogram number, scope = .activation subprogram number) :
    scopes.Nodup ↔ ∀ subprogram, (scopes.filterMap (numberIn? subprogram)).Nodup := by
  induction scopes with
  | nil => simp
  | cons scope rest ih =>
      obtain ⟨hfirst, hrest⟩ := List.forall_mem_cons.mp hscopes
      obtain ⟨name, number, rfl⟩ := hfirst
      have hcons (subprogram : String) :
          (Scope.activation name number :: rest).filterMap (numberIn? subprogram) =
            if name = subprogram then number :: rest.filterMap (numberIn? subprogram)
            else rest.filterMap (numberIn? subprogram) := by
        by_cases hname : name = subprogram <;> simp [numberIn?, hname]
      rw [List.nodup_cons, ih hrest, ← mem_numbers_iff]
      constructor
      · rintro ⟨hnew, hnumbers⟩ subprogram
        rw [hcons]
        by_cases hname : name = subprogram
        · subst hname
          rw [if_pos rfl]
          exact List.nodup_cons.mpr ⟨hnew, hnumbers name⟩
        · rw [if_neg hname]
          exact hnumbers subprogram
      · intro hnumbers
        have hown := hnumbers name
        rw [hcons, if_pos rfl, List.nodup_cons] at hown
        refine ⟨hown.1, fun subprogram => ?_⟩
        have hnodup := hnumbers subprogram
        rw [hcons] at hnodup
        split at hnodup
        · exact (List.nodup_cons.mp hnodup).2
        · exact hnodup

end Scope

namespace Storage

variable {α : Type}

/-! ## Telling activations apart -/

theorem nodup_startedScopes_iff (operations : List (Operation α)) :
    (startedScopes .empty operations).Nodup ↔
      ∀ subprogram, activationCount subprogram operations ≤ pow2 32 := by
  rw [Scope.nodup_iff fun _ hscope => exists_of_mem_startedScopes hscope]
  simp only [numbers_startedScopes_empty, nodup_words_iff]

/-- Every activation finds a number, no two of them share a scope, and those of each
subprogram are numbered from one. -/
structure ToldApart (operations : List (Operation α)) : Prop where
  counted : Counted .empty operations
  distinct : (startedScopes .empty operations).Nodup
  numbered : ∀ subprogram,
    ((startedScopes .empty operations).filterMap (Scope.numberIn? subprogram)).map UInt32.toNat =
      List.range' 1 (activationCount subprogram operations)

/-- Activations are told apart as long as no subprogram is activated as often as
there are words.  The last one of so many finds no number; if it went on, its scope
might still be another one, but it would be numbered zero. -/
theorem toldApart_iff (operations : List (Operation α)) :
    ToldApart operations ↔ ∀ subprogram, activationCount subprogram operations < pow2 32 := by
  constructor
  · intro hapart subprogram
    have hnumbered := hapart.numbered subprogram
    rwa [numbers_startedScopes_empty, toNat_words_iff] at hnumbered
  · intro hcount
    constructor
    · exact (counted_iff operations .empty).mpr fun subprogram =>
        (Nat.zero_add _).symm ▸ hcount subprogram
    · exact (nodup_startedScopes_iff operations).mpr fun subprogram =>
        Nat.le_of_lt (hcount subprogram)
    · intro subprogram
      rw [numbers_startedScopes_empty, toNat_words_iff]
      exact hcount subprogram

/-- Of 2^32 + 1 activations of one subprogram, the last would have the scope of the
first. -/
theorem not_toldApart :
    ¬ToldApart (List.replicate (pow2 32 + 1) (.pushFrame "f" : Operation Nat)) := by
  intro hapart
  have hcount := (nodup_startedScopes_iff _).mp hapart.distinct "f"
  have hall : activationCount "f" (List.replicate (pow2 32 + 1) (.pushFrame "f" : Operation Nat)) =
      pow2 32 + 1 := by
    rw [activationCount, List.filterMap_replicate_of_some (activated?_pushFrame "f"),
      List.count_replicate_self]
  omega

end Storage

end ArchSpec
