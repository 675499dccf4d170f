import ArchSpec.Proofs.Storage.Activations
import ArchSpec.Proofs.Storage.Bindings
import ArchSpec.Proofs.Storage.Shadowing

/-!
# A stack of scopes

Blocks nest inside activations, and activations inside one another.  What is done
in a block comes to the assignments in it that reach outside: a block that is left
takes its declarations with it, and an assignment that finds one of these goes with
them too.  What is done in an activation does not come near the frames below.
Outside all activations there are no blocks, and a declaration is a global one.
-/

namespace ArchSpec

/-- The two ends of what is entered and left again. -/
inductive Bracket where
  | opening
  | closing

namespace Storage

variable {α : Type}

namespace Operation

def blockBracket? : Operation α → Option Bracket
  | pushBlock => some .opening
  | popBlock => some .closing
  | _ => none

def frameBracket? : Operation α → Option Bracket
  | pushFrame _ => some .opening
  | popFrame => some .closing
  | _ => none

/-- Whether an operation is on blocks and variables, as opposed to activations, to
global storage and to its phase. -/
def staysInside : Operation α → Bool
  | setInitialising _ | declareGlobal .. | pushFrame _ | popFrame => false
  | pushBlock | popBlock | declare .. | assign .. | lookup _ | currentScope | depth => true

/-- The numbers of blocks of all frames after an operation.  A frame begins with one
block, and its last one stays. -/
def onCounts : Operation α → List Nat → List Nat
  | pushFrame _, counts => 1 :: counts
  | popFrame, counts => counts.tail
  | pushBlock, count :: counts => (count + 1) :: counts
  | popBlock, count :: counts => (if 1 < count then count - 1 else count) :: counts
  | _, counts => counts

end Operation

/-- What a storage is after some operations. -/
def performAll (operations : List (Operation α)) (storage : Storage α) : Storage α :=
  operations.foldl (fun storage operation => operation.perform storage) storage

/-- The numbers of blocks of all frames after some operations from the first one on. -/
def blockCounts (operations : List (Operation α)) : List Nat :=
  operations.foldl (fun counts operation => operation.onCounts counts) []

/-- How many brackets are open after some operations, if none is closed but those that
these open and `depth` others. -/
def nesting (bracket? : Operation α → Option Bracket) : Nat → List (Operation α) → Option Nat
  | depth, [] => some depth
  | depth, operation :: rest =>
      match bracket? operation, depth with
      | none, depth => nesting bracket? depth rest
      | some .opening, depth => nesting bracket? (depth + 1) rest
      | some .closing, 0 => none
      | some .closing, depth + 1 => nesting bracket? depth rest

/-- What may be done between entering a block and leaving it. -/
structure Enclosed (operations : List (Operation α)) : Prop where
  nested : nesting Operation.blockBracket? 0 operations = some 0
  inside : ∀ operation ∈ operations, operation.staysInside = true

/-- The assignments that reach variables outside the open blocks, given the names that
each of these has declared, the innermost one first. -/
def reaching : List (List String) → List (Operation α) → List (String × α)
  | _, [] => []
  | declared, .pushBlock :: rest => reaching ([] :: declared) rest
  | declared, .popBlock :: rest => reaching declared.tail rest
  | names :: declared, .declare name _ :: rest => reaching ((name :: names) :: declared) rest
  | declared, .assign name value :: rest =>
      if name ∈ declared.flatten then reaching declared rest
      else (name, value) :: reaching declared rest
  | declared, _ :: rest => reaching declared rest

def assignAll (changes : List (String × α)) (storage : Storage α) : Storage α :=
  performAll (changes.map fun change => .assign change.1 change.2) storage

/-- The value that some assignments give to a name last. -/
def lastValue? (changes : List (String × α)) (name : String) : Option α :=
  Named.get? changes.reverse name

end Storage

variable {α : Type} {name other : String} {value : α}

theorem Named.get?_append (entries rest : Named α) (name : String) :
    get? (entries ++ rest) name = (get? entries name).or (get? rest name) := by
  induction entries with
  | nil => rfl
  | cons entry entries ih =>
      obtain ⟨first, value⟩ := entry
      rw [List.cons_append, get?, get?, ih]
      split <;> rfl

theorem Named.mem_names_iff {entries : Named α} :
    name ∈ names entries ↔ get? entries name ≠ none := by
  induction entries with
  | nil => simp [names, get?]
  | cons entry rest ih =>
      obtain ⟨first, value⟩ := entry
      rw [names_cons, List.mem_cons, ih, get?]
      by_cases hfirst : first = name
      · simp [hfirst]
      · simp [hfirst, Ne.symm hfirst]

theorem Named.mem_names_insert {entries : Named α} :
    other ∈ names (insert entries name value) ↔ other = name ∨ other ∈ names entries := by
  rw [names_insert]
  split
  · next hmem => exact (or_iff_right_of_imp fun hother => hother ▸ hmem).symm
  · rw [List.mem_append, List.mem_singleton, or_comm]

/-! ## Blocks on top -/

namespace Blocks

/-- Each block declares the names of a list. -/
def Declare : List (Named α) → List (List String) → Prop :=
  List.Forall₂ fun block names => ∀ name, name ∈ Named.names block ↔ name ∈ names

variable {block : Named α} {inner changed : List (Named α)}
variable {names : List String} {declared : List (List String)}

theorem Declare.push (hdeclare : Declare inner declared) : Declare ([] :: inner) ([] :: declared) :=
  .cons (fun _ => .rfl) hdeclare

theorem Declare.insert (hdeclare : Declare (block :: inner) (names :: declared)) (name : String)
    (value : α) :
    Declare (Named.insert block name value :: inner) ((name :: names) :: declared) := by
  obtain ⟨hblock, hinner⟩ := List.forall₂_cons.mp hdeclare
  refine .cons (fun other => ?_) hinner
  rw [Named.mem_names_insert, hblock, List.mem_cons]

theorem Declare.replace?_eq_none_iff (hdeclare : Declare inner declared) :
    replace? inner name value = none ↔ name ∉ declared.flatten := by
  rw [Blocks.replace?_eq_none_iff]
  induction hdeclare with
  | nil => simp [get?]
  | @cons block names inner declared hblock _ ih =>
      rw [get?, List.flatten_cons, List.mem_append, ← hblock, Named.mem_names_iff]
      cases Named.get? block name with
      | none => simp [ih]
      | some found => simp

theorem Declare.replace? (hdeclare : Declare inner declared)
    (hreplace : replace? inner name value = some changed) : Declare changed declared := by
  have hkept := kept_of_replace? (List.mem_singleton_self name) hreplace
  clear hreplace
  induction hkept generalizing declared with
  | nil => exact hdeclare
  | cons hblock _ ih =>
      cases hdeclare with
      | cons hnames hrest =>
          refine .cons (fun name => ?_) (ih hrest)
          rw [hblock.names]
          exact hnames name

end Blocks

namespace Frame

/-- The frame inside some more blocks, the innermost one first. -/
def enterAll (frame : Frame α) (inner : List (Named α)) : Frame α :=
  { frame with inner := inner ++ frame.inner }

theorem replace?_enterAll (frame : Frame α) (inner : List (Named α)) (name : String) (new : α) :
    (frame.enterAll inner).replace? name new =
      match Blocks.replace? inner name new with
      | some inner => some (frame.enterAll inner)
      | none => (frame.replace? name new).map (·.enterAll inner) := by
  simp only [replace?, enterAll, Blocks.replace?_append]
  cases Blocks.replace? inner name new with
  | some inner => rfl
  | none =>
      cases Blocks.replace? frame.inner name new with
      | some outer => rfl
      | none => cases Named.replace? frame.parameters name new <;> rfl

end Frame

namespace Storage

variable {storage : Storage α} {frame : Frame α} {rest : List (Frame α)}
variable {inner : List (Named α)} {declared : List (List String)}
variable {operation : Operation α} {operations : List (Operation α)}

/-- The storage inside some more blocks of the current frame. -/
def enterAll (storage : Storage α) (inner : List (Named α)) : Storage α :=
  storage.onFrame (·.enterAll inner)

theorem enterAll_of_frames (hframes : storage.frames = frame :: rest) (inner : List (Named α)) :
    storage.enterAll inner = { storage with frames := frame.enterAll inner :: rest } := by
  rw [enterAll, onFrame, hframes]

theorem popBlock_enterAll (storage : Storage α) (block : Named α) (inner : List (Named α)) :
    (storage.enterAll (block :: inner)).popBlock = storage.enterAll inner := by
  rcases storage with ⟨globals, _ | ⟨frame, rest⟩, activations, initialising⟩ <;> rfl

theorem pushBlock_enterAll (storage : Storage α) (inner : List (Named α)) :
    (storage.enterAll inner).pushBlock = storage.enterAll ([] :: inner) := by
  rcases storage with ⟨globals, _ | ⟨frame, rest⟩, activations, initialising⟩ <;> rfl

theorem enterAll_nil (storage : Storage α) : storage.enterAll [] = storage := by
  rcases storage with ⟨globals, _ | ⟨frame, rest⟩, activations, initialising⟩ <;> rfl

theorem declare_enterAll (hframes : storage.frames = frame :: rest) (block : Named α)
    (name : String) (value : α) :
    (storage.enterAll (block :: inner)).declare name value =
      storage.enterAll (Named.insert block name value :: inner) := by
  rw [enterAll_of_frames hframes, enterAll_of_frames hframes]
  rfl

theorem assign_enterAll (hframes : storage.frames = frame :: rest) (inner : List (Named α))
    (name : String) (value : α) :
    (Operation.assign name value).perform (storage.enterAll inner) =
      match Blocks.replace? inner name value with
      | some inner => storage.enterAll inner
      | none => ((Operation.assign name value).perform storage).enterAll inner := by
  rw [enterAll_of_frames hframes]
  simp only [Operation.perform, assign, Frame.replace?_enterAll, hframes]
  cases Blocks.replace? inner name value with
  | some inner => simp [enterAll_of_frames hframes]
  | none =>
      cases frame.replace? name value with
      | some changed => simp [enterAll, onFrame]
      | none =>
          simp only [assignGlobal]
          cases Named.replace? storage.globals name value <;> simp [enterAll, onFrame, hframes]

/-- An assignment to a name that some of the blocks declare stays in them, and other
assignments reach outside. -/
theorem assign_enterAll_cases (hframes : storage.frames = frame :: rest)
    (hdeclare : Blocks.Declare inner declared) (name : String) (value : α) :
    (name ∈ declared.flatten ∧ ∃ changed, Blocks.Declare changed declared ∧
        changed.length = inner.length ∧
        (Operation.assign name value).perform (storage.enterAll inner) =
          storage.enterAll changed) ∨
      (name ∉ declared.flatten ∧
        (Operation.assign name value).perform (storage.enterAll inner) =
          ((Operation.assign name value).perform storage).enterAll inner) := by
  have hreach : Blocks.replace? inner name value = none ↔ name ∉ declared.flatten :=
    hdeclare.replace?_eq_none_iff
  rw [assign_enterAll hframes]
  cases hreplace : Blocks.replace? inner name value with
  | none => exact .inr ⟨hreach.mp hreplace, rfl⟩
  | some changed =>
      have hmem : name ∈ declared.flatten := by
        by_contra hnew
        rw [hreach.mpr hnew] at hreplace
        cases hreplace
      exact .inl ⟨hmem, changed, hdeclare.replace? hreplace,
        Blocks.length_of_replace? hreplace, rfl⟩

/-! ## Single operations -/

/-- Without an activation that starts or ends, at most the current frame changes. -/
theorem exists_frames_perform (hother : operation.frameBracket? = none)
    (hframes : storage.frames = frame :: rest) :
    ∃ changed, (operation.perform storage).frames = changed :: rest := by
  cases operation with
  | pushFrame | popFrame => nomatch hother
  | pushBlock | popBlock =>
      simp only [Operation.perform, pushBlock, popBlock, onFrame, hframes]
      exact ⟨_, rfl⟩
  | declare name value =>
      simp only [Operation.perform, declare, hframes]
      exact ⟨_, rfl⟩
  | assign name value =>
      rw [Operation.perform]
      cases hassign : storage.assign name value with
      | none => exact ⟨frame, hframes⟩
      | some result =>
          have htop := onTop_of_assign (List.mem_singleton_self name) hassign
          rw [hframes] at htop
          obtain ⟨changed, hchanged, _⟩ := htop.exists_of_cons
          exact ⟨changed, hchanged⟩
  | setInitialising | declareGlobal | lookup | currentScope | depth => exact ⟨frame, hframes⟩

theorem blockCounts_perform (operation : Operation α) (storage : Storage α) :
    (operation.perform storage).frames.map (fun frame => frame.blocks.length) =
      operation.onCounts (storage.frames.map fun frame => frame.blocks.length) := by
  simp only [Frame.length_blocks]
  cases operation with
  | pushFrame subprogram => rfl
  | popFrame => exact List.map_tail ..
  | pushBlock =>
      rcases storage with ⟨globals, _ | ⟨frame, rest⟩, activations, initialising⟩ <;> rfl
  | popBlock =>
      rcases storage with ⟨globals, _ | ⟨⟨scope, _ | ⟨block, inner⟩, parameters⟩, rest⟩,
        activations, initialising⟩ <;>
        simp [Operation.perform, popBlock, onFrame, Operation.onCounts]
  | declare name value => exact (sameFrames_declare storage name value).blocks
  | assign name value =>
      rw [Operation.perform]
      cases hassign : storage.assign name value with
      | none => rfl
      | some result => exact (sameFrames_of_assign hassign).blocks
  | setInitialising | declareGlobal | lookup | currentScope | depth => rfl

theorem lookup_declare (storage : Storage α) (name : String) (value : α) :
    (storage.declare name value).lookup name = some (value, storage.currentScope) := by
  rw [declare, currentScope]
  cases hframes : storage.frames with
  | nil => simp [lookup, declareGlobal, hframes, lookupGlobal, Named.get?_insert, globalScope]
  | cons frame rest => simp [lookup, Frame.get?_declare, (frame.shape_declare name value).1]

/-- What is found under a name after an assignment that may have failed. -/
theorem lookup_perform_assign (storage : Storage α) (name other : String) (value : α) :
    ((Operation.assign name value).perform storage).lookup other =
      if name = other then (storage.lookup other).map fun found => (value, found.2)
      else storage.lookup other := by
  rw [Operation.perform]
  cases hassign : storage.assign name value with
  | none =>
      have hnone := assign_eq_none_iff.mp hassign
      by_cases hother : name = other
      · subst hother
        simp [hnone]
      · simp [hother]
  | some result =>
      obtain ⟨old, hold, _⟩ := rebound_of_assign hassign
      simp only [Option.map_some, Option.getD_some, lookup_of_assign hassign]
      by_cases hother : name = other
      · subst hother
        simp [hold]
      · simp [hother]

/-! ## Sequences of operations -/

theorem performAll_cons (operation : Operation α) (operations : List (Operation α))
    (storage : Storage α) :
    performAll (operation :: operations) storage =
      performAll operations (operation.perform storage) := rfl

theorem assignAll_cons (name : String) (value : α) (changes : List (String × α))
    (storage : Storage α) :
    assignAll ((name, value) :: changes) storage =
      assignAll changes ((Operation.assign name value).perform storage) := rfl

theorem lastValue?_cons (name other : String) (value : α) (changes : List (String × α)) :
    lastValue? ((name, value) :: changes) other =
      (lastValue? changes other).or (if name = other then some value else none) := by
  rw [lastValue?, List.reverse_cons, Named.get?_append]
  rfl

/-- Some assignments leave a variable with the last value that they give to it. -/
theorem lookup_assignAll (changes : List (String × α)) (storage : Storage α) (name : String) :
    (assignAll changes storage).lookup name =
      (storage.lookup name).map fun found => ((lastValue? changes name).getD found.1, found.2) := by
  induction changes generalizing storage with
  | nil => exact (Option.map_id' ..).symm
  | cons change changes ih =>
      obtain ⟨other, value⟩ := change
      rw [assignAll_cons, ih, lookup_perform_assign, lastValue?_cons]
      by_cases hother : other = name
      · cases storage.lookup name <;> cases lastValue? changes name <;> simp [hother]
      · simp [hother]

theorem blockCounts_performAll (operations : List (Operation α)) :
    (performAll operations .empty).frames.map (fun frame : Frame α => frame.blocks.length) =
      blockCounts operations := by
  have hrun : ∀ storage : Storage α,
      (performAll operations storage).frames.map (fun frame => frame.blocks.length) =
        operations.foldl (fun counts operation => operation.onCounts counts)
          (storage.frames.map fun frame => frame.blocks.length) := by
    induction operations with
    | nil => exact fun _ => rfl
    | cons operation rest ih =>
        intro storage
        rw [performAll_cons, ih, blockCounts_perform, List.foldl_cons]
  exact hrun .empty

/-! ## Blocks -/

/-- In some blocks of an activation, operations come to assignments around them. -/
theorem performAll_enterAll {depth : Nat} (hframes : storage.frames = frame :: rest)
    (hdeclare : Blocks.Declare inner declared) (hlength : inner.length = depth + 1)
    (hnested : nesting Operation.blockBracket? depth operations = some 0)
    (hinside : ∀ operation ∈ operations, operation.staysInside = true) :
    ∃ block, performAll operations (storage.enterAll inner) =
      (assignAll (reaching declared operations) storage).enterAll [block] := by
  induction operations generalizing storage frame inner declared depth with
  | nil =>
      obtain rfl : depth = 0 := Option.some.inj hnested
      obtain ⟨block, rfl⟩ := List.length_eq_one_iff.mp hlength
      exact ⟨block, rfl⟩
  | cons operation operations ih =>
      obtain ⟨hfirst, hrest⟩ := List.forall_mem_cons.mp hinside
      rw [performAll_cons]
      cases operation with
      | setInitialising | declareGlobal | pushFrame | popFrame => cases hfirst
      | lookup | currentScope | depth =>
          exact ih hframes hdeclare hlength hnested hrest
      | pushBlock =>
          rw [Operation.perform, pushBlock_enterAll]
          exact ih hframes hdeclare.push (congrArg (· + 1) hlength) hnested hrest
      | popBlock =>
          -- the block that was entered first stays open
          cases depth with
          | zero => cases hnested
          | succ depth =>
              cases hdeclare with
              | nil => cases hlength
              | cons _ hdeclare =>
                  rw [Operation.perform, popBlock_enterAll]
                  exact ih hframes hdeclare (Nat.succ.inj hlength) hnested hrest
      | declare name value =>
          cases hdeclare with
          | nil => cases hlength
          | cons hblock hinner =>
              have hnew := Blocks.Declare.insert (.cons hblock hinner) name value
              rw [Operation.perform, declare_enterAll hframes]
              exact ih hframes hnew hlength hnested hrest
      | assign name value =>
          rcases assign_enterAll_cases hframes hdeclare name value with
            ⟨hmem, changed, hchanged, hsame, hperform⟩ | ⟨hmem, hperform⟩
          · rw [hperform, reaching, if_pos hmem]
            exact ih hframes hchanged (hsame.trans hlength) hnested hrest
          · have hother : (Operation.assign name value).frameBracket? = none := rfl
            obtain ⟨changed, hchanged⟩ := exists_frames_perform hother hframes
            rw [hperform, reaching, if_neg hmem, assignAll_cons]
            exact ih hchanged hdeclare hlength hnested hrest

/-- A block of an activation leaves nothing behind but the assignments that reached
variables around it. -/
theorem block_eq_assignAll (hframes : storage.frames = frame :: rest)
    (henclosed : Enclosed operations) :
    (performAll operations storage.pushBlock).popBlock =
      assignAll (reaching [[]] operations) storage := by
  have hpush : storage.pushBlock = storage.enterAll [[]] := by
    rw [← pushBlock_enterAll, enterAll_nil]
  have hdeclare : Blocks.Declare [([] : Named α)] [[]] := .push .nil
  obtain ⟨block, hrun⟩ := performAll_enterAll hframes hdeclare rfl henclosed.nested
    henclosed.inside
  rw [hpush, hrun, popBlock_enterAll, enterAll_nil]

/-- What assignments reach from inside a block, a variable has after it. -/
def Restores (storage : Storage α) (operations : List (Operation α)) (name : String) : Prop :=
  (performAll operations storage.pushBlock).popBlock.lookup name =
    (storage.lookup name).map fun found =>
      ((lastValue? (reaching [[]] operations) name).getD found.1, found.2)

theorem restores_of_frames (hframes : storage.frames = frame :: rest)
    (henclosed : Enclosed operations) (name : String) : Restores storage operations name := by
  rw [Restores, block_eq_assignAll hframes henclosed, lookup_assignAll]

/-- Outside all activations there are no blocks to enter or to leave. -/
theorem onFrame_outside (houtside : storage.frames = []) (change : Frame α → Frame α) :
    storage.onFrame change = storage := by
  rw [onFrame, houtside]

theorem frames_perform_outside (houtside : storage.frames = [])
    (hinside : operation.staysInside = true) : (operation.perform storage).frames = [] := by
  cases operation with
  | setInitialising | declareGlobal | pushFrame | popFrame => nomatch hinside
  | pushBlock | popBlock =>
      rw [Operation.perform]
      exact (congrArg frames (onFrame_outside houtside _)).trans houtside
  | declare name value =>
      simp only [Operation.perform, declare, houtside]
      exact houtside
  | assign name value =>
      simp only [Operation.perform, assign, houtside]
      cases hassign : storage.assignGlobal name value with
      | none => exact houtside
      | some result => exact (frames_of_assignGlobal hassign).trans houtside
  | lookup | currentScope | depth => exact houtside

theorem frames_performAll_outside (houtside : storage.frames = [])
    (hinside : ∀ operation ∈ operations, operation.staysInside = true) :
    (performAll operations storage).frames = [] := by
  induction operations generalizing storage with
  | nil => exact houtside
  | cons operation operations ih =>
      obtain ⟨hfirst, hrest⟩ := List.forall_mem_cons.mp hinside
      exact ih (frames_perform_outside houtside hfirst) hrest

theorem lookup_declareGlobal_of_ne (houtside : storage.frames = []) (hother : name ≠ other)
    (value : α) : (storage.declareGlobal name value).lookup other = storage.lookup other := by
  simp only [lookup, declareGlobal, houtside, lookupGlobal, Named.get?_insert, if_neg hother,
    globalScope]

/-- Outside all activations a name that is not declared anew is only assigned. -/
theorem lookup_performAll_outside (houtside : storage.frames = [])
    (hinside : ∀ operation ∈ operations, operation.staysInside = true)
    (hname : ∀ value, .declare name value ∉ operations) (hdeclared : name ∉ declared.flatten) :
    (performAll operations storage).lookup name =
      (storage.lookup name).map fun found =>
        ((lastValue? (reaching declared operations) name).getD found.1, found.2) := by
  induction operations generalizing storage declared with
  | nil => exact (Option.map_id' ..).symm
  | cons operation operations ih =>
      obtain ⟨hfirst, hrest⟩ := List.forall_mem_cons.mp hinside
      have hlater (value : α) : .declare name value ∉ operations := fun hmem =>
        hname value (List.mem_cons_of_mem _ hmem)
      rw [performAll_cons]
      cases operation with
      | setInitialising | declareGlobal | pushFrame | popFrame => nomatch hfirst
      | lookup | currentScope | depth => exact ih houtside hrest hlater hdeclared
      | pushBlock =>
          rw [Operation.perform, pushBlock, onFrame_outside houtside]
          exact ih houtside hrest hlater hdeclared
      | popBlock =>
          rw [Operation.perform, popBlock, onFrame_outside houtside]
          refine ih houtside hrest hlater fun hmem => hdeclared ?_
          obtain ⟨names, hnames, hmem⟩ := List.mem_flatten.mp hmem
          exact List.mem_flatten.mpr ⟨names, List.mem_of_mem_tail hnames, hmem⟩
      | declare other value =>
          have hother : other ≠ name := by
            rintro rfl
            exact hname value (List.mem_cons_self ..)
          have hglobal : storage.declare other value = storage.declareGlobal other value := by
            rw [declare, houtside]
          rw [Operation.perform, hglobal, ← lookup_declareGlobal_of_ne houtside hother value]
          cases declared with
          | nil => exact ih houtside hrest hlater hdeclared
          | cons names declared =>
              refine ih houtside hrest hlater ?_
              simpa [Ne.symm hother] using hdeclared
      | assign other value =>
          have hframes := frames_perform_outside houtside hfirst
          rw [reaching]
          by_cases hother : other = name
          · subst hother
            rw [if_neg hdeclared, ih hframes hrest hlater hdeclared, lookup_perform_assign,
              if_pos rfl, lastValue?_cons, if_pos rfl]
            cases storage.lookup other <;>
              cases lastValue? (reaching declared operations) other <;> rfl
          · rw [ih hframes hrest hlater hdeclared, lookup_perform_assign, if_neg hother]
            split
            · rfl
            · rw [lastValue?_cons, if_neg hother, Option.or_none]

theorem restores_outside (houtside : storage.frames = []) (henclosed : Enclosed operations)
    (hname : ∀ value, .declare name value ∉ operations) : Restores storage operations name := by
  have hafter := frames_performAll_outside houtside henclosed.inside
  rw [Restores, pushBlock, onFrame_outside houtside, popBlock, onFrame_outside hafter]
  exact lookup_performAll_outside houtside henclosed.inside hname (by simp)

/-! ## Activations -/

theorem frameBracket?_cases (operation : Operation α) :
    (∃ subprogram, operation = .pushFrame subprogram) ∨ operation = .popFrame ∨
      operation.frameBracket? = none := by
  cases operation with
  | pushFrame subprogram => exact .inl ⟨subprogram, rfl⟩
  | popFrame => exact .inr (.inl rfl)
  | _ => exact .inr (.inr rfl)

/-- As long as no more frames are ended than were started above them, some frames stay
as they are below all others. -/
theorem frames_performAll {above below : List (Frame α)} {depth left : Nat}
    (hframes : storage.frames = above ++ below) (habove : above.length = depth + 1)
    (hnested : nesting Operation.frameBracket? depth operations = some left) :
    ∃ above, above.length = left + 1 ∧
      (performAll operations storage).frames = above ++ below := by
  induction operations generalizing storage above depth with
  | nil =>
      obtain rfl : depth = left := Option.some.inj hnested
      exact ⟨above, habove, hframes⟩
  | cons operation operations ih =>
      obtain ⟨frame, above, rfl⟩ := List.exists_cons_of_length_eq_add_one habove
      rw [performAll_cons]
      rcases frameBracket?_cases operation with ⟨subprogram, rfl⟩ | rfl | hother
      · obtain ⟨entered, hentered⟩ : ∃ entered,
            (storage.pushFrame subprogram).frames = entered :: storage.frames := ⟨_, rfl⟩
        have hframes' : (storage.pushFrame subprogram).frames =
            (entered :: frame :: above) ++ below := by
          simp only [hentered, hframes, List.cons_append]
        exact ih hframes' (congrArg (· + 1) habove) hnested
      · cases depth with
        | zero => nomatch hnested
        | succ depth => exact ih (congrArg List.tail hframes) (Nat.succ.inj habove) hnested
      · simp only [nesting, hother] at hnested
        obtain ⟨changed, hchanged⟩ := exists_frames_perform hother hframes
        have hframes' : (operation.perform storage).frames = (changed :: above) ++ below := hchanged
        exact ih hframes' habove hnested

/-! ## The storage of a run -/

/-- A storage answers as a stack of scopes does. -/
structure ScopeStack (storage : Storage α) : Prop where
  /-- Every frame has a block to declare variables in. -/
  blocks : ∀ frame ∈ storage.frames, frame.blocks ≠ []
  /-- A variable is found right after its declaration, in the scope where that was made. -/
  declared : ∀ name value,
    (storage.declare name value).lookup name = some (value, storage.currentScope)
  /-- What is found can be assigned, in the scope where it is found. -/
  assign_iff : ∀ name value scope,
    (∃ updated, storage.assign name value = some (updated, scope)) ↔
      ∃ old, storage.lookup name = some (old, scope)
  /-- An assignment changes the one variable that was found. -/
  assigned : ∀ name value updated scope, storage.assign name value = some (updated, scope) →
    ∀ other, updated.lookup other =
      if name = other then some (value, scope) else storage.lookup other
  /-- An assignment that finds nothing changes nothing. -/
  unassigned : ∀ name value, storage.assign name value = none →
    (Operation.assign name value).perform storage = storage
  /-- A block is left without a trace of what it declares; outside all activations a
  declaration is global and stays. -/
  block : ∀ operations, Enclosed operations → ∀ name,
    (storage.frames = [] → ∀ value, .declare name value ∉ operations) →
    Restores storage operations name
  /-- The frames below an activation stay as they are until it ends, and then they are
  all the frames that there are. -/
  activation : ∀ subprogram operations left,
    nesting Operation.frameBracket? 0 operations = some left →
    ∃ above, above.length = left + 1 ∧
      (performAll operations (storage.pushFrame subprogram)).frames = above ++ storage.frames ∧
      (left = 0 →
        (performAll operations (storage.pushFrame subprogram)).popFrame.frames = storage.frames)

theorem exists_assign_iff (storage : Storage α) (name : String) (value : α) (scope : Scope) :
    (∃ updated, storage.assign name value = some (updated, scope)) ↔
      ∃ old, storage.lookup name = some (old, scope) := by
  constructor
  · rintro ⟨updated, hassign⟩
    obtain ⟨old, hold, _⟩ := rebound_of_assign hassign
    exact ⟨old, hold⟩
  · rintro ⟨old, hold⟩
    cases hassign : storage.assign name value with
    | none =>
        rw [assign_eq_none_iff.mp hassign] at hold
        nomatch hold
    | some result =>
        obtain ⟨_, hfound, _⟩ := rebound_of_assign hassign
        rw [hold] at hfound
        cases hfound
        exact ⟨result.1, rfl⟩

/-- After any operations from the first one on, also if some end more than was begun, the
frames have as many blocks as those operations leave them, and the storage is a stack of
scopes. -/
theorem scopeStack_performAll (operations : List (Operation α)) :
    (performAll operations .empty).frames.map (fun frame : Frame α => frame.blocks.length) =
        blockCounts operations ∧
      (performAll operations .empty : Storage α).ScopeStack := by
  refine ⟨blockCounts_performAll operations, ?_⟩
  generalize performAll operations .empty = storage
  constructor
  · intro frame _
    rw [frame.blocks_eq_cons]
    exact nofun
  · exact storage.lookup_declare
  · exact storage.exists_assign_iff
  · intro name value updated scope hassign other
    exact lookup_of_assign hassign
  · intro name value hnone
    rw [Operation.perform, hnone]
    rfl
  · intro inside henclosed name houtside
    cases hframes : storage.frames with
    | nil => exact restores_outside hframes henclosed (houtside hframes)
    | cons frame rest => exact restores_of_frames hframes henclosed name
  · intro subprogram inside left hnested
    have hpush : (storage.pushFrame subprogram).frames = [_] ++ storage.frames := rfl
    obtain ⟨above, habove, hframes⟩ := frames_performAll hpush rfl hnested
    refine ⟨above, habove, hframes, ?_⟩
    rintro rfl
    obtain ⟨frame, rfl⟩ := List.length_eq_one_iff.mp habove
    exact congrArg List.tail hframes

/-- Outside all activations the declaration stays after what should be its block. -/
theorem not_restores_outside :
    Enclosed [(.declare "x" 1 : Operation Nat)] ∧
      ¬Restores (performAll [] .empty) [(.declare "x" 1 : Operation Nat)] "x" :=
  ⟨⟨rfl, by simp [Operation.staysInside]⟩, fun hrestores => nomatch hrestores⟩

end Storage

end ArchSpec
