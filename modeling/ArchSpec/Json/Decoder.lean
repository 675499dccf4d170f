import ArchSpec.Json.Tree
import ArchSpec.Data.Named
import ArchSpec.Data.Size

/-!
# Decoders

A decoder gives the value that a JSON tree denotes, if it denotes one.  Its
first argument bounds how deep arrays and objects may nest; parts that it does
not look at are not counted.

An object with known fields ignores other keys, refuses a known key that occurs
twice, and may be given as the list of its fields in order.  A choice is an
object with one entry, whose key says which case it is; a case without content
may be given as its name alone.
-/

namespace ArchSpec.Json

/-- Where a tree comes from.  In a text, the fields of a case may be given as a
list; in a tree, only those of an object that is no case. -/
inductive Form where
  | text
  | tree
deriving DecidableEq

/-- The value that a tree of bounded depth denotes. -/
abbrev Decoder (α : Type) := Nat → Json → Option α

namespace Decoder

variable {α β : Type}

def text : Decoder String
  | _, .str text => some text
  | _, _ => none

def flag : Decoder Bool
  | _, .bool b => some b
  | _, _ => none

def natBelow (bound : Nat) : Decoder Nat
  | _, .int n => if 0 ≤ n ∧ n < bound then some n.toNat else none
  | _, _ => none

def word : Decoder UInt32 := fun level json =>
  (natBelow (pow2 32) level json).map UInt32.ofNat

def size : Decoder UInt64 := fun level json =>
  (natBelow Size.bound level json).map UInt64.ofNat

/-- Null, or what `item` decodes. -/
def optional (item : Decoder α) : Decoder (Option α)
  | _, .null => some none
  | level, json => (item level json).map some

def all (item : Decoder α) (level : Nat) : List Json → Option (List α)
  | [] => some []
  | first :: rest => do
      let value ← item level first
      let values ← all item level rest
      return value :: values

/-- An array. -/
def list (item : Decoder α) : Decoder (List α)
  | level + 1, .arr items => all item level items
  | _, _ => none

/-- An array of two. -/
def pair (first : Decoder α) (second : Decoder β) : Decoder (α × β)
  | level + 1, .arr [left, right] => do
      let left ← first level left
      let right ← second level right
      return (left, right)
  | _, _ => none

/-- A choice: the name of the case, and its content if it is given. -/
def choice (read : String → Option Json → Nat → Option α) : Decoder α
  | level, .str case => read case none level
  | level + 1, .obj [(case, content)] => read case (some content) level
  | _, _ => none

/-- The content of a case that has some. -/
def content (item : Decoder α) (given : Option Json) (level : Nat) : Option α :=
  match given with
  | some json => item level json
  | none => none

/-- A case without content, which may be given as null. -/
def empty (value : α) (given : Option Json) : Option α :=
  match given with
  | none => some value
  | some .null => some value
  | some _ => none

/-- A choice among names. -/
def name (values : List α) (nameOf : α → String) : Decoder α :=
  choice fun case given _ => do
    let value ← values.find? fun value => nameOf value = case
    empty value given

/-- The known fields that are given, and the depth that is left for them. -/
structure Fields where
  level : Nat
  given : Named Json

/-- The known entries of an object, each of which may occur once. -/
def knownEntries (names : List String) (entries : Named Json) : Option (Named Json) :=
  let known := entries.filter fun entry => names.contains entry.1
  if Named.repeats (Named.names known) = [] then some known else none

/-- An object with known fields; `listed` says whether a list of all fields is
accepted too. -/
def fields (listed : Bool) (names : List String) : Decoder Fields
  | level + 1, .obj entries => (knownEntries names entries).map (⟨level, ·⟩)
  | level + 1, .arr items =>
      if listed ∧ items.length = names.length then some ⟨level, names.zip items⟩
      else none
  | _, _ => none

/-- An object that is no case of a choice. -/
def object (names : List String) : Decoder Fields := fields true names

/-- The fields of a case of a choice. -/
def caseFields (form : Form) (names : List String) : Decoder Fields :=
  fields (form = .text) names

namespace Fields

/-- A field that has to be there. -/
def required (fields : Fields) (name : String) (item : Decoder α) : Option α := do
  item fields.level (← Named.get? fields.given name)

/-- A field that is null if it is missing. -/
def optional (fields : Fields) (name : String) (item : Decoder α) : Option (Option α) :=
  match Named.get? fields.given name with
  | some json => Decoder.optional item fields.level json
  | none => some none

end Fields

end Decoder

end ArchSpec.Json
