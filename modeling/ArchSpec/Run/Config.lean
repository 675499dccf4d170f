import ArchSpec.Check.Finding
import ArchSpec.Json.Decoder

/-!
# Run configurations

Every setting has a default.  As JSON, a configuration is an object without
other keys, or a list of the first settings in order.
-/

namespace ArchSpec

structure Config where
  strictness : Strictness
  /-- The rounds before a loop warns; zero means never. -/
  unroll : UInt32
  /-- Whether accesses to variables are recorded. -/
  instrument : Bool

namespace Config

open Json (Decoder)
open Json.Decoder

/-- The configuration of a run that asks for nothing. -/
def default : Config := ⟨.typeCheck, 0, false⟩

def keys : List String := ["strictness", "unroll", "instrument"]

def encode (config : Config) : Json :=
  .obj [("strictness", .str config.strictness.name), ("unroll", .nat config.unroll.toNat),
    ("instrument", .bool config.instrument)]

/-- The entries of an object, none of which may be unknown. -/
def onlyKnown (entries : Named Json) : Option (Named Json) :=
  if (Named.names entries).all keys.contains ∧ Named.repeats (Named.names entries) = []
  then some entries else none

def given : Decoder Fields
  | level + 1, .obj entries => (onlyKnown entries).map (⟨level, ·⟩)
  | level + 1, .arr items =>
      if items.length ≤ keys.length then some ⟨level, keys.zip items⟩ else none
  | _, _ => none

/-- A setting, or its default. -/
def setting {α : Type} (fields : Fields) (name : String) (item : Decoder α)
    (default : α) : Option α :=
  match Named.get? fields.given name with
  | some json => item fields.level json
  | none => some default

def decode : Decoder Config := fun level json => do
  let fields ← given level json
  return {
    strictness := ← setting fields "strictness"
      (Json.Decoder.name Strictness.all Strictness.name) default.strictness
    unroll := ← setting fields "unroll" word default.unroll
    instrument := ← setting fields "instrument" flag default.instrument }

def ofJson? (json : Json) : Option Config := decode json.depth json

end Config

end ArchSpec
