import ArchSpec.Run.Config
import ArchSpec.Toml.Read

/-!
# Configurations as TOML

Every setting is a key of the document; no other key is accepted.  A level of
strictness is a string, or a table whose only key names the level and holds
nothing.
-/

namespace ArchSpec.Config

open Toml (Item)

/-- Nothing, as an array or a table. -/
def isNothing : Item → Bool
  | .array [] => true
  | .inline [] => true
  | .table _ [] => true
  | _ => false

/-- The level of strictness that the only entry of a table names. -/
def onlyEntry : Named Item → Option Strictness
  | [(key, item)] => if isNothing item then Strictness.ofName? key else none
  | _ => none

/-- The level of strictness that an item denotes. -/
def strictnessOf : Item → Option Strictness
  | .string text => Strictness.ofName? text
  | .inline entries => onlyEntry entries
  | .table _ entries => onlyEntry entries
  | _ => none

def addSetting (config : Config) (key : String) (item : Item) : Option Config :=
  match key, item with
  | "strictness", item => (strictnessOf item).map fun strictness =>
      { config with strictness }
  | "unroll", .integer n =>
      if 0 ≤ n ∧ n < pow2 32 then some { config with unroll := UInt32.ofNat n.toNat } else none
  | "instrument", .boolean instrument => some { config with instrument }
  | _, _ => none

def ofToml? (text : String) : Option Config := do
  (← Toml.ofString? text).foldlM
    (fun config (key, item) => config.addSetting key item) default

end ArchSpec.Config
