import ArchSpec.Json.Decoder
import ArchSpec.Trace.Event

/-!
# Traces as JSON

An event is one object in which the kind of access stands beside the other
fields.  It may also be given as the list of the access, the identifier and the
scope; the fields of the scope may then be a list too, as they may be in a text.
-/

namespace ArchSpec

open Json (Decoder Form)
open Json.Decoder

def Scope.encode : Scope → Json
  | .global initialising =>
      .obj [("Global", .obj [("init", .bool initialising)])]
  | .activation subprogram number =>
      .obj [("Local", .obj [("subprogram", .str subprogram),
        ("instance", .nat number.toNat)])]

def Event.encode (event : Event) : Json :=
  .obj [("access", .str event.access.name), ("identifier", .str event.identifier),
    ("scope", event.scope.encode)]

def Trace.toJson (events : List Event) : String :=
  (Json.arr (events.map Event.encode)).pretty

def Scope.decode (form : Form) : Decoder Scope :=
  choice fun tag given level =>
    match tag with
    | "Global" => do
        let parts ← content (caseFields form ["init"]) given level
        return .global (← parts.required "init" flag)
    | "Local" => do
        let parts ← content (caseFields form ["subprogram", "instance"]) given level
        return .activation (← parts.required "subprogram" text)
          (← parts.required "instance" word)
    | _ => none

def Access.decode : Decoder Access := fun level json => do
  match ← text level json with
  | "read" => return .read
  | "write" => return .write
  | _ => none

def Event.decode : Decoder Event := fun level json => do
  let parts ← object ["access", "identifier", "scope"] level json
  return ⟨← parts.required "access" Access.decode, ← parts.required "identifier" text,
    ← parts.required "scope" (Scope.decode .text)⟩

end ArchSpec
