import ArchSpec.Data.Named

/-!
# TOML tables

A document is a table of items.  A dotted key opens the tables on its way, and
so does a header; which of the two opened a table decides who may add to it
later.  A table that a header has named may not be named again.  Floats and
dates have no place in a configuration, so there is no item for them.
-/

namespace ArchSpec.Toml

/-- How a table came to be. -/
structure Origin where
  /-- Opened on the way to another table, and not named itself. -/
  implicit : Bool
  /-- Opened by a dotted key. -/
  dotted : Bool

inductive Item where
  | string (text : String)
  | integer (n : Int)
  | boolean (b : Bool)
  | array (items : List Item)
  | inline (entries : List (String × Item))
  | table (origin : Origin) (entries : List (String × Item))
  /-- Tables that headers in double brackets add one by one. -/
  | tables (elements : List (List (String × Item)))

/-- A change to a table, which may be refused. -/
abbrev Change := Origin → Named Item → Option (Origin × Named Item)

/-- Applies a change to the table that an item holds; of several tables, to the
last one. -/
def Item.change (dotted : Bool) (change : Change) : Item → Option Item
  | .table origin entries =>
      if dotted && !origin.implicit then none
      else (change origin entries).map fun (origin, entries) => .table origin entries
  | .tables elements =>
      match elements.reverse with
      | last :: before =>
          (change ⟨false, false⟩ last).map fun (_, last) =>
            .tables (last :: before).reverse
      | [] => none
  | _ => none

/-- Applies a change to the table at the end of a path, opening tables on the
way. -/
def descend (dotted : Bool) (change : Change) : List String → Change
  | [] => change
  | key :: rest => fun origin entries => do
      let item := (Named.get? entries key).getD (.table ⟨true, dotted⟩ [])
      let item ← item.change dotted (descend dotted change rest)
      return (origin, Named.insert entries key item)

/-- Adds an item under a key that is not taken.  A plain key may not add to a
table of dotted keys, and a dotted one not to any other. -/
def addItem (plain : Bool) (key : String) (item : Item) : Change :=
  fun origin entries =>
    if origin.dotted = plain ∨ (Named.get? entries key).isSome then none
    else some (origin, Named.insert entries key item)

def nameTable (key : String) : Change := fun origin entries =>
  match Named.get? entries key with
  | none => some (origin, Named.insert entries key (.table ⟨false, false⟩ []))
  | some (.table ⟨true, false⟩ inner) =>
      some (origin, Named.insert entries key (.table ⟨false, false⟩ inner))
  | some _ => none

def nameElement (key : String) : Change := fun origin entries =>
  match Named.get? entries key with
  | none => some (origin, Named.insert entries key (.tables [[]]))
  | some (.tables elements) =>
      some (origin, Named.insert entries key (.tables (elements ++ [[]])))
  | some _ => none

/-- A document so far: its items, and the path of the last header. -/
structure Document where
  entries : Named Item
  header : List String

namespace Document

def empty : Document := ⟨[], []⟩

def change (document : Document) (path : List String) (change : Change) :
    Option Document :=
  (descend false change path ⟨false, false⟩ document.entries).map fun (_, entries) =>
    { document with entries }

/-- Adds an item under a key, which may be dotted. -/
def addKey (document : Document) (path : List String) (key : String) (item : Item) :
    Option Document :=
  document.change document.header (descend true (addItem path.isEmpty key item) path)

def addHeader (document : Document) (path : List String) (key : String)
    (several : Bool) : Option Document :=
  (document.change path (if several then nameElement key else nameTable key)).map
    fun document => { document with header := path ++ [key] }

end Document

end ArchSpec.Toml
