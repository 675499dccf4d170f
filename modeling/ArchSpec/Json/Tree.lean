import ArchSpec.Text.Quoted

/-!
# JSON trees and their text

Objects keep their entries in order, repeated keys included, because a reader
may have to refuse them.  Integers are those that fit 64 bits, with or without
a sign; every other number is kept as it is spelled, and so is a string that
denotes no text because of an unpaired surrogate.
-/

namespace ArchSpec

inductive Json where
  | null
  | bool (b : Bool)
  | int (n : Int)
  /-- A token that denotes neither a 64-bit integer nor a text. -/
  | other (spelling : String)
  | str (text : String)
  | arr (items : List Json)
  | obj (entries : List (String × Json))
deriving Inhabited

namespace Json

def nat (n : Nat) : Json := .int n

/-- An optional value, null if there is none. -/
def ofOption (value : Option Json) : Json := value.getD .null

def strings (texts : List String) : Json := .arr (texts.map .str)

mutual

/-- How deep arrays and objects nest. -/
def depth : Json → Nat
  | arr items => depthItems items + 1
  | obj entries => depthEntries entries + 1
  | _ => 0

def depthItems : List Json → Nat
  | [] => 0
  | first :: rest => max (depth first) (depthItems rest)

def depthEntries : List (String × Json) → Nat
  | [] => 0
  | (_, first) :: rest => max (depth first) (depthEntries rest)

end

/-- One character of a string; only control characters, the quote and the
backslash are escaped. -/
def escapeChar (c : Char) : String :=
  match c with
  | '"' => "\\\""
  | '\\' => "\\\\"
  | '\n' => "\\n"
  | '\r' => "\\r"
  | '\t' => "\\t"
  | '\x08' => "\\b"
  | '\x0c' => "\\f"
  | c =>
      if c.toNat < 0x20 then
        (if c.toNat < 0x10 then "\\u000" else "\\u00") ++ Text.hexDigits c.toNat
      else String.singleton c

def quote (text : String) : String :=
  "\"" ++ String.join (text.toList.map escapeChar) ++ "\""

mutual

/-- The text without any blanks. -/
def compact : Json → String
  | null => "null"
  | bool b => if b then "true" else "false"
  | int n => toString n
  | other spelling => spelling
  | str text => quote text
  | arr items => "[" ++ compactItems items ++ "]"
  | obj entries => "\x7b" ++ compactEntries entries ++ "\x7d"

def compactItems : List Json → String
  | [] => ""
  | [item] => compact item
  | item :: rest => compact item ++ "," ++ compactItems rest

def compactEntries : List (String × Json) → String
  | [] => ""
  | [(key, value)] => quote key ++ ":" ++ compact value
  | (key, value) :: rest =>
      quote key ++ ":" ++ compact value ++ "," ++ compactEntries rest

end

/-- A new line at a level of nesting, two blanks for each level. -/
def newLine (level : Nat) : String := "\n" ++ "".pushn ' ' (2 * level)

mutual

/-- The text with one item or entry on each line. -/
def prettyAt (level : Nat) : Json → String
  | arr [] => "[]"
  | arr items => "[" ++ prettyItems (level + 1) items ++ newLine level ++ "]"
  | obj [] => "\x7b\x7d"
  | obj entries =>
      "\x7b" ++ prettyEntries (level + 1) entries ++ newLine level ++ "\x7d"
  | value => compact value

/-- Items, each on a line of its own. -/
def prettyItems (level : Nat) : List Json → String
  | [] => ""
  | [item] => newLine level ++ prettyAt level item
  | item :: rest => newLine level ++ prettyAt level item ++ "," ++ prettyItems level rest

/-- Entries, each on a line of its own. -/
def prettyEntries (level : Nat) : List (String × Json) → String
  | [] => ""
  | [(key, value)] => newLine level ++ quote key ++ ": " ++ prettyAt level value
  | (key, value) :: rest =>
      newLine level ++ quote key ++ ": " ++ prettyAt level value ++ "," ++
        prettyEntries level rest

end

/-- The text with one item or entry on each line. -/
def pretty (json : Json) : String := json.prettyAt 0

end Json

end ArchSpec
