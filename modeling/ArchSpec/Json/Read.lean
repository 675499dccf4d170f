import ArchSpec.Data.Size
import ArchSpec.Json.Tree

/-!
# Reading JSON text

The grammar is the standard one: blanks are space, tab, line feed and carriage
return, strings hold no control characters, numbers have no leading zeros and
no plus sign, and nothing but blanks may follow the value.  An integer is one
without fraction and exponent that fits 64 bits; minus zero is none.  Readers
take the characters that are left and return those that they do not use.
-/

namespace ArchSpec.Json

def isBlank (c : Char) : Bool := c = ' ' || c = '\t' || c = '\n' || c = '\r'

def skipBlanks (chars : List Char) : List Char := chars.dropWhile isBlank

def hexValue? (c : Char) : Option Nat :=
  if '0' ≤ c ∧ c ≤ '9' then some (c.toNat - '0'.toNat)
  else if 'a' ≤ c ∧ c ≤ 'f' then some (c.toNat - 'a'.toNat + 10)
  else if 'A' ≤ c ∧ c ≤ 'F' then some (c.toNat - 'A'.toNat + 10)
  else none

/-- The number that four hexadecimal digits spell. -/
def unit? (a b c d : Char) : Option Nat := do
  return (((← hexValue? a) * 16 + (← hexValue? b)) * 16 + (← hexValue? c)) * 16 +
    (← hexValue? d)

/-- The character of a one-letter escape. -/
def shortEscape? : Char → Option Char
  | '"' => some '"'
  | '\\' => some '\\'
  | '/' => some '/'
  | 'b' => some '\x08'
  | 'f' => some '\x0c'
  | 'n' => some '\n'
  | 'r' => some '\r'
  | 't' => some '\t'
  | _ => none

def isHighSurrogate (unit : Nat) : Bool := 0xd800 ≤ unit && unit < 0xdc00

def isLowSurrogate (unit : Nat) : Bool := 0xdc00 ≤ unit && unit < 0xe000

/-- A part of a string: a character, or a UTF-16 unit written by number. -/
inductive Piece where
  | char (c : Char)
  | unit (value : Nat)

/-- The parts of a string after its opening quote; `seen` holds the parts so
far, the latest first. -/
def scan (seen : List Piece) : List Char → Option (List Piece × List Char)
  | '"' :: rest => some (seen.reverse, rest)
  | '\\' :: 'u' :: a :: b :: c :: d :: rest =>
      match unit? a b c d with
      | some value => scan (.unit value :: seen) rest
      | none => none
  | '\\' :: c :: rest =>
      match shortEscape? c with
      | some escaped => scan (.char escaped :: seen) rest
      | none => none
  | c :: rest =>
      if c.toNat < 0x20 ∨ c = '\\' then none else scan (.char c :: seen) rest
  | [] => none

/-- The characters that parts denote, unless a surrogate lacks its partner;
`seen` holds the characters so far, the latest first. -/
def joinPieces (seen : List Char) : List Piece → Option (List Char)
  | [] => some seen.reverse
  | .char c :: rest => joinPieces (c :: seen) rest
  | .unit high :: .unit low :: rest =>
      if isHighSurrogate high && isLowSurrogate low then
        joinPieces (Char.ofNat (0x10000 + (high - 0xd800) * 0x400 + (low - 0xdc00)) :: seen)
          rest
      else if isHighSurrogate high || isLowSurrogate high then none
      else joinPieces (Char.ofNat high :: seen) (.unit low :: rest)
  | .unit value :: rest =>
      if isHighSurrogate value || isLowSurrogate value then none
      else joinPieces (Char.ofNat value :: seen) rest

/-- A string after its opening quote, with the text that it denotes if any. -/
def readText (chars : List Char) : Option (Option String × List Char) := do
  let (pieces, rest) ← scan [] chars
  return ((joinPieces [] pieces).map String.ofList, rest)

def readDigits (chars : List Char) : Option (List Char × List Char) :=
  match chars.takeWhile Char.isDigit with
  | [] => none
  | digits => some (digits, chars.dropWhile Char.isDigit)

/-- The digits before the fraction, without leading zeros. -/
def readWhole : List Char → Option (List Char × List Char)
  | '0' :: rest =>
      match rest with
      | c :: _ => if c.isDigit then none else some (['0'], rest)
      | [] => some (['0'], rest)
  | chars => readDigits chars

def readFraction : List Char → Option (List Char × List Char)
  | '.' :: rest => do
      let (digits, rest) ← readDigits rest
      return ('.' :: digits, rest)
  | chars => some ([], chars)

def readSign : List Char → List Char × List Char
  | '+' :: rest => (['+'], rest)
  | '-' :: rest => (['-'], rest)
  | chars => ([], chars)

def readExponent : List Char → Option (List Char × List Char)
  | c :: rest =>
      if c = 'e' ∨ c = 'E' then do
        let (sign, rest) := readSign rest
        let (digits, rest) ← readDigits rest
        return (c :: sign ++ digits, rest)
      else some ([], c :: rest)
  | [] => some ([], [])

def decimalValue (digits : List Char) : Nat :=
  digits.foldl (fun value c => value * 10 + (c.toNat - '0'.toNat)) 0

/-- The value of a number token, from its parts. -/
def ofNumber (negative : Bool) (whole tail : List Char) : Json :=
  let value := decimalValue whole
  let spelling := String.ofList ((if negative then ['-'] else []) ++ whole ++ tail)
  if tail ≠ [] then .other spelling
  else if negative then
    if value = 0 ∨ pow2 63 < value then .other spelling else .int (-value)
  else if pow2 64 ≤ value then .other spelling
  else .int value

def readNumber (negative : Bool) (chars : List Char) : Option (Json × List Char) := do
  let (whole, rest) ← readWhole chars
  let (fraction, rest) ← readFraction rest
  let (exponent, rest) ← readExponent rest
  return (ofNumber negative whole (fraction ++ exponent), rest)

/-- A value that denotes no text. -/
def unpaired : Json := .other "\"\\ud800\""

/-- An object with entries; a key that denotes no text spoils it. -/
def ofEntries (entries : List (Option String × Json)) : Json :=
  match entries.mapM fun entry => entry.1.map fun key => (key, entry.2) with
  | some entries => .obj entries
  | none => unpaired

mutual

def readValue : Nat → List Char → Option (Json × List Char)
  | 0, _ => none
  | fuel + 1, chars =>
      match skipBlanks chars with
      | 'n' :: 'u' :: 'l' :: 'l' :: rest => some (.null, rest)
      | 't' :: 'r' :: 'u' :: 'e' :: rest => some (.bool true, rest)
      | 'f' :: 'a' :: 'l' :: 's' :: 'e' :: rest => some (.bool false, rest)
      | '"' :: rest => do
          let (text, rest) ← readText rest
          return ((text.map Json.str).getD unpaired, rest)
      | '[' :: rest =>
          match skipBlanks rest with
          | ']' :: rest => some (.arr [], rest)
          | rest => do
              let (items, rest) ← readItems fuel rest
              return (.arr items, rest)
      | '\x7b' :: rest =>
          match skipBlanks rest with
          | '\x7d' :: rest => some (.obj [], rest)
          | rest => do
              let (entries, rest) ← readEntries fuel rest
              return (ofEntries entries, rest)
      | '-' :: rest => readNumber true rest
      | rest => readNumber false rest

def readItems : Nat → List Char → Option (List Json × List Char)
  | 0, _ => none
  | fuel + 1, chars => do
      let (item, rest) ← readValue fuel chars
      match skipBlanks rest with
      | ']' :: rest => return ([item], rest)
      | ',' :: rest => do
          let (items, rest) ← readItems fuel rest
          return (item :: items, rest)
      | _ => none

def readEntries : Nat → List Char → Option (List (Option String × Json) × List Char)
  | 0, _ => none
  | fuel + 1, chars =>
      match skipBlanks chars with
      | '"' :: rest => do
          let (key, rest) ← readText rest
          match skipBlanks rest with
          | ':' :: rest => do
              let (value, rest) ← readValue fuel rest
              match skipBlanks rest with
              | '\x7d' :: rest => return ([(key, value)], rest)
              | ',' :: rest => do
                  let (entries, rest) ← readEntries fuel rest
                  return ((key, value) :: entries, rest)
              | _ => none
          | _ => none
      | _ => none

end

def ofString? (text : String) : Option Json := do
  let chars := text.toList
  let (value, rest) ← readValue (2 * chars.length + 2) chars
  if skipBlanks rest = [] then return value else none

end ArchSpec.Json
