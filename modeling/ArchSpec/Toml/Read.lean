import ArchSpec.Json.Read
import ArchSpec.Toml.Table

/-!
# Reading TOML text

A document is a sequence of lines: a key with a value, a header, or nothing,
each with an optional comment.  Readers take the characters that are left and
return those that they do not use.
-/

namespace ArchSpec.Toml

open Json (hexValue? decimalValue)

def isBlank (c : Char) : Bool := c = ' ' || c = '\t'

def skipBlanks (chars : List Char) : List Char := chars.dropWhile isBlank

/-- Characters of comments and strings: no control characters but the tab. -/
def isPlain (c : Char) : Bool := c = '\t' || (0x20 ≤ c.toNat && c.toNat ≠ 0x7f)

/-- The characters after a comment, if one stands here. -/
def skipComment : List Char → List Char
  | '#' :: rest => rest.dropWhile isPlain
  | chars => chars

def lineBreak? : List Char → Option (List Char)
  | '\n' :: rest => some rest
  | '\r' :: '\n' :: rest => some rest
  | _ => none

/-- The characters after blanks, comments and line breaks. -/
def skipLines : Nat → List Char → List Char
  | 0, chars => chars
  | fuel + 1, chars =>
      let rest := skipComment (skipBlanks chars)
      match lineBreak? rest with
      | some rest => skipLines fuel rest
      | none => rest

def hexNumber? (digits : List Char) : Option Nat :=
  digits.foldlM (fun value c => (hexValue? c).map (value * 16 + ·)) 0

/-- The character with a code point, which is no surrogate. -/
def scalar? (digits : List Char) : Option Char := do
  let code ← hexNumber? digits
  if code.isValidChar then return Char.ofNat code else none

def readEscape : List Char → Option (Char × List Char)
  | 'b' :: rest => some ('\x08', rest)
  | 't' :: rest => some ('\t', rest)
  | 'n' :: rest => some ('\n', rest)
  | 'f' :: rest => some ('\x0c', rest)
  | 'r' :: rest => some ('\r', rest)
  | '"' :: rest => some ('"', rest)
  | '\\' :: rest => some ('\\', rest)
  | 'u' :: rest =>
      if rest.length < 4 then none
      else (scalar? (rest.take 4)).map fun c => (c, rest.drop 4)
  | 'U' :: rest =>
      if rest.length < 8 then none
      else (scalar? (rest.take 8)).map fun c => (c, rest.drop 8)
  | _ => none

/-- A string on one line after its opening quote. -/
def readBasic : Nat → List Char → List Char → Option (String × List Char)
  | 0, _, _ => none
  | _ + 1, seen, '"' :: rest => some (String.ofList seen.reverse, rest)
  | fuel + 1, seen, '\\' :: rest => do
      let (c, rest) ← readEscape rest
      readBasic fuel (c :: seen) rest
  | fuel + 1, seen, c :: rest =>
      if isPlain c then readBasic fuel (c :: seen) rest else none
  | _ + 1, _, [] => none

/-- A literal string on one line after its opening quote. -/
def readLiteral (chars : List Char) : Option (String × List Char) :=
  match chars.dropWhile fun c => isPlain c && c ≠ '\'' with
  | '\'' :: rest =>
      some (String.ofList (chars.takeWhile fun c => isPlain c && c ≠ '\''), rest)
  | _ => none

/-- The characters after a line break right after the opening quotes. -/
def skipFirstBreak (chars : List Char) : List Char := (lineBreak? chars).getD chars

/-- A backslash at the end of a line swallows the blanks up to the next text. -/
def skipContinuation (fuel : Nat) (chars : List Char) : Option (List Char) :=
  (lineBreak? (skipBlanks chars)).map (go fuel)
where
  /-- Skips blanks and line breaks. -/
  go : Nat → List Char → List Char
    | 0, chars => chars
    | fuel + 1, chars =>
        match lineBreak? (skipBlanks chars) with
        | some rest => go fuel rest
        | none => skipBlanks chars

/-- A string over several lines after its opening quotes; `quote` is the
character that closes it threefold.  Up to two more quotes belong to the text. -/
def readLines (quote : Char) : Nat → List Char → List Char → Option (String × List Char)
  | 0, _, _ => none
  | fuel + 1, seen, chars =>
      let quotes := (chars.takeWhile (· = quote)).length
      if 3 ≤ quotes then
        if quotes ≤ 5 then
          some (String.ofList (List.replicate (quotes - 3) quote ++ seen).reverse,
            chars.drop quotes)
        else none
      else
        match lineBreak? chars with
        | some rest => readLines quote fuel ('\n' :: seen) rest
        | none =>
            match chars with
            | '\\' :: rest =>
                if quote = '"' then
                  match skipContinuation fuel rest with
                  | some rest => readLines quote fuel seen rest
                  | none => do
                      let (c, rest) ← readEscape rest
                      readLines quote fuel (c :: seen) rest
                else readLines quote fuel ('\\' :: seen) rest
            | c :: rest =>
                if isPlain c then readLines quote fuel (c :: seen) rest else none
            | [] => none

def readString (fuel : Nat) : List Char → Option (String × List Char)
  | '"' :: '"' :: '"' :: rest => readLines '"' fuel [] (skipFirstBreak rest)
  | '\'' :: '\'' :: '\'' :: rest => readLines '\'' fuel [] (skipFirstBreak rest)
  | '"' :: rest => readBasic fuel [] rest
  | '\'' :: rest => readLiteral rest
  | _ => none

def isBareKey (c : Char) : Bool := c.isAlphanum || c = '_' || c = '-'

def readSimpleKey (fuel : Nat) : List Char → Option (String × List Char)
  | '"' :: rest => readBasic fuel [] rest
  | '\'' :: rest => readLiteral rest
  | chars =>
      match chars.takeWhile isBareKey with
      | [] => none
      | key => some (String.ofList key, chars.dropWhile isBareKey)

/-- A key with its dotted parts: the path and the last part.  Blanks around it
are skipped. -/
def readKey : Nat → List Char → Option (List String × String × List Char)
  | 0, _ => none
  | fuel + 1, chars => do
      let (part, rest) ← readSimpleKey fuel (skipBlanks chars)
      match skipBlanks rest with
      | '.' :: rest => do
          let (path, last, rest) ← readKey fuel rest
          return (part :: path, last, rest)
      | rest => return ([], part, rest)

/-- Digits, with single underscores between them. -/
def readGroups (isDigit : Char → Bool) : List Char → Option (List Char × List Char)
  | c :: rest =>
      if isDigit c then
        match rest with
        | '_' :: d :: more =>
            if isDigit d then (readGroups isDigit (d :: more)).map fun (digits, rest) =>
              (c :: digits, rest)
            else some ([c], rest)
        | d :: more =>
            if isDigit d then (readGroups isDigit (d :: more)).map fun (digits, rest) =>
              (c :: digits, rest)
            else some ([c], rest)
        | [] => some ([c], [])
      else none
  | [] => none

/-- The value of digits in a base up to sixteen. -/
def numberIn (base : Nat) (digits : List Char) : Nat :=
  digits.foldl (fun value c => value * base + (hexValue? c).getD 0) 0

/-- An integer without sign, which may be in base two, eight or sixteen. -/
def readUnsigned : List Char → Option (Nat × List Char)
  | '0' :: 'x' :: rest =>
      (readGroups (fun c => (hexValue? c).isSome) rest).map fun (digits, rest) =>
        (numberIn 16 digits, rest)
  | '0' :: 'o' :: rest =>
      (readGroups (fun c => '0' ≤ c && c ≤ '7') rest).map fun (digits, rest) =>
        (numberIn 8 digits, rest)
  | '0' :: 'b' :: rest =>
      (readGroups (fun c => c = '0' || c = '1') rest).map fun (digits, rest) =>
        (numberIn 2 digits, rest)
  | chars => readDecimal chars
where
  /-- A decimal number without leading zeros. -/
  readDecimal : List Char → Option (Nat × List Char)
    | '0' :: rest => some (0, rest)
    | chars =>
        (readGroups Char.isDigit chars).map fun (digits, rest) =>
          (decimalValue digits, rest)

/-- An integer of 64 bits; only a decimal one may have a sign. -/
def readInteger (chars : List Char) : Option (Item × List Char) := do
  let (n, rest) ←
    match chars with
    | '+' :: rest => (readUnsigned.readDecimal rest).map fun (n, rest) => ((n : Int), rest)
    | '-' :: rest => (readUnsigned.readDecimal rest).map fun (n, rest) => (-(n : Int), rest)
    | chars => (readUnsigned chars).map fun (n, rest) => ((n : Int), rest)
  if -(pow2 63 : Int) ≤ n ∧ n < pow2 63 then return (.integer n, rest) else none

mutual

def readValue : Nat → List Char → Option (Item × List Char)
  | 0, _ => none
  | fuel + 1, chars =>
      match chars with
      | 't' :: 'r' :: 'u' :: 'e' :: rest => some (.boolean true, rest)
      | 'f' :: 'a' :: 'l' :: 's' :: 'e' :: rest => some (.boolean false, rest)
      | '[' :: rest => do
          let (items, rest) ← readItems fuel (skipLines fuel rest)
          return (.array items, rest)
      | '\x7b' :: rest =>
          match skipBlanks rest with
          | '\x7d' :: rest => some (.inline [], rest)
          | rest => do
              let (entries, rest) ← readPairs fuel [] rest
              return (.inline entries, rest)
      | '"' :: _ | '\'' :: _ => do
          let (text, rest) ← readString fuel chars
          return (.string text, rest)
      | chars => readInteger chars

/-- Items up to the closing bracket; a comma may stand before it. -/
def readItems : Nat → List Char → Option (List Item × List Char)
  | 0, _ => none
  | fuel + 1, chars =>
      match chars with
      | ']' :: rest => some ([], rest)
      | chars => do
          let (item, rest) ← readValue fuel chars
          match skipLines fuel rest with
          | ',' :: rest => do
              let (items, rest) ← readItems fuel (skipLines fuel rest)
              return (item :: items, rest)
          | ']' :: rest => return ([item], rest)
          | _ => none

/-- Pairs of an inline table up to the closing brace. -/
def readPairs : Nat → Named Item → List Char → Option (Named Item × List Char)
  | 0, _, _ => none
  | fuel + 1, entries, chars => do
      let (path, key, rest) ← readKey fuel chars
      match rest with
      | '=' :: rest => do
          let (item, rest) ← readValue fuel (skipBlanks rest)
          let (_, entries) ← descend true (addItem path.isEmpty key item) path
            ⟨false, false⟩ entries
          match skipBlanks rest with
          | '\x7d' :: rest => return (entries, rest)
          | ',' :: rest => readPairs fuel entries rest
          | _ => none
      | _ => none

end

def readHeader (fuel : Nat) (document : Document) (several : Bool)
    (chars : List Char) : Option (Document × List Char) := do
  let (path, key, rest) ← readKey fuel chars
  let document ← document.addHeader path key several
  match several, rest with
  | true, ']' :: ']' :: rest => return (document, rest)
  | false, ']' :: rest => return (document, rest)
  | _, _ => none

/-- What stands on a line, after its blanks and before its comment. -/
def readLine (fuel : Nat) (document : Document) :
    List Char → Option (Document × List Char)
  | [] => some (document, [])
  | '#' :: rest => some (document, '#' :: rest)
  | '\n' :: rest => some (document, '\n' :: rest)
  | '\r' :: rest => some (document, '\r' :: rest)
  | '[' :: '[' :: rest => readHeader fuel document true rest
  | '[' :: rest => readHeader fuel document false rest
  | chars => do
      let (path, key, rest) ← readKey fuel chars
      match rest with
      | '=' :: rest => do
          let (item, rest) ← readValue fuel (skipBlanks rest)
          let document ← document.addKey path key item
          return (document, rest)
      | _ => none

def readDocument : Nat → Document → List Char → Option Document
  | 0, _, _ => none
  | fuel + 1, document, chars => do
      let (document, rest) ← readLine fuel document (skipBlanks chars)
      match skipComment (skipBlanks rest) with
      | [] => return document
      | rest => do
          let rest ← lineBreak? rest
          readDocument fuel document rest

/-- The characters after a byte order mark, if one stands at the start. -/
def skipByteOrderMark : List Char → List Char
  | c :: rest => if c.toNat = 0xfeff then rest else c :: rest
  | [] => []

def ofString? (text : String) : Option (Named Item) := do
  let chars := skipByteOrderMark text.toList
  let document ← readDocument (2 * chars.length + 2) .empty chars
  return document.entries

end ArchSpec.Toml
