import ArchSpec.Text.Visible

/-!
# Quoted text

A string is shown between double quotes.  The double quote, the backslash and
four control characters have a short escape; every other character that is not
visible is written as its code point in hexadecimal.
-/

namespace ArchSpec.Text

def hexDigits (n : Nat) : String := String.ofList (Nat.toDigits 16 n)

def escapeChar (c : Char) : String :=
  match c with
  | '\x00' => "\\0"
  | '\t' => "\\t"
  | '\n' => "\\n"
  | '\r' => "\\r"
  | '"' => "\\\""
  | '\\' => "\\\\"
  | c =>
      if isVisible c then String.singleton c
      else "\\u\x7b" ++ hexDigits c.toNat ++ "\x7d"

def quote (text : String) : String :=
  "\"" ++ String.join (text.toList.map escapeChar) ++ "\""

end ArchSpec.Text
