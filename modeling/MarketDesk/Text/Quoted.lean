import MarketDesk.Text.Hidden

/-!
A text between double quotes, as messages show it: quotes, backslashes and the common controls get a
backslash, every other character that would not be seen is shown by its number.
-/

namespace MarketDesk.Text

/-- The hexadecimal digits of a number. -/
def hexDigits (n : Nat) : List Char :=
  Nat.toDigits 16 n

/-- What stands for a character between the quotes. -/
def quotedChar (c : Char) : String :=
  match c with
  | '"' => "\\\""
  | '\\' => "\\\\"
  | '\n' => "\\n"
  | '\r' => "\\r"
  | '\t' => "\\t"
  | '\x00' => "\\0"
  | _ =>
    if isHidden c then "\\u\x7b" ++ String.ofList (hexDigits c.toNat) ++ "\x7d" else c.toString

/-- The text between double quotes. -/
def quoted (s : String) : String :=
  "\"" ++ String.join (s.toList.map quotedChar) ++ "\""

end MarketDesk.Text
