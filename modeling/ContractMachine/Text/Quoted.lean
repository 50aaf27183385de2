import ContractMachine.Text.Invisible

/-! Text in double quotes. Quotes, backslashes and the common controls take a backslash; what has
no visible form is written by its code point. -/

namespace ContractMachine.Text

/-- The code point in braces, in hexadecimal without leading zeros. -/
def codePoint (c : Char) : String :=
  "\\u\x7b" ++ String.ofList (Nat.toDigits 16 c.toNat) ++ "\x7d"

def quoteChar (c : Char) : String :=
  match c.toNat with
  | 0x00 => "\\0"
  | 0x09 => "\\t"
  | 0x0a => "\\n"
  | 0x0d => "\\r"
  | 0x22 => "\\\""
  | 0x5c => "\\\\"
  | n =>
    if n < 0x20 || n = 0x7f || isInvisible c then codePoint c else c.toString

def quoted (s : String) : String :=
  "\"" ++ String.join (s.toList.map quoteChar) ++ "\""

end ContractMachine.Text
