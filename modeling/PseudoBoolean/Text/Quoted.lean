import PseudoBoolean.Text.Printable

namespace PseudoBoolean.Text

def codePoint (c : Char) : String := "\\u\x7b" ++ String.ofList (Nat.toDigits 16 c.toNat) ++ "\x7d"

def escaped (quote c : Char) : String :=
  if c = '\x00' then "\\0"
  else if c = '\t' then "\\t"
  else if c = '\r' then "\\r"
  else if c = '\n' then "\\n"
  else if c = '\\' then "\\\\"
  else if c = quote then "\\" ++ c.toString
  else if isPrintable c then c.toString
  else codePoint c

def quoted (s : String) : String := "\"" ++ String.join (s.toList.map (escaped '"')) ++ "\""

def quotedChar (c : Char) : String := "'" ++ escaped '\'' c ++ "'"

end PseudoBoolean.Text
