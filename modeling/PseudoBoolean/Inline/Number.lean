import PseudoBoolean.Inline.Literal
import PseudoBoolean.Text.Identifier

namespace PseudoBoolean.Inline

open Text

def isDecimal (c : Char) : Bool := c.isDigit || c == '_'

def afterExponent? (cs : List Char) : Option (List Char) :=
  let cs := cs.dropWhile (· = '_')
  let cs :=
    match cs with
    | '+' :: cs | '-' :: cs => cs.dropWhile (· = '_')
    | cs => cs
  if cs.head?.any Char.isDigit then some (cs.dropWhile isDecimal) else none

/-- After digits with a point or an exponent. A point before another one, or before an identifier,
belongs to what follows, and so does an exponent without digits after a point. -/
def afterReal? (cs : List Char) : Option (List Char) :=
  match cs.dropWhile isDecimal with
  | '.' :: cs =>
    if cs.head?.any fun c => c = '.' || isIdentifierStart c then none
    else
      match cs.dropWhile isDecimal with
      | 'e' :: rest => some ((afterExponent? rest).getD ('e' :: rest))
      | 'E' :: rest => some ((afterExponent? rest).getD ('E' :: rest))
      | rest => some rest
  | 'e' :: cs | 'E' :: cs => afterExponent? cs
  | _ => none

def afterDigits? (base : Nat) (cs : List Char) : Option (List Char) :=
  let isDigit (c : Char) : Bool := c = '_' || (hexValue? c).any fun d => d < base
  let rest := cs.dropWhile isDigit
  if (cs.takeWhile isDigit).all (· = '_') || rest.head?.any Char.isDigit then none else some rest

def afterInteger? : List Char → Option (List Char)
  | '0' :: 'x' :: cs => afterDigits? 16 cs
  | '0' :: 'o' :: cs => afterDigits? 8 cs
  | '0' :: 'b' :: cs => afterDigits? 2 cs
  | cs => afterDigits? 10 cs

def afterSuffix? (cs : List Char) : Option (List Char) :=
  let rest := cs.drop (identifierLength cs)
  if rest.head?.any isIdentifierPart then none else some rest

def afterNumber? (cs : List Char) : Option (List Char) :=
  (afterReal? cs).bind afterSuffix? <|> (afterInteger? cs).bind afterSuffix?

def numberLength? (cs : List Char) : Option Nat := (afterNumber? cs).map fun rest => cs.length - rest.length

end PseudoBoolean.Inline
