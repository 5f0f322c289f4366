import PseudoBoolean.Inline.Number
import PseudoBoolean.Text.WhiteSpace

namespace PseudoBoolean.Inline

open Text

inductive Bracket
  | round
  | square
  | curly
deriving DecidableEq

inductive Token
  | word (text : String)
  | literal (text : String)
  | sign (text : String)
  | opening (bracket : Bracket)
  | closing (bracket : Bracket)
  | other
deriving DecidableEq

inductive Lexeme
  | blank
  | word
  | literal
  | sign
  | opening (bracket : Bracket)
  | closing (bracket : Bracket)
  | other
deriving DecidableEq

def suffixed (lexeme : Lexeme) (cs : List Char) (n? : Option Nat) : Option (Lexeme × Nat) :=
  n?.map fun n => (lexeme, n + identifierLength (cs.drop n))

def isSign (c : Char) : Bool := c ∈ "~!@#$%^&*-=+|;:,<.>/?".toList

def isDouble (c : Char) (cs : List Char) : Bool :=
  match c, cs with
  | '-', '>' :: _ | '=', '=' :: _ | '&', '&' :: _ | '|', '|' :: _ => true
  | _, _ => false

def commentLength? (depth : Nat) : List Char → Option Nat
  | '*' :: '/' :: cs =>
    match depth with
    | 0 => some 2
    | depth + 1 => (commentLength? depth cs).map (· + 2)
  | '/' :: '*' :: cs => (commentLength? (depth + 1) cs).map (· + 2)
  | _ :: cs => (commentLength? depth cs).map (· + 1)
  | [] => none

def hasBareReturn : List Char → Bool
  | '\r' :: '\n' :: cs => hasBareReturn cs
  | '\r' :: _ => true
  | _ :: cs => hasBareReturn cs
  | [] => false

def documentation (text : List Char) (n : Nat) : Option (Lexeme × Nat) :=
  -- Comments for documentation are not skipped, for a host program has them as attributes.
  if hasBareReturn text then none else some (.other, n)

def lineComment (cs : List Char) : Option (Lexeme × Nat) :=
  let n := (cs.takeWhile (· ≠ '\n')).length
  match cs with
  | '/' :: '/' :: _ => some (.blank, n + 1)
  | '/' :: _ | '!' :: _ => documentation (cs.take (n + 1)) (n + 1)
  | _ => some (.blank, n + 1)

def blockComment (cs : List Char) : Option (Lexeme × Nat) :=
  (commentLength? 0 cs).bind fun n =>
    match cs with
    | '*' :: '/' :: _ | '*' :: '*' :: _ => some (.blank, n + 1)
    | '*' :: _ | '!' :: _ => documentation (cs.take n) (n + 1)
    | _ => some (.blank, n + 1)

def rawNameLength? (cs : List Char) : Option Nat :=
  let n := identifierLength cs
  if n = 0 ∨ String.ofList (cs.take n) ∈ ["_", "super", "self", "Self", "crate"] then none else some n

/-- Whether a text can follow a quote that starts a label: a name, and neither a quote after it nor,
unless it was announced by `r#`, a hash. -/
def isLabel (cs : List Char) : Bool :=
  match cs with
  | 'r' :: '#' :: cs =>
    match rawNameLength? cs with
    | some n => (cs.drop n).head? ≠ some '\''
    | none => false
  | cs =>
    let n := identifierLength cs
    n ≠ 0 && (cs.drop n).head? ≠ some '\'' && (cs.drop n).head? ≠ some '#'

def front (c : Char) (cs : List Char) : Option (Lexeme × Nat) :=
  if isWhiteSpace c || c == '\u200e' || c == '\u200f' then some (.blank, 0)
  else
    match c, cs with
    | '/', '/' :: cs => lineComment cs
    | '/', '*' :: cs => blockComment cs
    | '"', cs => suffixed .literal cs (literalLength? .text .text cs)
    | 'r', '"' :: _ | 'r', '#' :: '"' :: _ | 'r', '#' :: '#' :: _ =>
      suffixed .literal cs (rawLiteralLength? .text cs)
    | 'r', '#' :: cs => (rawNameLength? cs).map fun n => (.word, n + 1)
    | 'b', '"' :: rest => suffixed .other cs ((literalLength? .bytes .text rest).map (· + 1))
    | 'b', '\'' :: rest => suffixed .other cs ((charLength? .bytes rest).map (· + 1))
    | 'b', 'r' :: '"' :: _ | 'b', 'r' :: '#' :: _ =>
      suffixed .other cs ((rawLiteralLength? .bytes (cs.drop 1)).map (· + 1))
    | 'c', '"' :: rest => suffixed .other cs ((literalLength? .terminated .text rest).map (· + 1))
    | 'c', 'r' :: '"' :: _ | 'c', 'r' :: '#' :: _ =>
      suffixed .other cs ((rawLiteralLength? .terminated (cs.drop 1)).map (· + 1))
    | '\'', cs =>
      match charLength? .text cs with
      | some n => suffixed .other cs (some n)
      | none => if isLabel cs then some (.other, 0) else none
    | '(', _ => some (.opening .round, 0)
    | '[', _ => some (.opening .square, 0)
    | '\x7b', _ => some (.opening .curly, 0)
    | ')', _ => some (.closing .round, 0)
    | ']', _ => some (.closing .square, 0)
    | '\x7d', _ => some (.closing .curly, 0)
    | c, cs =>
      if isIdentifierStart c then some (.word, (cs.takeWhile isIdentifierPart).length)
      else if c.isDigit then (numberLength? (c :: cs)).map fun n => (.other, n - 1)
      else if isDouble c cs then some (.sign, 1)
      else if isSign c then some (.sign, 0)
      else none

def Lexeme.token? (text : List Char) : Lexeme → Option Token
  | .blank => none
  | .word => some (.word (String.ofList text))
  | .literal => some (.literal (String.ofList text))
  | .sign => some (.sign (String.ofList text))
  | .opening b => some (.opening b)
  | .closing b => some (.closing b)
  | .other => some .other

def tokens? : List Char → Option (List Token)
  | [] => some []
  | c :: cs => do
    let (lexeme, n) ← front c cs
    let ts ← tokens? (cs.drop n)
    return (lexeme.token? (c :: cs.take n)).toList ++ ts
termination_by cs => cs.length
decreasing_by simp only [List.length_drop, List.length_cons]; omega

def balanced (opened : List Bracket) : List Token → Bool
  | [] => opened.isEmpty
  | .opening b :: ts => balanced (b :: opened) ts
  | .closing b :: ts =>
    match opened with
    | o :: opened => o = b && balanced opened ts
    | [] => false
  | _ :: ts => balanced opened ts

def dropByteOrderMark : List Char → List Char
  | '\ufeff' :: cs => cs
  | cs => cs

def tokenize? (source : String) : Option (List Token) :=
  (tokens? (dropByteOrderMark source.toList)).bind fun ts => if balanced [] ts then some ts else none

end PseudoBoolean.Inline
