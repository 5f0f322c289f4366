import PseudoBoolean.Token.Basic

namespace PseudoBoolean

inductive Stage
  | lex
  | parse
deriving DecidableEq

inductive Location
  | text (span : Span) (lexeme : String)
  | endOfText (offset : Nat)
deriving DecidableEq

namespace Location

def ofToken (t : Token) : Location :=
  if t.kind = .eof then .endOfText t.span.start else .text t.span t.lexeme

def offset : Location → Nat
  | .text span _ => span.start
  | .endOfText offset => offset

def width : Location → Nat
  | .text _ lexeme => max 1 lexeme.length
  | .endOfText _ => 1

end Location

structure Diagnostic where
  stage : Stage
  message : String
  location : Location
deriving DecidableEq

/-- The number of characters in the first `offset` bytes, unless these end beyond the text or
inside a character. -/
def charsBefore? : List Char → Nat → Option Nat
  | _, 0 => some 0
  | [], _ + 1 => none
  | c :: cs, offset =>
    if c.utf8Size ≤ offset then (charsBefore? cs (offset - c.utf8Size)).map (· + 1) else none

namespace Diagnostic

instance : ToString Diagnostic where
  toString d :=
    match d.stage, d.location with
    | .lex, _ => "Error: " ++ d.message
    | .parse, .endOfText _ => "Error at end: " ++ d.message
    | .parse, .text _ lexeme => "Error at '" ++ lexeme ++ "': " ++ d.message

def column (d : Diagnostic) (source : String) : Nat :=
  (charsBefore? source.toList d.location.offset).getD d.location.offset

def shown (source : String) : String := source.map fun c => if c = '\t' then ' ' else c

def underline (column width : Nat) : String :=
  String.ofList (List.replicate column ' ' ++ List.replicate width '^')

def render (d : Diagnostic) (source : String) : String :=
  toString d ++ "\n" ++ shown source ++ "\n" ++ underline (d.column source) d.location.width

end Diagnostic

end PseudoBoolean
