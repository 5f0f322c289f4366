namespace PseudoBoolean

/-- A stretch of a text, in bytes of its UTF-8 form; `stop` is the first byte after it. -/
structure Span where
  start : Nat
  stop : Nat
deriving DecidableEq

def Span.empty (offset : Nat) : Span := ⟨offset, offset⟩

inductive Token.Kind
  | leftParen
  | rightParen
  | not
  | and
  | or
  | implies
  | equivalent
  | identifier
  | one
  | all
  | memberOf
  | eof
deriving DecidableEq

structure Token where
  kind : Token.Kind
  lexeme : String
  span : Span
deriving DecidableEq

namespace Token

def Kind.name : Kind → String
  | .leftParen => "LEFT_PAREN"
  | .rightParen => "RIGHT_PAREN"
  | .not => "NOT"
  | .and => "AND"
  | .or => "OR"
  | .implies => "IMPLIES"
  | .equivalent => "EQUIVALENT"
  | .identifier => "IDENTIFIER"
  | .one => "ONE"
  | .all => "ALL"
  | .memberOf => "IN"
  | .eof => "EOF"

def Kind.keyword? (word : String) : Option Kind :=
  match word with
  | "one" | "any" => some .one
  | "all" => some .all
  | "in" | "of" => some .memberOf
  | _ => none

def Kind.ofWord (word : String) : Kind := (keyword? word).getD .identifier

instance : ToString Token := ⟨fun t => t.kind.name ++ " " ++ t.lexeme⟩

def endAt (offset : Nat) : Token := ⟨.eof, "", .empty offset⟩

end Token

end PseudoBoolean
