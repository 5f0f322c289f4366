import PseudoBoolean.Cnf.Conversion
import PseudoBoolean.Constraint.Basic
import PseudoBoolean.Expr.Parse

namespace PseudoBoolean

namespace Describe

def tuple (name : String) (parts : List String) : String := name ++ "(" ++ ", ".intercalate parts ++ ")"

def record (name : String) (parts : List (String × String)) : String :=
  name ++ " \x7b " ++ ", ".intercalate (parts.map fun (field, text) => field ++ ": " ++ text) ++ " \x7d"

def set (items : List String) : String := "\x7b" ++ ", ".intercalate items ++ "\x7d"

end Describe

open Describe

def Range.describeAs (name : String) (r : Range String) : String :=
  record name [("element", Text.quoted r.element), ("set", Text.quoted r.set)]

def Range.describe (r : Range String) : String := r.describeAs "SetTerm"

def Atom.describe : Atom String → String
  | .plain a => tuple "Atom" [Text.quoted a]
  | .one r => r.describeAs "GenDisj"
  | .all r => r.describeAs "GenConj"

def Expr.describe : Expr String → String
  | .atom a => a.describe
  | .not a => tuple "Not" [a.describe]
  | .and a b => tuple "And" [a.describe, b.describe]
  | .or a b => tuple "Or" [a.describe, b.describe]
  | .imp a b => tuple "Implies" [a.describe, b.describe]
  | .iff a b => tuple "Equivalent" [a.describe, b.describe]

def Clause.describe (c : Clause String) : String := tuple "Clause" [set (c.exprs.map Expr.describe)]

def LinearSum.describe (s : LinearSum String) : String :=
  record "Lhs"
    [("pos_var", bracketed (s.plus.map Text.quoted)), ("neg_var", bracketed (s.minus.map Text.quoted)),
     ("pos_set", bracketed (s.plusSets.map Range.describe)), ("neg_set", bracketed (s.minusSets.map Range.describe))]

def Bound.describe (b : Bound String) : String :=
  record "Rhs" [("constant", toString b.constant), ("neg_set", bracketed (b.minusCardinalities.map Range.describe))]

def Constraint.describe (k : Constraint String) : String :=
  record "ClauseConstraint"
    [("all_quant", set (k.quantified.toList.map Range.describe)), ("lhs", k.sum.describe), ("rhs", k.bound.describe)]

def Token.Kind.describe : Token.Kind → String
  | .leftParen => "LeftParen"
  | .rightParen => "RightParen"
  | .not => "Not"
  | .and => "And"
  | .or => "Or"
  | .implies => "Implies"
  | .equivalent => "Equivalent"
  | .identifier => "Identifier"
  | .one => "One"
  | .all => "All"
  | .memberOf => "In"
  | .eof => "Eof"

def Span.describe (s : Span) : String := record "Span" [("from", toString s.start), ("to", toString s.stop)]

def Token.describe (t : Token) : String :=
  record "Token" [("kind", t.kind.describe), ("lexeme", Text.quoted t.lexeme), ("span", t.span.describe)]

end PseudoBoolean
