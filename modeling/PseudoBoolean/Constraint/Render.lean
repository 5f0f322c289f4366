import PseudoBoolean.Constraint.Basic

namespace PseudoBoolean

inductive Format
  | text
  | latex
deriving DecidableEq

namespace Format

def style : Format → Style
  | .text => .unicode
  | .latex => .latex

variable {α : Type} [ToString α]

def quantifier (r : Range α) : Format → String
  | .text => "(∀ " ++ toString r.element ++ " ∈ " ++ toString r.set ++ ")"
  | .latex => "\\forall " ++ toString r.element ++ " \\in " ++ toString r.set

def quantifierSeparator : Format → String
  | .text => " "
  | .latex => ", "

def colon : Format → String
  | .text => " : "
  | .latex => " \\colon "

def setSum (r : Range α) : Format → String
  | .text => "(∑ " ++ toString r.element ++ " ∈ " ++ toString r.set ++ ")"
  | .latex => "\\sum_\x7b" ++ toString r.element ++ " \\in " ++ toString r.set ++ "\x7d " ++ toString r.element

def geq : Format → String
  | .text => " ≥ "
  | .latex => " \\geq "

def cardinality (r : Range α) : Format → String
  | .text => "‖" ++ toString r.set ++ "‖"
  | .latex => "\\lvert " ++ toString r.set ++ " \\rvert"

end Format

def subtractTerms (sum : String) (terms : List String) : String :=
  terms.foldl (fun sum term => (if sum.isEmpty then "-" else sum ++ " - ") ++ term) sum

variable {α : Type} [ToString α]

def LinearSum.render (format : Format) (s : LinearSum α) : String :=
  let plus := s.plus.map toString ++ s.plusSets.map format.setSum
  let minus := s.minus.map toString ++ s.minusSets.map format.setSum
  let sum := subtractTerms (" + ".intercalate plus) minus
  if sum.isEmpty then "0" else sum

def Bound.render (format : Format) (b : Bound α) : String :=
  let cardinalities := " - ".intercalate (b.minusCardinalities.map format.cardinality)
  if b.minusCardinalities.isEmpty then toString b.constant
  else if b.constant = 0 then "-" ++ cardinalities
  else toString b.constant ++ " - " ++ cardinalities

namespace Constraint

variable [Ordered α]

def quantifiers (format : Format) (k : Constraint α) : String :=
  if k.quantified.isEmpty then ""
  else format.quantifierSeparator.intercalate (k.quantified.toList.map format.quantifier) ++ format.colon

def render (format : Format) (k : Constraint α) : String :=
  k.quantifiers format ++ k.sum.render format ++ format.geq ++ k.bound.render format

end Constraint

end PseudoBoolean
