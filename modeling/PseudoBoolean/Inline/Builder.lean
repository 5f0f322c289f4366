import PseudoBoolean.Expr.Precedence

namespace PseudoBoolean.Inline

/-- A call of a constructor of expressions. Labels are string literals in their spelling; a variable
of the program stands for the expression it holds. -/
inductive Builder
  | variable (name : String)
  | atom (label : String)
  | one (element set : String)
  | all (element set : String)
  | not (a : Builder)
  | and (a b : Builder)
  | or (a b : Builder)
  | imp (a b : Builder)
  | iff (a b : Builder)
deriving DecidableEq

instance : Formula Builder where
  not := .not
  and := .and
  or := .or
  imp := .imp
  iff := .iff

namespace Builder

def method (name a b : String) : String := "(" ++ a ++ ")." ++ name ++ "(" ++ b ++ ")"

def code : Builder → String
  | .variable name => "::std::clone::Clone::clone(&" ++ name ++ ")"
  | .atom label => "Expr::atom(" ++ label ++ ")"
  | .one element set => "Expr::gen_disj(" ++ element ++ "," ++ set ++ ")"
  | .all element set => "Expr::gen_conj(" ++ element ++ "," ++ set ++ ")"
  | .not a => method "not" a.code ""
  | .and a b => method "and" a.code b.code
  | .or a b => method "or" a.code b.code
  | .imp a b => method "implies" a.code b.code
  | .iff a b => method "equivalent" a.code b.code

end Builder

end PseudoBoolean.Inline
