import PseudoBoolean.Cnf.Conversion
import PseudoBoolean.Constraint.Basic
import PseudoBoolean.Expr.Parse

namespace PseudoBoolean

structure StreamFailure where
  kind : String
  text : String
deriving DecidableEq

inductive CompileFailure
  | parse (failure : ParseFailure)
  | stream (failure : StreamFailure)
deriving DecidableEq

namespace CompileFailure

instance : ToString CompileFailure where
  toString
    | .parse failure => toString failure
    | .stream failure => failure.text

def render : CompileFailure → String
  | .parse failure => failure.render
  | .stream failure => failure.text

def parseFailure? : CompileFailure → Option ParseFailure
  | .parse failure => some failure
  | .stream _ => none

def causes : CompileFailure → List String
  | .parse failure => toString failure :: failure.cause?.toList.map toString
  | .stream failure => [failure.text]

def toStreamFailure : CompileFailure → StreamFailure
  | .parse failure => ⟨"InvalidData", toString failure⟩
  | .stream failure => failure

end CompileFailure

structure Compiled where
  expression : Expr String
  cnf : Cnf String
  constraints : List (Constraint String)

def Compiled.ofExpr (e : Expr String) : Compiled := ⟨e, e.toCnf, e.toCnf.constraints⟩

def compile (source : String) : Except CompileFailure Compiled :=
  match Expr.parse source with
  | .ok e => .ok (.ofExpr e)
  | .error failure => .error (.parse failure)

end PseudoBoolean
