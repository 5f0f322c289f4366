import PseudoBoolean.Compile
import PseudoBoolean.Describe

namespace PseudoBoolean

inductive Level
  | debug
  | trace
deriving DecidableEq

def Level.name : Level → String
  | .debug => "DEBUG"
  | .trace => "TRACE"

inductive Event
  | unexpected (u : Unexpected)
  | rejected (e : SyntaxError)
  | expanded (e : Expr String)
  | converted (expansions found kept : Nat)
  | dropped (clauses : Nat)
  | encoded (c : Clause String) (k : Constraint String)
  | constrained (constraints quantified : Nat)

namespace Event

def level : Event → Level
  | .unexpected _ | .expanded _ | .encoded _ _ => .trace
  | .rejected _ | .converted _ _ _ | .dropped _ | .constrained _ _ => .debug

def target : Event → String
  | .unexpected _ => "lexer"
  | .rejected _ => "parser"
  | .expanded _ | .converted _ _ _ => "cnf"
  | .dropped _ => "subsumption"
  | .encoded _ _ | .constrained _ _ => "constraint"

def message : Event → String
  | .unexpected u => "unexpected " ++ Text.quotedChar u.char ++ " at " ++ toString u.offset
  | .rejected e => e.expectation.message ++ " at " ++ e.token.describe
  | .expanded e => "rewrite " ++ e.describe
  | .converted expansions found kept =>
    toString expansions ++ " rewrites, " ++ toString found ++ " clauses at fixpoint, " ++ toString kept ++
      " after subsumption"
  | .dropped clauses => "dropped " ++ toString clauses ++ " subsumed clauses"
  | .encoded c k => c.describe ++ " => " ++ k.describe
  | .constrained constraints quantified =>
    toString constraints ++ " constraints, " ++ toString quantified ++ " quantified"

end Event

def Conversion.journal (c : Conversion String) : List Event :=
  c.expanded.map .expanded ++ [.converted c.expanded.length c.found.size c.cnf.size] ++
    if c.cnf.size < c.found.size then [.dropped c.dropped] else []

def Cnf.journal (f : Cnf String) : List Event :=
  f.toList.map (fun c => .encoded c (Constraint.ofClause c)) ++
    [.constrained f.constraints.length (f.constraints.countP Constraint.isQuantified)]

def journal (source : String) : List Event :=
  let scanned := scan source
  if scanned.unexpected.isEmpty then
    match parseTokens scanned.tokens with
    | .error e => [.rejected e]
    | .ok e => e.convert.journal ++ e.toCnf.journal
  else scanned.unexpected.map .unexpected

end PseudoBoolean
