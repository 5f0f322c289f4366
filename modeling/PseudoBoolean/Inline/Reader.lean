import PseudoBoolean.Expr.Parse
import PseudoBoolean.Inline.Builder
import PseudoBoolean.Inline.Token

/-!
Reading expressions that are written inline. Labels are string literals, and a word on its own is a
variable of the program; otherwise the grammar is that of expressions. What stands in parentheses is
read on its own: tokens that are left over in front of a closing parenthesis are a fault, but one
that is reported only if the rest of the text has no other.
-/

namespace PseudoBoolean.Inline

inductive Error
  | quantifier
  | membership
  | syntactic
deriving DecidableEq

def Error.message : Error → String
  | .quantifier => "expected `one`, `any` or `all` before an element name"
  | .membership => "expected `in` or `of`"
  | .syntactic => "syntax"

def reservedWords : List String := [
  "_", "abstract", "as", "async", "await", "become", "box", "break", "const", "continue", "crate", "do", "dyn", "else",
  "enum", "extern", "false", "final", "fn", "for", "if", "impl", "in", "let", "loop", "macro", "match", "mod", "move",
  "mut", "override", "priv", "pub", "ref", "return", "Self", "self", "static", "struct", "super", "trait", "true",
  "try", "type", "typeof", "unsafe", "unsized", "use", "virtual", "where", "while", "yield"]

def isReserved (word : String) : Bool := reservedWords.contains word

def quantifier? (word : String) : Option Quantifier :=
  match word with
  | "one" | "any" => some .one
  | "all" => some .all
  | _ => none

def build (element set : String) : Quantifier → Builder
  | .one => .one element set
  | .all => .all element set

/-- What may come next: an operand, something after a word that may be a variable or a quantifier, a
part of a quantified atom, something after an operand, or the end of the parenthesis whose rest is
passed over, in which `opened` more are open. -/
inductive State
  | operand (stack : List (Frame Builder))
  | word (stack : List (Frame Builder)) (word : String)
  | membership (stack : List (Frame Builder)) (quantifier : Quantifier) (element : String)
  | setName (stack : List (Frame Builder)) (quantifier : Quantifier) (element : String)
  | operator (stack : List (Frame Builder)) (value : Builder)
  | passing (stack : List (Frame Builder)) (value : Builder) (opened : Nat)
deriving DecidableEq

structure Reader where
  state : State := .operand []
  leftOver : Bool := false
deriving DecidableEq

namespace Reader

def after (stack : List (Frame Builder)) (value : Builder) : State :=
  let (stack, value) := Frame.take stack value
  .operator stack value

def closeGroup (r : Reader) (stack : List (Frame Builder)) (value : Builder) : Reader :=
  match Frame.closeGroup? stack value with
  | some (stack, value) => { r with state := .operator stack value }
  | none => { r with leftOver := true }

def opened (t : Token) : Nat := if t matches .opening _ then 1 else 0

def stepOperator (r : Reader) (stack : List (Frame Builder)) (value : Builder) (t : Token) : Reader :=
  let (rest, chain) := Frame.settle stack value
  match t with
  | .sign "&" => { r with state := .operand (.tight value .and :: stack) }
  | .sign "|" => { r with state := .operand (.tight value .or :: stack) }
  | .sign "->" => { r with state := .operand (.loose chain .imp :: rest) }
  | .sign "==" => { r with state := .operand (.loose chain .iff :: rest) }
  | .closing _ => r.closeGroup stack value
  | t => ⟨.passing stack value (opened t), true⟩

def step (r : Reader) (t : Token) : Except Error Reader :=
  match r.state with
  | .operand stack =>
    match t with
    | .sign "!" => .ok { r with state := .operand (.negation :: stack) }
    | .opening .round => .ok { r with state := .operand (.group :: stack) }
    | .literal text => .ok { r with state := after stack (.atom text) }
    | .word text => if isReserved text then .error .syntactic else .ok { r with state := .word stack text }
    | _ => .error .syntactic
  | .word stack word =>
    match t with
    | .literal element =>
      match quantifier? word with
      | some q => .ok { r with state := .membership stack q element }
      | none => .error .quantifier
    | t =>
      let (stack, value) := Frame.take stack (.variable word)
      .ok (r.stepOperator stack value t)
  | .membership stack quantifier element =>
    match t with
    | .word text =>
      if text = "in" ∨ text = "of" then .ok { r with state := .setName stack quantifier element }
      else if isReserved text then .error .syntactic
      else .error .membership
    | _ => .error .syntactic
  | .setName stack quantifier element =>
    match t with
    | .literal set => .ok { r with state := after stack (build element set quantifier) }
    | _ => .error .syntactic
  | .operator stack value => .ok (r.stepOperator stack value t)
  | .passing stack value opened =>
    match t, opened with
    | .opening _, _ => .ok { r with state := .passing stack value (opened + 1) }
    | .closing _, 0 => .ok (r.closeGroup stack value)
    | .closing _, opened + 1 => .ok { r with state := .passing stack value opened }
    | _, _ => .ok r

def finish (r : Reader) : Except Error Builder :=
  let value? :=
    match r.state with
    | .operator stack value => Frame.finish? stack value
    | .word stack word =>
      let (stack, value) := Frame.take stack (.variable word)
      Frame.finish? stack value
    | _ => none
  match value? with
  | some value => if r.leftOver then .error .syntactic else .ok value
  | none => .error .syntactic

end Reader

def read (source : String) : Except Error Builder :=
  match tokenize? source with
  | none => .error .syntactic
  | some ts => do (← ts.foldlM Reader.step {}).finish

end PseudoBoolean.Inline
