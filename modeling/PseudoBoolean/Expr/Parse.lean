import PseudoBoolean.Expr.Precedence
import PseudoBoolean.Token.Scan
import PseudoBoolean.Text.Quoted

namespace PseudoBoolean

inductive Expectation
  | expression
  | elementName (quantifier : String)
  | memberOf
  | setName
  | rightParen
  | endOfExpression
  | shallowNesting
deriving DecidableEq

def Expectation.message : Expectation → String
  | .expression => "expect expression"
  | .elementName quantifier => "expect element name after '" ++ quantifier ++ "'"
  | .memberOf => "expect 'in' after element name"
  | .setName => "expect set name after 'in'"
  | .rightParen => "expect ')' after expression"
  | .endOfExpression => "unexpected token after end of expression"
  | .shallowNesting => "expression nested too deeply"

structure SyntaxError where
  expectation : Expectation
  token : Token
deriving DecidableEq

def SyntaxError.diagnostic (e : SyntaxError) : Diagnostic where
  stage := .parse
  message := e.expectation.message
  location := .ofToken e.token

inductive Quantifier
  | one
  | all
deriving DecidableEq

def Quantifier.over {α : Type} (element set : α) : Quantifier → Expr α
  | .one => .one element set
  | .all => .all element set

def nestingLimit : Nat := 256

inductive ParseState
  | operand (stack : List (Frame (Expr String)))
  | elementName (stack : List (Frame (Expr String))) (quantifier : Quantifier) (word : String)
  | membership (stack : List (Frame (Expr String))) (quantifier : Quantifier) (element : String)
  | setName (stack : List (Frame (Expr String))) (quantifier : Quantifier) (element : String)
  | operator (stack : List (Frame (Expr String))) (value : Expr String)
deriving DecidableEq

namespace ParseState

def start : ParseState := .operand []

def after (stack : List (Frame (Expr String))) (value : Expr String) : ParseState :=
  let (stack, value) := Frame.take stack value
  .operator stack value

def enter (stack : List (Frame (Expr String))) (frame : Frame (Expr String)) (t : Token) :
    Except SyntaxError ParseState :=
  if Frame.depth stack < nestingLimit then .ok (.operand (frame :: stack))
  else .error ⟨.shallowNesting, t⟩

def missing (stack : List (Frame (Expr String))) : Expectation :=
  if Frame.inGroup stack then .rightParen else .endOfExpression

def step (state : ParseState) (t : Token) : Except SyntaxError ParseState :=
  match state with
  | .operand stack =>
    match t.kind with
    | .identifier => .ok (after stack (.var t.lexeme))
    | .one => .ok (.elementName stack .one t.lexeme)
    | .all => .ok (.elementName stack .all t.lexeme)
    | .not => enter stack .negation t
    | .leftParen => enter stack .group t
    | _ => .error ⟨.expression, t⟩
  | .elementName stack quantifier word =>
    if t.kind = .identifier then .ok (.membership stack quantifier t.lexeme)
    else .error ⟨.elementName word, t⟩
  | .membership stack quantifier element =>
    if t.kind = .memberOf then .ok (.setName stack quantifier element) else .error ⟨.memberOf, t⟩
  | .setName stack quantifier element =>
    if t.kind = .identifier then .ok (after stack (quantifier.over element t.lexeme))
    else .error ⟨.setName, t⟩
  | .operator stack value =>
    let (rest, chain) := Frame.settle stack value
    match t.kind with
    | .and => .ok (.operand (.tight value .and :: stack))
    | .or => .ok (.operand (.tight value .or :: stack))
    | .implies => .ok (.operand (.loose chain .imp :: rest))
    | .equivalent => .ok (.operand (.loose chain .iff :: rest))
    | .rightParen =>
      match Frame.closeGroup? stack value with
      | some (stack, value) => .ok (.operator stack value)
      | none => .error ⟨missing stack, t⟩
    | _ => .error ⟨missing stack, t⟩

def finish (state : ParseState) (t : Token) : Except SyntaxError (Expr String) :=
  match state with
  | .operand _ => .error ⟨.expression, t⟩
  | .elementName _ _ word => .error ⟨.elementName word, t⟩
  | .membership _ _ _ => .error ⟨.memberOf, t⟩
  | .setName _ _ _ => .error ⟨.setName, t⟩
  | .operator stack value =>
    match Frame.finish? stack value with
    | some e => .ok e
    | none => .error ⟨missing stack, t⟩

end ParseState

def beforeEnd (tokens : List Token) : List Token := tokens.takeWhile fun t => t.kind ≠ .eof

def endToken (tokens : List Token) : Token :=
  (tokens.find? fun t => t.kind = .eof).getD (.endAt ((tokens.getLast?.map fun t => t.span.stop).getD 0))

def parseTokens (tokens : List Token) : Except SyntaxError (Expr String) := do
  let state ← (beforeEnd tokens).foldlM ParseState.step .start
  state.finish (endToken tokens)

structure ParseFailure where
  input : String
  diagnostics : List Diagnostic
deriving DecidableEq

namespace ParseFailure

instance : ToString ParseFailure where
  toString f :=
    match f.diagnostics with
    | [] => "Failed to parse boolean expression " ++ Text.quoted f.input
    | [d] => "Failed to parse boolean expression at position " ++ toString d.location.offset ++ ": " ++ d.message
    | d :: ds =>
      "Failed to parse boolean expression: " ++ toString (ds.length + 1) ++ " errors, first at position " ++
        toString d.location.offset ++ ": " ++ d.message

def render (f : ParseFailure) : String := "\n".intercalate (f.diagnostics.map (·.render f.input))

def cause? (f : ParseFailure) : Option Diagnostic := f.diagnostics.head?

end ParseFailure

namespace Expr

def parse (source : String) : Except ParseFailure (Expr String) :=
  let scanned := scan source
  if scanned.unexpected.isEmpty then
    (parseTokens scanned.tokens).mapError fun e => ⟨source, [e.diagnostic]⟩
  else .error ⟨source, scanned.diagnostics⟩

end Expr

end PseudoBoolean
