import PseudoBoolean.Inline.Builder
import PseudoBoolean.Proofs.Inline.Token
import PseudoBoolean.Proofs.RoundTrip

namespace PseudoBoolean

open Text

def Connective.method : Connective → String
  | .tight .and => "and"
  | .tight .or => "or"
  | .loose .imp => "implies"
  | .loose .iff => "equivalent"

def Quantifier.function : Quantifier → String
  | .one => "gen_disj"
  | .all => "gen_conj"

namespace Inline

theorem isPlainWord_function (q : Quantifier) : isPlainWord q.function.toList = true := by
  cases q <;> rfl

theorem isPlainWord_method (op : Connective) : isPlainWord op.method.toList = true := by
  rcases op with ⟨_ | _⟩ | ⟨_ | _⟩ <;> rfl

def label? (literal : String) : Option String :=
  match literal.toList with
  | '"' :: cs =>
    if cs.getLast? = some '"' ∧ isIdentifier cs.dropLast then some (String.ofList cs.dropLast) else none
  | _ => none

theorem label?_spelled {label : String} (h : isIdentifier label.toList = true) :
    label? (spelled label) = some label := by
  have htext : (spelled label).toList = '"' :: (label.toList ++ ['"']) := by simp [spelled]
  simp [label?, htext, h]

def construct? : String → List String → Option (Expr String)
  | "atom", [a] => some (.var a)
  | "gen_disj", [x, s] => some (.one x s)
  | "gen_conj", [x, s] => some (.all x s)
  | _, _ => none

def connective? : String → Option Connective
  | "and" => some (.tight .and)
  | "or" => some (.tight .or)
  | "implies" => some (.loose .imp)
  | "equivalent" => some (.loose .iff)
  | _ => none

inductive Pending
  | group
  | argument (receiver : Expr String) (op : Connective)

/-- The expression that calls build, if they go on with the tokens after the value in hand, or with a value
if there is none in hand. -/
def evaluate? : List Pending → Option (Expr String) → List Token → Option (Expr String)
  | stack, none, .opening .round :: ts => evaluate? (.group :: stack) none ts
  | stack, none, .word "Expr" :: .sign ":" :: .sign ":" :: .word name :: .opening .round :: .literal a ::
      .closing .round :: ts => do
    let a ← label? a
    let value ← construct? name [a]
    evaluate? stack (some value) ts
  | stack, none, .word "Expr" :: .sign ":" :: .sign ":" :: .word name :: .opening .round :: .literal x :: .sign "," ::
      .literal s :: .closing .round :: ts => do
    let x ← label? x
    let s ← label? s
    let value ← construct? name [x, s]
    evaluate? stack (some value) ts
  | stack, some a, .sign "." :: .word "not" :: .opening .round :: .closing .round :: ts =>
    evaluate? stack (some (.not a)) ts
  | stack, some a, .sign "." :: .word name :: .opening .round :: ts => do
    let op ← connective? name
    evaluate? (.argument a op :: stack) none ts
  | .group :: stack, some a, .closing .round :: ts => evaluate? stack (some a) ts
  | .argument receiver op :: stack, some a, .closing .round :: ts => evaluate? stack (some (op.join receiver a)) ts
  | [], some a, [] => some a
  | _, _, _ => none

def expr? (code : String) : Option (Expr String) := (tokenize? code).bind (evaluate? [] none)

def Builder.ofExpr : Expr String → Builder
  | .atom (.plain a) => .atom (spelled a)
  | .atom (.one r) => .one (spelled r.element) (spelled r.set)
  | .atom (.all r) => .all (spelled r.element) (spelled r.set)
  | .not a => .not (ofExpr a)
  | .and a b => .and (ofExpr a) (ofExpr b)
  | .or a b => .or (ofExpr a) (ofExpr b)
  | .imp a b => .imp (ofExpr a) (ofExpr b)
  | .iff a b => .iff (ofExpr a) (ofExpr b)

namespace Builder

theorem code_ofExpr_var (a : String) :
    (ofExpr (.var a)).code = "Expr::" ++ "atom" ++ "(" ++ spelled a ++ ")" := rfl

theorem code_ofExpr_over (q : Quantifier) (x s : String) :
    (ofExpr (q.over x s)).code = "Expr::" ++ q.function ++ "(" ++ spelled x ++ "," ++ spelled s ++ ")" := by
  cases q <;> rfl

theorem code_ofExpr_not (a : Expr String) : (ofExpr (.not a)).code = method "not" (ofExpr a).code "" := rfl

theorem code_ofExpr_join (op : Connective) (a b : Expr String) :
    (ofExpr (op.join a b)).code = method op.method (ofExpr a).code (ofExpr b).code := by
  rcases op with ⟨_ | _⟩ | ⟨_ | _⟩ <;> rfl

end Builder

def constructorTokens (name : String) (arguments : List Token) : List Token :=
  .word "Expr" :: .sign ":" :: .sign ":" :: .word name :: .opening .round :: (arguments ++ [.closing .round])

def methodTokens (name : String) (receiver argument : List Token) : List Token :=
  .opening .round :: (receiver ++ .closing .round :: .sign "." :: .word name :: .opening .round ::
    (argument ++ [.closing .round]))

def callTokens : Expr String → List Token
  | .atom (.plain a) => constructorTokens "atom" [.literal (spelled a)]
  | .atom (.one r) => constructorTokens "gen_disj" [.literal (spelled r.element), .sign ",", .literal (spelled r.set)]
  | .atom (.all r) => constructorTokens "gen_conj" [.literal (spelled r.element), .sign ",", .literal (spelled r.set)]
  | .not a => methodTokens "not" (callTokens a) []
  | .and a b => methodTokens "and" (callTokens a) (callTokens b)
  | .or a b => methodTokens "or" (callTokens a) (callTokens b)
  | .imp a b => methodTokens "implies" (callTokens a) (callTokens b)
  | .iff a b => methodTokens "equivalent" (callTokens a) (callTokens b)

theorem callTokens_over (q : Quantifier) (x s : String) : callTokens (q.over x s) =
    constructorTokens q.function [.literal (spelled x), .sign ",", .literal (spelled s)] := by
  cases q <;> rfl

theorem callTokens_join (op : Connective) (a b : Expr String) :
    callTokens (op.join a b) = methodTokens op.method (callTokens a) (callTokens b) := by
  rcases op with ⟨_ | _⟩ | ⟨_ | _⟩ <;> rfl

theorem endsIdentifier_of_delimiter {c : Char} (hc : c ∈ [' ', '(', ')', ',', ':']) (rest : List Char) :
    EndsIdentifier (c :: rest) := by
  have hall : [' ', '(', ')', ',', ':'].all (fun c => !isIdentifierPart c) = true := by decide +kernel
  rw [endsIdentifier_cons]
  simpa using List.all_eq_true.mp hall c hc

theorem tokens?_constructor {name : String} (hname : isPlainWord name.toList = true) (rest : List Char) :
    tokens? ("Expr::".toList ++ (name.toList ++ '(' :: rest)) = (tokens? rest).map
      (.word "Expr" :: .sign ":" :: .sign ":" :: .word name :: .opening .round :: ·) := by
  have hcolon (rest : List Char) : tokens? (':' :: rest) = (tokens? rest).map (.sign ":" :: ·) :=
    tokens?_sign (by decide) rfl
  have htext : "Expr::".toList ++ (name.toList ++ '(' :: rest) =
      "Expr".toList ++ ':' :: ':' :: (name.toList ++ '(' :: rest) := rfl
  rw [htext, tokens?_word rfl (endsIdentifier_of_delimiter (by decide) _), hcolon, hcolon,
    tokens?_word hname (endsIdentifier_of_delimiter (by decide) _), tokens?_opening]
  simp only [Option.map_map, Function.comp_def]

theorem tokens?_method {name : String} (hname : isPlainWord name.toList = true) (rest : List Char) :
    tokens? (')' :: '.' :: (name.toList ++ '(' :: rest)) = (tokens? rest).map
      (.closing .round :: .sign "." :: .word name :: .opening .round :: ·) := by
  have hdot (rest : List Char) : tokens? ('.' :: rest) = (tokens? rest).map (.sign "." :: ·) :=
    tokens?_sign (by decide) rfl
  rw [tokens?_closing, hdot, tokens?_word hname (endsIdentifier_of_delimiter (by decide) _), tokens?_opening]
  simp only [Option.map_map, Function.comp_def]

theorem tokens?_code {e : Expr String} (he : ∀ a ∈ e.labels, IsName a) (rest : List Char) :
    tokens? ((Builder.ofExpr e).code.toList ++ rest) = (tokens? rest).map (callTokens e ++ ·) := by
  induction e using Expr.join_induction generalizing rest with
  | var a =>
    have ha := (he a (by simp [Expr.labels, Expr.leaves, Expr.var, Atom.labels])).1
    have htext : (Builder.ofExpr (.var a)).code.toList ++ rest =
        "Expr::".toList ++ ("atom".toList ++ '(' :: ((spelled a).toList ++ ')' :: rest)) := by
      simp only [Builder.code_ofExpr_var, String.toList_append, List.append_assoc]
      rfl
    rw [htext, tokens?_constructor rfl, tokens?_spelled ha (endsIdentifier_of_delimiter (by decide) _),
      tokens?_closing]
    simp only [Option.map_map, Function.comp_def]
    rfl
  | quantified q x s =>
    rw [Expr.labels_over] at he
    have hx := (he x (by simp)).1
    have hs := (he s (by simp)).1
    have htext : (Builder.ofExpr (q.over x s)).code.toList ++ rest = "Expr::".toList ++ (q.function.toList ++ '(' ::
        ((spelled x).toList ++ ',' :: ((spelled s).toList ++ ')' :: rest))) := by
      simp only [Builder.code_ofExpr_over, String.toList_append, List.append_assoc]
      rfl
    have hcomma (rest : List Char) : tokens? (',' :: rest) = (tokens? rest).map (.sign "," :: ·) :=
      tokens?_sign (by decide) rfl
    rw [htext, tokens?_constructor (isPlainWord_function q),
      tokens?_spelled hx (endsIdentifier_of_delimiter (by decide) _), hcomma,
      tokens?_spelled hs (endsIdentifier_of_delimiter (by decide) _), tokens?_closing, callTokens_over]
    simp only [Option.map_map, Function.comp_def]
    rfl
  | not a ih =>
    have htext : (Builder.ofExpr (.not a)).code.toList ++ rest =
        '(' :: ((Builder.ofExpr a).code.toList ++ ')' :: '.' :: ("not".toList ++ '(' :: ')' :: rest)) := by
      simp only [Builder.code_ofExpr_not, Builder.method, String.toList_append, List.append_assoc]
      rfl
    rw [htext, tokens?_opening, ih he, tokens?_method rfl, tokens?_closing]
    simp only [Option.map_map, Function.comp_def, callTokens, methodTokens, List.cons_append,
      List.append_assoc, List.nil_append]
  | join op a b iha ihb =>
    rw [Expr.labels_join] at he
    have hea : ∀ c ∈ a.labels, IsName c := fun c hc => he c (List.mem_append_left _ hc)
    have heb : ∀ c ∈ b.labels, IsName c := fun c hc => he c (List.mem_append_right _ hc)
    have htext : (Builder.ofExpr (op.join a b)).code.toList ++ rest = '(' :: ((Builder.ofExpr a).code.toList ++
        ')' :: '.' :: (op.method.toList ++ '(' :: ((Builder.ofExpr b).code.toList ++ ')' :: rest))) := by
      simp only [Builder.code_ofExpr_join, Builder.method, String.toList_append, List.append_assoc]
      rfl
    rw [htext, tokens?_opening, iha hea, tokens?_method (isPlainWord_method op), ihb heb,
      tokens?_closing, callTokens_join]
    simp only [Option.map_map, Function.comp_def, methodTokens, List.cons_append, List.append_assoc,
      List.nil_append]

theorem balanced_callTokens (e : Expr String) (opened : List Bracket) (rest : List Token) :
    balanced opened (callTokens e ++ rest) = balanced opened rest := by
  induction e using Expr.join_induction generalizing opened rest with
  | var a => rfl
  | quantified q x s =>
    rw [callTokens_over]
    rfl
  | not a ih => simp [callTokens, methodTokens, balanced, ih]
  | join op a b iha ihb => simp [callTokens_join, methodTokens, balanced, iha, ihb]

theorem evaluate?_callTokens {e : Expr String} (he : ∀ a ∈ e.labels, IsName a) (stack : List Pending)
    (rest : List Token) : evaluate? stack none (callTokens e ++ rest) = evaluate? stack (some e) rest := by
  induction e using Expr.join_induction generalizing stack rest with
  | var a =>
    have ha := (he a (by simp [Expr.labels, Expr.leaves, Expr.var, Atom.labels])).1
    simp [callTokens, Expr.var, constructorTokens, evaluate?, label?_spelled ha, construct?]
  | quantified q x s =>
    rw [Expr.labels_over] at he
    have hx := (he x (by simp)).1
    have hs := (he s (by simp)).1
    rw [callTokens_over]
    cases q <;> simp [constructorTokens, evaluate?, label?_spelled hx, label?_spelled hs, construct?,
      Quantifier.function, Quantifier.over]
  | not a ih => simp [callTokens, methodTokens, evaluate?, ih he]
  | join op a b iha ihb =>
    rw [Expr.labels_join] at he
    have hea : ∀ c ∈ a.labels, IsName c := fun c hc => he c (List.mem_append_left _ hc)
    have heb : ∀ c ∈ b.labels, IsName c := fun c hc => he c (List.mem_append_right _ hc)
    have hop : connective? op.method = some op := by rcases op with ⟨_ | _⟩ | ⟨_ | _⟩ <;> rfl
    have hnot : op.method ≠ "not" := by rcases op with ⟨_ | _⟩ | ⟨_ | _⟩ <;> decide
    simp [callTokens_join, methodTokens, evaluate?, iha hea, ihb heb, hop, hnot]

theorem expr?_code {e : Expr String} (he : ∀ a ∈ e.labels, IsName a) : expr? (Builder.ofExpr e).code = some e := by
  have htokens : tokens? (Builder.ofExpr e).code.toList = some (callTokens e) := by
    have h := tokens?_code he []
    rw [List.append_nil, tokens?] at h
    rw [h]
    simp
  have hbalanced := balanced_callTokens e [] []
  have hvalue := evaluate?_callTokens he [] []
  rw [List.append_nil] at hbalanced hvalue
  rw [expr?, tokenize?_of_tokens? htokens, hbalanced]
  exact hvalue

end Inline

end PseudoBoolean
