import PseudoBoolean.Expr.Basic
import PseudoBoolean.Token.Basic

/-!
The grammar of expressions:

    expression   →  implication
    implication  →  binary  |  implication ( "->" | "==" ) binary
    binary       →  unary  |  binary ( "&" | "|" ) unary
    unary        →  primary  |  "!" unary
    primary      →  IDENTIFIER  |  ( "one" | "all" ) IDENTIFIER "in" IDENTIFIER  |  "(" expression ")"

A derivation carries its tree, and with each token the number of negations and parentheses around it.
-/

namespace PseudoBoolean

inductive Nonterminal
  | expression
  | implication
  | binary
  | unary
  | primary

/-- The tokens `ts`, of which those not enclosed any further stand under `d` negations and parentheses, have
a derivation with the tree `e`. -/
inductive Derives : Nat → Nonterminal → List (Nat × Token) → Expr String → Prop
  | implication {d ts e} : Derives d .implication ts e → Derives d .expression ts e
  | binary {d ts e} : Derives d .binary ts e → Derives d .implication ts e
  | implies {d ts us t a b} : Derives d .implication ts a → t.kind = .implies → Derives d .binary us b →
      Derives d .implication (ts ++ (d, t) :: us) (.imp a b)
  | equivalent {d ts us t a b} : Derives d .implication ts a → t.kind = .equivalent → Derives d .binary us b →
      Derives d .implication (ts ++ (d, t) :: us) (.iff a b)
  | unary {d ts e} : Derives d .unary ts e → Derives d .binary ts e
  | and {d ts us t a b} : Derives d .binary ts a → t.kind = .and → Derives d .unary us b →
      Derives d .binary (ts ++ (d, t) :: us) (.and a b)
  | or {d ts us t a b} : Derives d .binary ts a → t.kind = .or → Derives d .unary us b →
      Derives d .binary (ts ++ (d, t) :: us) (.or a b)
  | primary {d ts e} : Derives d .primary ts e → Derives d .unary ts e
  | not {d ts t a} : t.kind = .not → Derives (d + 1) .unary ts a → Derives d .unary ((d, t) :: ts) (.not a)
  | identifier {d t} : t.kind = .identifier → Derives d .primary [(d, t)] (.atom (.plain t.lexeme))
  | one {d t x i s} : t.kind = .one → x.kind = .identifier → i.kind = .memberOf → s.kind = .identifier →
      Derives d .primary [(d, t), (d, x), (d, i), (d, s)] (.atom (.one ⟨x.lexeme, s.lexeme⟩))
  | all {d t x i s} : t.kind = .all → x.kind = .identifier → i.kind = .memberOf → s.kind = .identifier →
      Derives d .primary [(d, t), (d, x), (d, i), (d, s)] (.atom (.all ⟨x.lexeme, s.lexeme⟩))
  | group {d l ts r e} : l.kind = .leftParen → Derives (d + 1) .expression ts e → r.kind = .rightParen →
      Derives d .primary ((d, l) :: (ts ++ [(d, r)])) e

end PseudoBoolean
