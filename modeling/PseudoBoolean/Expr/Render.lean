import PseudoBoolean.Expr.Basic

namespace PseudoBoolean

inductive Style
  | source
  | unicode
  | latex
deriving DecidableEq

namespace Style

def not : Style → String
  | .source => "!"
  | .unicode => "¬"
  | .latex => "\\neg "

def and : Style → String
  | .source => " & "
  | .unicode => " ∧ "
  | .latex => " \\land "

def or : Style → String
  | .source => " | "
  | .unicode => " ∨ "
  | .latex => " \\lor "

def imp : Style → String
  | .source => " -> "
  | .unicode => " ⟶ "
  | .latex => " \\rightarrow "

def iff : Style → String
  | .source => " == "
  | .unicode => " ⟷ "
  | .latex => " \\leftrightarrow "

def one (x X : String) : Style → String
  | .source => "one " ++ x ++ " in " ++ X
  | .unicode => "\x7b⋁ " ++ x ++ " ∈ " ++ X ++ "\x7d"
  | .latex => "\\bigvee_\x7b" ++ x ++ " \\in " ++ X ++ "\x7d " ++ x

def all (x X : String) : Style → String
  | .source => "all " ++ x ++ " in " ++ X
  | .unicode => "\x7b⋀ " ++ x ++ " ∈ " ++ X ++ "\x7d"
  | .latex => "\\bigwedge_\x7b" ++ x ++ " \\in " ++ X ++ "\x7d " ++ x

def pair (sign a b : String) : String := "(" ++ a ++ sign ++ b ++ ")"

end Style

variable {α : Type} [ToString α]

def Atom.render (style : Style) : Atom α → String
  | .plain a => toString a
  | .one r => style.one (toString r.element) (toString r.set)
  | .all r => style.all (toString r.element) (toString r.set)

def Expr.render (style : Style) : Expr α → String
  | .atom a => a.render style
  | .not a => style.not ++ a.render style
  | .and a b => Style.pair style.and (a.render style) (b.render style)
  | .or a b => Style.pair style.or (a.render style) (b.render style)
  | .imp a b => Style.pair style.imp (a.render style) (b.render style)
  | .iff a b => Style.pair style.iff (a.render style) (b.render style)

instance : ToString (Expr α) := ⟨Expr.render .source⟩

def Literal.render (style : Style) (l : Literal α) : String := l.toExpr.render style

end PseudoBoolean
