import PseudoBoolean.Compile
import PseudoBoolean.Constraint.Render

namespace PseudoBoolean

structure ReportOptions where
  format : Format := .text
  showInput : Bool := true
  showCnf : Bool := true
  showConstraints : Bool := true
deriving DecidableEq

namespace Report

def item (format : Format) (text : String) : String :=
  match format with
  | .text => text
  | .latex => "$" ++ text ++ "$"

def sectionText (format : Format) (header : String) (items : List String) : String :=
  header ++ "\n" ++ String.join (items.map fun text => "    " ++ item format text ++ "\n")

end Report

open Report in
def Compiled.report (options : ReportOptions) (c : Compiled) : String :=
  let format := options.format
  (if options.showInput then sectionText format "Input:" [c.expression.render format.style] else "") ++
  (if options.showCnf then sectionText format "CNF:" [c.cnf.render format.style] else "") ++
  (if options.showConstraints then sectionText format "Constraints:" (c.constraints.map (·.render format)) else "")

end PseudoBoolean
