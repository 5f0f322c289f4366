import PseudoBoolean.Diagnostic
import PseudoBoolean.Text.Word

namespace PseudoBoolean

open Text

def isBlank (c : Char) : Bool := c == ' ' || c == '\t' || c == '\r'

inductive Piece
  | token (kind : Token.Kind) (chars : List Char)
  | blank (c : Char)
  | unexpected (c : Char)
deriving DecidableEq

namespace Piece

def chars : Piece → List Char
  | .token _ cs => cs
  | .blank c | .unexpected c => [c]

def front (c : Char) (rest : List Char) : Piece :=
  match c with
  | '(' => .token .leftParen [c]
  | ')' => .token .rightParen [c]
  | '!' => .token .not [c]
  | '&' => .token .and [c]
  | '|' => .token .or [c]
  | '-' => if rest.head? = some '>' then .token .implies [c, '>'] else .unexpected c
  | '=' => if rest.head? = some '=' then .token .equivalent [c, '='] else .unexpected c
  | _ =>
    if isBlank c then .blank c
    else if isWordStart c then
      let word := c :: rest.takeWhile isWordPart
      .token (.ofWord (String.ofList word)) word
    else .unexpected c

def rest (c : Char) (cs : List Char) : List Char := cs.drop ((front c cs).chars.length - 1)

theorem front_chars_append_rest (c : Char) (cs : List Char) : (front c cs).chars ++ rest c cs = c :: cs := by
  have drop_takeWhile (p : Char → Bool) : cs.takeWhile p ++ cs.drop (cs.takeWhile p).length = cs := by
    induction cs with
    | nil => rfl
    | cons d ds ih => by_cases h : p d <;> simp [h, ih]
  have cons_tail {d : Char} (h : cs.head? = some d) : d :: cs.tail = cs := by
    cases cs <;> simp_all
  unfold rest front
  split
  case h_6 | h_7 => split <;> simp [chars, *]
  case h_8 => (repeat' split) <;> simp [chars, drop_takeWhile]
  all_goals simp [chars]

theorem rest_length (c : Char) (cs : List Char) : (rest c cs).length < cs.length + 1 := by
  simp only [rest, List.length_drop]
  omega

end Piece

def pieces : List Char → List Piece
  | [] => []
  | c :: cs => Piece.front c cs :: pieces (Piece.rest c cs)
termination_by cs => cs.length
decreasing_by exact Piece.rest_length c cs

theorem flatMap_chars_pieces (cs : List Char) : (pieces cs).flatMap Piece.chars = cs := by
  fun_induction pieces cs with
  | case1 => rfl
  | case2 c cs ih => rw [List.flatMap_cons, ih, Piece.front_chars_append_rest]

def byteLength (cs : List Char) : Nat := cs.foldr (fun c n => c.utf8Size + n) 0

/-- Each piece with the offset of its first byte, if the first piece starts at `offset`. -/
def placed (offset : Nat) : List Piece → List (Nat × Piece)
  | [] => []
  | p :: ps => (offset, p) :: placed (offset + byteLength p.chars) ps

structure Unexpected where
  char : Char
  offset : Nat
deriving DecidableEq

namespace Piece

def tokenAt? (offset : Nat) : Piece → Option Token
  | .token kind cs => some ⟨kind, String.ofList cs, ⟨offset, offset + byteLength cs⟩⟩
  | .blank _ | .unexpected _ => none

def unexpectedAt? (offset : Nat) : Piece → Option Unexpected
  | .unexpected c => some ⟨c, offset⟩
  | .token _ _ | .blank _ => none

end Piece

def Unexpected.diagnostic (u : Unexpected) : Diagnostic where
  stage := .lex
  message := "unexpected character '" ++ u.char.toString ++ "'"
  location := .text ⟨u.offset, u.offset + u.char.utf8Size⟩ u.char.toString

structure Scan where
  tokens : List Token
  unexpected : List Unexpected
deriving DecidableEq

def Scan.diagnostics (s : Scan) : List Diagnostic := s.unexpected.map Unexpected.diagnostic

def scan (source : String) : Scan :=
  let ps := placed 0 (pieces source.toList)
  { tokens := ps.filterMap (fun (offset, p) => p.tokenAt? offset) ++ [.endAt (byteLength source.toList)]
    unexpected := ps.filterMap fun (offset, p) => p.unexpectedAt? offset }

end PseudoBoolean
