namespace PseudoBoolean.Inline

/-- What a literal holds: text, bytes, or text that a NUL ends and that can therefore hold none. -/
inductive Content
  | text
  | bytes
  | terminated
deriving DecidableEq

namespace Content

def holds (c : Char) : Content → Bool
  | .text => true
  | .bytes => c.toNat < 128
  | .terminated => c ≠ '\x00'

def holdsByte (value : Nat) : Content → Bool
  | .text => value < 128
  | .bytes => true
  | .terminated => value ≠ 0

def holdsCodePoint (value : Nat) : Content → Bool
  | .text => value.isValidChar
  | .bytes => false
  | .terminated => value.isValidChar && value ≠ 0

end Content

def hexValue? (c : Char) : Option Nat :=
  if c.isDigit then some (c.toNat - '0'.toNat)
  else if 'a' ≤ c ∧ c ≤ 'f' then some (c.toNat - 'a'.toNat + 10)
  else if 'A' ≤ c ∧ c ≤ 'F' then some (c.toNat - 'A'.toNat + 10)
  else none

inductive Within
  | text
  | escape
  | highDigit
  | lowDigit (high : Nat)
  | brace
  | codePoint (value digits : Nat)
  | afterReturn
  | continuation
  | continuationReturn
deriving DecidableEq

namespace Within

def inText (content : Content) (c : Char) : Option Within :=
  match c with
  | '\\' => some .escape
  | '\r' => some .afterReturn
  | c => if content.holds c then some .text else none

def inEscape (content : Content) (c : Char) : Option Within :=
  match c with
  | 'n' | 'r' | 't' | '\\' | '\'' | '"' => some .text
  | '0' => if content.holdsByte 0 then some .text else none
  | 'x' => some .highDigit
  | 'u' => some .brace
  | '\n' => some .continuation
  | '\r' => some .continuationReturn
  | _ => none

def inCodePoint (content : Content) (value digits : Nat) (c : Char) : Option Within :=
  match hexValue? c with
  | some d => if digits < 6 then some (.codePoint (16 * value + d) (digits + 1)) else none
  | none =>
    if digits = 0 then none
    else if c = '_' then some (.codePoint value digits)
    else if c = '\x7d' ∧ content.holdsCodePoint value then some .text
    else none

def next (content : Content) (w : Within) (c : Char) : Option Within :=
  match w with
  | .text => inText content c
  | .escape => inEscape content c
  | .highDigit => (hexValue? c).map .lowDigit
  | .lowDigit high => (hexValue? c).bind fun low => if content.holdsByte (16 * high + low) then some .text else none
  | .brace => if c = '\x7b' then some (.codePoint 0 0) else none
  | .codePoint value digits => inCodePoint content value digits c
  | .afterReturn => if c = '\n' then some .text else none
  -- A newline behind a backslash hides itself and the blanks that follow it.
  | .continuation =>
    match c with
    | ' ' | '\t' | '\n' => some .continuation
    | '\r' => some .continuationReturn
    | c => inText content c
  | .continuationReturn => if c = '\n' then some .continuation else none

def mayEnd : Within → Bool
  | .text | .continuation => true
  | _ => false

end Within

def literalLength? (content : Content) (w : Within) : List Char → Option Nat
  | [] => none
  | c :: cs =>
    if c = '"' ∧ w.mayEnd then some 1
    else
      match w.next content c with
      | some w => (literalLength? content w cs).map (· + 1)
      | none => none

def rawLength? (content : Content) (hashes : List Char) : List Char → Option Nat
  | [] => none
  | c :: cs =>
    if c = '"' ∧ hashes.isPrefixOf cs then some (hashes.length + 1)
    else if c = '\r' ∧ cs.head? ≠ some '\n' then none
    else if content.holds c then (rawLength? content hashes cs).map (· + 1)
    else none

def rawLiteralLength? (content : Content) (cs : List Char) : Option Nat :=
  let hashes := cs.takeWhile (· = '#')
  match cs.drop hashes.length with
  | '"' :: cs =>
    if hashes.length ≤ 255 then (rawLength? content hashes cs).map (· + hashes.length + 1) else none
  | _ => none

def escapeLength? (content : Content) (w : Within) : List Char → Option Nat
  | [] => none
  | c :: cs =>
    match w.next content c with
    | some .text => some 1
    | some .continuation | some .continuationReturn | none => none
    | some w => (escapeLength? content w cs).map (· + 1)

def charLength? (content : Content) : List Char → Option Nat
  | '\\' :: cs =>
    (escapeLength? content .escape cs).bind fun n => if (cs.drop n).head? = some '\'' then some (n + 2) else none
  | c :: '\'' :: _ => if content.holds c then some 2 else none
  | _ => none

end PseudoBoolean.Inline
