import PseudoBoolean.Inline.Token
import PseudoBoolean.Proofs.Token.Lexeme

namespace PseudoBoolean.Inline

open Text

theorem tokens?_append {c : Char} {cs rest : List Char} {lexeme : Lexeme}
    (h : front c (cs ++ rest) = some (lexeme, cs.length)) :
    tokens? (c :: (cs ++ rest)) = (tokens? rest).map ((lexeme.token? (c :: cs)).toList ++ ·) := by
  rw [tokens?, h]
  cases hrest : tokens? rest <;> simp [hrest]

theorem tokens?_blank {c : Char} (hc : isWhiteSpace c = true) (rest : List Char) :
    tokens? (c :: rest) = tokens? rest := by
  have hfront : front c ([] ++ rest) = some (.blank, 0) := if_pos (by simp [hc])
  have h := tokens?_append hfront
  simpa [Lexeme.token?] using h

theorem tokens?_opening (rest : List Char) : tokens? ('(' :: rest) = (tokens? rest).map (.opening .round :: ·) := by
  have hfront : front '(' ([] ++ rest) = some (.opening .round, 0) := rfl
  exact tokens?_append hfront

theorem tokens?_closing (rest : List Char) : tokens? (')' :: rest) = (tokens? rest).map (.closing .round :: ·) := by
  have hfront : front ')' ([] ++ rest) = some (.closing .round, 0) := rfl
  exact tokens?_append hfront

def specialStarts : List Char :=
  ['\u200e', '\u200f', '/', '"', 'r', 'b', 'c', '\'', '(', '[', '\x7b', ')', ']', '\x7d']

theorem front_of_notMem {c : Char} (hwhite : isWhiteSpace c = false) (hc : c ∉ specialStarts) (cs : List Char) :
    front c cs =
      if isIdentifierStart c then some (.word, (cs.takeWhile isIdentifierPart).length)
      else if c.isDigit then (numberLength? (c :: cs)).map fun n => (.other, n - 1)
      else if isDouble c cs then some (.sign, 1)
      else if isSign c then some (.sign, 0)
      else none := by
  unfold front
  split
  next hblank =>
    simp only [hwhite, Bool.false_or, Bool.or_eq_true, beq_iff_eq] at hblank
    rcases hblank with rfl | rfl <;> exact absurd hc (by decide)
  next =>
    split
    case h_22 => rfl
    all_goals exact absurd hc (by decide)

theorem dropByteOrderMark_of_tokens? {cs : List Char} {ts : List Token} (h : tokens? cs = some ts) :
    dropByteOrderMark cs = cs := by
  unfold dropByteOrderMark
  split
  next cs =>
    -- the mark itself is no token
    have hstart : isIdentifierStart '\ufeff' = false := by decide +kernel
    have hfront : front '\ufeff' cs = none := by
      rw [front_of_notMem (by decide) (by decide), hstart]
      rfl
    rw [tokens?, hfront] at h
    cases h
  · rfl

theorem tokenize?_of_tokens? {source : String} {ts : List Token} (h : tokens? source.toList = some ts) :
    tokenize? source = if balanced [] ts then some ts else none := by
  rw [tokenize?, dropByteOrderMark_of_tokens? h, h]
  rfl

def singleSigns : List Char := ['!', '&', '|', ':', ',', '.']

theorem isIdentifierStart_sign {c : Char} (hc : c ∈ '-' :: '=' :: singleSigns) : isIdentifierStart c = false := by
  have hall : ('-' :: '=' :: singleSigns).all (fun c => !isIdentifierStart c) = true := by decide +kernel
  simpa using List.all_eq_true.mp hall c hc

theorem front_sign {c : Char} (hc : c ∈ '-' :: '=' :: singleSigns) (cs : List Char) :
    front c cs = if isDouble c cs then some (.sign, 1) else some (.sign, 0) := by
  have hstart := isIdentifierStart_sign hc
  simp only [singleSigns, List.mem_cons, List.not_mem_nil, or_false] at hc
  rcases hc with rfl | rfl | rfl | rfl | rfl | rfl | rfl | rfl <;>
    rw [front_of_notMem (by decide) (by decide), hstart] <;> rfl

theorem tokens?_sign {c : Char} (hc : c ∈ singleSigns) {rest : List Char} (hrest : isDouble c rest = false) :
    tokens? (c :: rest) = (tokens? rest).map (.sign (String.ofList [c]) :: ·) := by
  have hfront : front c ([] ++ rest) = some (.sign, 0) := by
    rw [front_sign (List.mem_cons_of_mem _ (List.mem_cons_of_mem _ hc)), List.nil_append, hrest]
    rfl
  exact tokens?_append hfront

theorem tokens?_double {c d : Char} (hcd : (c, d) ∈ [('-', '>'), ('=', '=')]) (rest : List Char) :
    tokens? (c :: d :: rest) = (tokens? rest).map (.sign (String.ofList [c, d]) :: ·) := by
  have hfront : front c ([d] ++ rest) = some (.sign, 1) := by
    simp only [List.mem_cons, Prod.mk.injEq, List.not_mem_nil, or_false] at hcd
    rcases hcd with ⟨rfl, rfl⟩ | ⟨rfl, rfl⟩
    · rw [front_sign (by decide)]
      rfl
    · rw [front_sign (by decide)]
      rfl
  exact tokens?_append hfront

def EndsIdentifier (rest : List Char) : Prop := ∀ c ∈ rest.head?, isIdentifierPart c = false

theorem endsIdentifier_nil : EndsIdentifier [] := by
  simp [EndsIdentifier]

theorem endsIdentifier_cons {c : Char} {cs : List Char} : EndsIdentifier (c :: cs) ↔ isIdentifierPart c = false := by
  simp [EndsIdentifier]

theorem toNat_of_isWordPart {c : Char} (hc : isWordPart c = true) : 48 ≤ c.toNat ∧ c.toNat ≤ 122 := by
  have halphanum : c.isAlphanum = (decide (65 ≤ c.val ∧ c.val ≤ 90) || 97 ≤ c.val && c.val ≤ 122 ||
      48 ≤ c.val && c.val ≤ 57) := rfl
  simp only [isWordPart, halphanum, Bool.or_eq_true, Bool.and_eq_true, decide_eq_true_eq, beq_iff_eq,
    UInt32.le_iff_toNat_le, UInt32.reduceToNat, Char.toNat_val] at hc
  rcases hc with ((hc | hc) | hc) | rfl
  · omega
  · omega
  · omega
  · decide

theorem isWhiteSpace_of_isWordPart {c : Char} (hc : isWordPart c = true) : isWhiteSpace c = false := by
  have hrange := toNat_of_isWordPart hc
  simp only [isWhiteSpace, inRanges, whiteSpaceRanges, List.any_cons, List.any_nil, Bool.or_false, Bool.or_eq_false_iff,
    Bool.and_eq_false_iff, decide_eq_false_iff_not]
  omega

theorem isIdentifierPart_of_isWordPart {c : Char} (hc : isWordPart c = true) : isIdentifierPart c = true := by
  simp [isIdentifierPart, hc]

theorem takeWhile_isIdentifierPart {cs rest : List Char} (hcs : cs.all isWordPart = true)
    (hrest : EndsIdentifier rest) : (cs ++ rest).takeWhile isIdentifierPart = cs := by
  have hpart : ∀ c ∈ cs, isIdentifierPart c = true := fun c hc =>
    isIdentifierPart_of_isWordPart (List.all_eq_true.mp hcs c hc)
  rw [List.takeWhile_append_of_pos hpart]
  cases rest with
  | nil => simp
  | cons c rest => simp [endsIdentifier_cons.mp hrest]

theorem front_word {c : Char} {cs rest : List Char} (hc : isWordStart c = true) (hraw : c ∉ ['r', 'b', 'c'])
    (hcs : cs.all isWordPart = true) (hrest : EndsIdentifier rest) :
    front c (cs ++ rest) = some (.word, cs.length) := by
  have hwhite := isWhiteSpace_of_isWordPart (isWordPart_of_isWordStart hc)
  have hstart : isIdentifierStart c = true := by simp [isIdentifierStart, hc]
  have hplain : c ∉ specialStarts := by
    have hboth : isWordStart c = true ∧ c ∉ ['r', 'b', 'c'] := ⟨hc, hraw⟩
    intro hspecial
    simp only [specialStarts, List.mem_cons, List.not_mem_nil, or_false] at hspecial
    rcases hspecial with rfl | rfl | rfl | rfl | rfl | rfl | rfl | rfl | rfl | rfl | rfl | rfl | rfl | rfl <;>
      exact absurd hboth (by decide)
  rw [front_of_notMem hwhite hplain, if_pos hstart, takeWhile_isIdentifierPart hcs hrest]

def isPlainWord : List Char → Bool
  | [] => false
  | c :: cs => isIdentifier (c :: cs) && !(['r', 'b', 'c'].contains c)

theorem tokens?_word {word : String} (hword : isPlainWord word.toList = true) {rest : List Char}
    (hrest : EndsIdentifier rest) : tokens? (word.toList ++ rest) = (tokens? rest).map (.word word :: ·) := by
  rw [← String.ofList_toList (s := word)]
  generalize word.toList = cs at hword ⊢
  cases cs with
  | nil => cases hword
  | cons c cs =>
    obtain ⟨hidentifier, hraw⟩ := Bool.and_eq_true_iff.mp hword
    obtain ⟨hc, hcs⟩ := Bool.and_eq_true_iff.mp hidentifier
    have hplain : c ∉ ['r', 'b', 'c'] := by simpa using hraw
    rw [String.toList_ofList]
    exact tokens?_append (front_word hc hplain hcs hrest)

theorem literalLength?_word {cs : List Char} (hcs : cs.all isWordPart = true) (rest : List Char) :
    literalLength? .text .text (cs ++ '"' :: rest) = some (cs.length + 1) := by
  induction cs with
  | nil => simp [literalLength?, Within.mayEnd]
  | cons c cs ih =>
    obtain ⟨hc, hcs⟩ := Bool.and_eq_true_iff.mp hcs
    have hquote : c ≠ '"' := by
      rintro rfl
      exact absurd hc (by decide)
    have hnext : Within.next .text .text c = some .text := by
      change Within.inText .text c = some .text
      unfold Within.inText
      split
      · exact absurd hc (by decide)
      · exact absurd hc (by decide)
      · rfl
    simp [literalLength?, hquote, hnext, ih hcs]

theorem identifierLength_of_endsIdentifier {rest : List Char} (h : EndsIdentifier rest) :
    identifierLength rest = 0 := by
  cases rest with
  | nil => rfl
  | cons c rest =>
    have hpart := endsIdentifier_cons.mp h
    have hstart : isIdentifierStart c = false := by
      apply Bool.eq_false_iff.mpr
      intro hstart
      apply Bool.eq_false_iff.mp hpart
      simp only [isIdentifierStart, Bool.or_eq_true] at hstart
      rcases hstart with hstart | hstart
      · exact isIdentifierPart_of_isWordPart (isWordPart_of_isWordStart hstart)
      · simp [isIdentifierPart, hstart]
    simp [identifierLength, hstart]

def spelled (label : String) : String := "\"" ++ label ++ "\""

theorem front_literal {cs : List Char} (hcs : cs.all isWordPart = true) {rest : List Char}
    (hrest : EndsIdentifier rest) : front '"' (cs ++ ['"'] ++ rest) = some (.literal, (cs ++ ['"']).length) := by
  have hfront (text : List Char) : front '"' text = suffixed .literal text (literalLength? .text .text text) := rfl
  have hlength := literalLength?_word hcs rest
  have hdrop : (cs ++ '"' :: rest).drop (cs.length + 1) = rest := by
    rw [← List.drop_drop, List.drop_left]
    rfl
  have hsuffix := identifierLength_of_endsIdentifier hrest
  rw [List.append_assoc, List.singleton_append, hfront, hlength]
  simp [suffixed, hdrop, hsuffix]

theorem tokens?_spelled {label : String} (hlabel : isIdentifier label.toList = true) {rest : List Char}
    (hrest : EndsIdentifier rest) :
    tokens? ((spelled label).toList ++ rest) = (tokens? rest).map (.literal (spelled label) :: ·) := by
  have hparts : label.toList.all isWordPart = true := by
    cases hcs : label.toList with
    | nil => rfl
    | cons c cs =>
      rw [hcs] at hlabel
      obtain ⟨hc, hcs⟩ := Bool.and_eq_true_iff.mp hlabel
      exact Bool.and_eq_true_iff.mpr ⟨isWordPart_of_isWordStart hc, hcs⟩
  have htext : (spelled label).toList = '"' :: (label.toList ++ ['"']) := by simp [spelled]
  have htoken : Lexeme.literal.token? ('"' :: (label.toList ++ ['"'])) = some (.literal (spelled label)) := by
    rw [← htext, Lexeme.token?, String.ofList_toList]
  rw [htext, List.cons_append, tokens?_append (front_literal hparts hrest), htoken]
  rfl

end PseudoBoolean.Inline
