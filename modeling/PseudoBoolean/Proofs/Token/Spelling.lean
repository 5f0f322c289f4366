import PseudoBoolean.Proofs.Token.Lexeme

namespace PseudoBoolean

open Text

inductive Spelling : Token.Kind → String → Prop
  | leftParen : Spelling .leftParen "("
  | rightParen : Spelling .rightParen ")"
  | not : Spelling .not "!"
  | and : Spelling .and "&"
  | or : Spelling .or "|"
  | implies : Spelling .implies "->"
  | equivalent : Spelling .equivalent "=="
  | one : Spelling .one "one"
  | any : Spelling .one "any"
  | all : Spelling .all "all"
  | memberIn : Spelling .memberOf "in"
  | memberOf : Spelling .memberOf "of"
  | identifier {name : String} : IsName name → Spelling .identifier name

namespace Spelling

theorem lexeme {kind : Token.Kind} {text : String} (h : Spelling kind text) : Lexeme kind text.toList := by
  cases h with
  | leftParen => exact .leftParen
  | rightParen => exact .rightParen
  | not => exact .not
  | and => exact .and
  | or => exact .or
  | implies => exact .implies
  | equivalent => exact .equivalent
  | one | any | all | memberIn | memberOf =>
    apply Lexeme.of_isIdentifier
    · decide
    · decide
  | identifier hname => exact hname.lexeme

theorem isWord_of_isIdentifier {kind : Token.Kind} {text : String} (h : Spelling kind text)
    (hid : isIdentifier text.toList = true) : kind.isWord = true := by
  cases h with
  | leftParen | rightParen | not | and | or | implies | equivalent => exact absurd hid (by decide)
  | one | any | all | memberIn | memberOf | identifier => rfl

theorem endsWord {kind : Token.Kind} {text : String} (h : Spelling kind text) (hsign : kind.isWord = false)
    (rest : List Char) : EndsWord (text.toList ++ rest) := by
  cases h with
  | leftParen | rightParen | not | and | or | implies | equivalent =>
    apply endsWord_cons.mpr
    rfl
  | one | any | all | memberIn | memberOf | identifier => cases hsign

end Spelling

def AllBlank (text : String) : Prop := ∀ c ∈ text.toList, c = ' ' ∨ c = '\t' ∨ c = '\r'

instance (text : String) : Decidable (AllBlank text) := List.decidableBAll _ _

theorem AllBlank.isBlank {text : String} (h : AllBlank text) {c : Char} (hc : c ∈ text.toList) : isBlank c = true := by
  have hblank := h c hc
  simpa [PseudoBoolean.isBlank, or_assoc] using hblank

structure Written where
  kind : Token.Kind
  text : String
  gap : String

namespace Written

def word (w : Written) : Token.Kind × String := (w.kind, w.text)

def chars (w : Written) : List Char := w.text.toList ++ w.gap.toList

def Separate (v w : Written) : Prop := v.kind.isWord = true → w.kind.isWord = true → v.gap ≠ ""

instance (v w : Written) : Decidable (v.Separate w) := inferInstanceAs (Decidable (_ → _))

end Written

def writing (lead : String) (ws : List Written) : String := lead ++ String.join (ws.map fun w => w.text ++ w.gap)

theorem toList_writing (lead : String) (ws : List Written) :
    (writing lead ws).toList = lead.toList ++ ws.flatMap Written.chars := by
  rw [writing, String.toList_append, String.toList_join, List.flatMap_map]
  congr 2
  funext w
  exact String.toList_append

theorem solids_blanks {blanks : List Char} (h : ∀ c ∈ blanks, isBlank c = true) (rest : List Char) :
    solids (blanks ++ rest) = solids rest := by
  induction blanks with
  | nil => rfl
  | cons c blanks ih =>
    rw [List.cons_append, solids_blank (h c List.mem_cons_self)]
    apply ih
    intro d hd
    exact h d (List.mem_cons_of_mem _ hd)

theorem endsWord_gap {w : Written} {ws : List Written} (hws : ∀ v ∈ ws, Spelling v.kind v.text) (hgap : AllBlank w.gap)
    (hsep : ∀ v ∈ ws.head?, w.Separate v) (hword : w.kind.isWord = true) :
    EndsWord (w.gap.toList ++ ws.flatMap Written.chars) := by
  by_cases hempty : w.gap = ""
  · rw [hempty]
    cases ws with
    | nil => exact endsWord_nil
    | cons v ws =>
      have hsign : v.kind.isWord = false := by
        apply Bool.eq_false_iff.mpr
        intro hv
        exact hsep v rfl hword hv hempty
      have hends := (hws v List.mem_cons_self).endsWord hsign (v.gap.toList ++ ws.flatMap Written.chars)
      simpa [Written.chars] using hends
  · have hne : w.gap.toList ≠ [] := fun h => hempty (String.toList_eq_nil_iff.mp h)
    obtain ⟨c, cs, hcs⟩ := List.exists_cons_of_ne_nil hne
    rw [hcs]
    apply endsWord_of_isBlank
    apply hgap.isBlank
    rw [hcs]
    exact List.mem_cons_self

theorem solids_written {ws : List Written} (hws : ∀ w ∈ ws, Spelling w.kind w.text ∧ AllBlank w.gap)
    (hsep : ∀ p ∈ ws.zip ws.tail, p.1.Separate p.2) :
    solids (ws.flatMap Written.chars) = (ws.map Written.word).map Piece.ofWord := by
  induction ws with
  | nil => exact solids_nil
  | cons w ws ih =>
    -- `w` is scanned with all that is written behind it, which must not prolong it
    obtain ⟨hspelling, hgap⟩ := hws w List.mem_cons_self
    have htail : ∀ v ∈ ws, Spelling v.kind v.text ∧ AllBlank v.gap :=
      fun v hv => hws v (List.mem_cons_of_mem _ hv)
    have hnext : ∀ v ∈ ws.head?, w.Separate v := by
      intro v hv
      obtain ⟨us, rfl⟩ := List.head?_eq_some_iff.mp hv
      exact hsep (w, v) List.mem_cons_self
    have hsep' : ∀ p ∈ ws.zip ws.tail, p.1.Separate p.2 := by
      intro p hp
      apply hsep
      cases ws with
      | nil => cases hp
      | cons v us => exact List.mem_cons_of_mem _ hp
    have hends : isIdentifier w.text.toList = true → EndsWord (w.gap.toList ++ ws.flatMap Written.chars) := by
      intro hid
      apply endsWord_gap (fun v hv => (htail v hv).1) hgap hnext
      exact hspelling.isWord_of_isIdentifier hid
    rw [List.flatMap_cons, Written.chars, List.append_assoc, solids_lexeme hspelling.lexeme hends,
      solids_blanks fun c => hgap.isBlank, ih htail hsep']
    rfl

theorem scan_writing {lead : String} {ws : List Written} (hlead : AllBlank lead)
    (hws : ∀ w ∈ ws, Spelling w.kind w.text ∧ AllBlank w.gap) (hsep : ∀ p ∈ ws.zip ws.tail, p.1.Separate p.2) :
    (scan (writing lead ws)).diagnostics = [] ∧
    (scan (writing lead ws)).tokens.map Token.word = ws.map Written.word ++ [(.eof, "")] := by
  have hsolids : solids (writing lead ws).toList = (ws.map Written.word).map Piece.ofWord := by
    rw [toList_writing, solids_blanks fun c => hlead.isBlank, solids_written hws hsep]
  obtain ⟨hunexpected, ts, htokens, -, hwords⟩ := exists_scan_tokens_of_solids hsolids
  constructor
  · rw [Scan.diagnostics, hunexpected]
    rfl
  · rw [htokens, List.map_append, hwords]
    rfl

theorem scan_writing_without_blanks :
    let ws : List Written := [⟨.not, "!", ""⟩, ⟨.equivalent, "==", ""⟩, ⟨.equivalent, "==", ""⟩, ⟨.implies, "->", ""⟩,
      ⟨.identifier, "oneself", ""⟩, ⟨.leftParen, "(", ""⟩, ⟨.one, "any", "\t\r"⟩, ⟨.identifier, "x1", ""⟩]
    writing " " ws = " !====->oneself(any\t\rx1" ∧ (scan (writing " " ws)).diagnostics = [] ∧
      (scan (writing " " ws)).tokens.map Token.word = ws.map Written.word ++ [(.eof, "")] := by
  intro ws
  refine ⟨rfl, scan_writing (by decide) ?_ (by decide)⟩
  simp only [ws, List.forall_mem_cons]
  exact ⟨⟨.not, by decide⟩, ⟨.equivalent, by decide⟩, ⟨.equivalent, by decide⟩, ⟨.implies, by decide⟩,
    ⟨.identifier (by decide), by decide⟩, ⟨.leftParen, by decide⟩, ⟨.any, by decide⟩,
    ⟨.identifier (by decide), by decide⟩, by simp⟩

end PseudoBoolean
