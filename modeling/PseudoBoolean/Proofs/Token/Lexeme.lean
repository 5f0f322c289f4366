import PseudoBoolean.Token.Scan

namespace PseudoBoolean

open Text

def Text.isIdentifier : List Char → Bool
  | [] => false
  | c :: cs => (c.isAlpha || c == '_') && cs.all fun d => d.isAlphanum || d == '_'

theorem Text.isWordPart_of_mem_identifier {cs : List Char} (h : isIdentifier cs = true) {c : Char} (hc : c ∈ cs) :
    isWordPart c = true := by
  cases cs with
  | nil => cases hc
  | cons d ds =>
    obtain ⟨hstart, hparts⟩ := Bool.and_eq_true_iff.mp h
    rcases List.mem_cons.mp hc with rfl | hc
    · exact isWordPart_of_isWordStart hstart
    · exact List.all_eq_true.mp hparts c hc

def Token.Kind.isWord : Kind → Bool
  | .identifier | .one | .all | .memberOf => true
  | _ => false

inductive Lexeme : Token.Kind → List Char → Prop
  | leftParen : Lexeme .leftParen ['(']
  | rightParen : Lexeme .rightParen [')']
  | not : Lexeme .not ['!']
  | and : Lexeme .and ['&']
  | or : Lexeme .or ['|']
  | implies : Lexeme .implies ['-', '>']
  | equivalent : Lexeme .equivalent ['=', '=']
  | word {cs} : isIdentifier cs = true → Lexeme (.ofWord (String.ofList cs)) cs

theorem Lexeme.of_isIdentifier {kind : Token.Kind} {a : String} (h : isIdentifier a.toList = true)
    (hk : Token.Kind.ofWord a = kind) : Lexeme kind a.toList := by
  have hword := Lexeme.word h
  rwa [String.ofList_toList, hk] at hword

theorem Lexeme.kind_ne_eof {kind : Token.Kind} {cs : List Char} (h : Lexeme kind cs) : kind ≠ .eof := by
  cases h with
  | leftParen | rightParen | not | and | or | implies | equivalent => decide
  | word =>
    unfold Token.Kind.ofWord Token.Kind.keyword?
    split <;> decide

def keywords : List String := ["one", "any", "all", "in", "of"]

def IsName (a : String) : Prop := isIdentifier a.toList = true ∧ a ∉ keywords

instance (a : String) : Decidable (IsName a) := inferInstanceAs (Decidable (_ ∧ _))

theorem Token.Kind.ofWord_of_notMem_keywords {a : String} (h : a ∉ keywords) : ofWord a = .identifier := by
  unfold ofWord keyword?
  split
  case h_6 => rfl
  all_goals exact absurd h (by decide)

theorem IsName.lexeme {a : String} (h : IsName a) : Lexeme .identifier a.toList :=
  .of_isIdentifier h.1 (Token.Kind.ofWord_of_notMem_keywords h.2)

/-- No word that ends before the text goes on in it. -/
def EndsWord (rest : List Char) : Prop := ∀ c ∈ rest.head?, isWordPart c = false

theorem endsWord_nil : EndsWord [] := by
  simp [EndsWord]

theorem endsWord_cons {c : Char} {cs : List Char} : EndsWord (c :: cs) ↔ isWordPart c = false := by
  simp [EndsWord]

theorem EndsWord.takeWhile_eq_nil {rest : List Char} (h : EndsWord rest) : rest.takeWhile isWordPart = [] := by
  cases rest with
  | nil => rfl
  | cons c rest => simp [endsWord_cons.mp h]

theorem takeWhile_append_of_endsWord {rest : List Char} (hrest : EndsWord rest) (cs : List Char) :
    (cs ++ rest).takeWhile isWordPart = cs.takeWhile isWordPart := by
  induction cs with
  | nil => exact hrest.takeWhile_eq_nil
  | cons c cs ih => by_cases hc : isWordPart c = true <;> simp [hc, ih]

theorem takeWhile_word {cs rest : List Char} (hcs : cs.all isWordPart = true) (hrest : EndsWord rest) :
    (cs ++ rest).takeWhile isWordPart = cs := by
  rw [List.takeWhile_append_of_pos (List.all_eq_true.mp hcs), hrest.takeWhile_eq_nil, List.append_nil]

theorem Piece.front_of_isWordStart {c : Char} (hc : isWordStart c = true) (rest : List Char) :
    front c rest =
      .token (.ofWord (String.ofList (c :: rest.takeWhile isWordPart))) (c :: rest.takeWhile isWordPart) := by
  unfold front
  split
  case h_8 =>
    have hblank : isBlank c = false := by
      apply Bool.eq_false_iff.mpr
      intro hb
      simp only [isBlank, Bool.or_eq_true, beq_iff_eq] at hb
      rcases hb with (rfl | rfl) | rfl <;> exact absurd hc (by decide)
    simp [hblank, hc]
  all_goals exact absurd hc (by decide)

theorem Piece.lexeme_of_front {c : Char} {rest cs : List Char} {kind : Token.Kind}
    (h : front c rest = .token kind cs) : Lexeme kind cs := by
  unfold front at h
  split at h
  case h_6 =>
    split at h <;> cases h
    exact .implies
  case h_7 =>
    split at h <;> cases h
    exact .equivalent
  case h_8 =>
    split at h
    · cases h
    · split at h
      next hc =>
        cases h
        have hword : (rest.takeWhile isWordPart).all isWordPart = true := List.all_takeWhile
        exact .word (Bool.and_eq_true_iff.mpr ⟨hc, hword⟩)
      · cases h
  all_goals cases h; constructor

theorem lexeme_of_mem_pieces {text cs : List Char} {kind : Token.Kind} (h : .token kind cs ∈ pieces text) :
    Lexeme kind cs := by
  fun_induction pieces text with
  | case1 => cases h
  | case2 c rest ih =>
    rcases List.mem_cons.mp h with h | h
    · exact Piece.lexeme_of_front h.symm
    · exact ih h

theorem pieces_append {c : Char} {cs rest : List Char} {p : Piece} (hp : Piece.front c (cs ++ rest) = p)
    (hc : p.chars = c :: cs) : pieces (c :: (cs ++ rest)) = p :: pieces rest := by
  rw [pieces, Piece.rest, hp, hc]
  simp

theorem pieces_blank {c : Char} (hc : isBlank c = true) (rest : List Char) :
    pieces (c :: rest) = .blank c :: pieces rest := by
  simp only [isBlank, Bool.or_eq_true, beq_iff_eq] at hc
  rcases hc with (rfl | rfl) | rfl <;> rw [pieces] <;> rfl

theorem endsWord_of_isBlank {c : Char} (h : isBlank c = true) (rest : List Char) : EndsWord (c :: rest) := by
  apply endsWord_cons.mpr
  simp only [isBlank, Bool.or_eq_true, beq_iff_eq] at h
  rcases h with (rfl | rfl) | rfl <;> rfl

theorem pieces_lexeme {kind : Token.Kind} {cs rest : List Char} (h : Lexeme kind cs)
    (hrest : isIdentifier cs = true → EndsWord rest) : pieces (cs ++ rest) = .token kind cs :: pieces rest := by
  cases h with
  | leftParen | rightParen | not | and | or | implies | equivalent => exact pieces_append rfl rfl
  | word hword =>
    cases cs with
    | nil => cases hword
    | cons c cs =>
      obtain ⟨hc, hcs⟩ := Bool.and_eq_true_iff.mp hword
      have hfront := Piece.front_of_isWordStart hc (cs ++ rest)
      rw [takeWhile_word hcs (hrest hword)] at hfront
      exact pieces_append hfront rfl

namespace Piece

def isSolid : Piece → Bool
  | .blank _ => false
  | .token _ _ | .unexpected _ => true

def word? : Piece → Option (Token.Kind × String)
  | .token kind cs => some (kind, String.ofList cs)
  | .blank _ | .unexpected _ => none

def ofWord (w : Token.Kind × String) : Piece := .token w.1 w.2.toList

end Piece

def Token.word (t : Token) : Token.Kind × String := (t.kind, t.lexeme)

def solids (cs : List Char) : List Piece := (pieces cs).filter Piece.isSolid

theorem solids_nil : solids [] = [] := by
  simp [solids, pieces]

theorem solids_blank {c : Char} (hc : isBlank c = true) (rest : List Char) : solids (c :: rest) = solids rest := by
  rw [solids, pieces_blank hc]
  rfl

theorem solids_lexeme {kind : Token.Kind} {cs rest : List Char} (h : Lexeme kind cs)
    (hrest : isIdentifier cs = true → EndsWord rest) : solids (cs ++ rest) = .token kind cs :: solids rest := by
  rw [solids, pieces_lexeme h hrest]
  rfl

theorem solids_sign {kind : Token.Kind} {c : Char} (h : Lexeme kind [c]) (hc : isIdentifier [c] = false)
    (rest : List Char) : solids (c :: rest) = .token kind [c] :: solids rest := by
  apply solids_lexeme h
  intro hword
  rw [hc] at hword
  cases hword

theorem filterMap_word?_solids (cs : List Char) :
    (solids cs).filterMap Piece.word? = (pieces cs).filterMap Piece.word? := by
  rw [solids, List.filterMap_filter]
  congr 1
  funext p
  cases p <;> rfl

theorem mem_of_mem_placed {offset n : Nat} {p : Piece} {ps : List Piece} (h : (n, p) ∈ placed offset ps) :
    p ∈ ps := by
  induction ps generalizing offset with
  | nil => cases h
  | cons q ps ih =>
    rcases List.mem_cons.mp h with h | h
    · cases h
      exact List.mem_cons_self
    · exact List.mem_cons_of_mem _ (ih h)

theorem map_word_placed (offset : Nat) (ps : List Piece) :
    ((placed offset ps).filterMap fun (offset, p) => p.tokenAt? offset).map Token.word = ps.filterMap Piece.word? := by
  induction ps generalizing offset with
  | nil => rfl
  | cons p ps ih =>
    cases p with
    | token kind cs => exact congrArg ((kind, String.ofList cs) :: ·) (ih _)
    | blank c | unexpected c => exact ih _

theorem exists_scan_tokens (source : String) :
    ∃ ts, (scan source).tokens = ts ++ [.endAt (byteLength source.toList)] ∧ (∀ t ∈ ts, t.kind ≠ .eof) ∧
      ts.map Token.word = (solids source.toList).filterMap Piece.word? := by
  refine ⟨_, rfl, ?_, ?_⟩
  · intro t ht
    obtain ⟨⟨n, p⟩, hp, h⟩ := List.mem_filterMap.mp ht
    cases p <;> cases h
    exact (lexeme_of_mem_pieces (mem_of_mem_placed hp)).kind_ne_eof
  · rw [map_word_placed, filterMap_word?_solids]

theorem scan_unexpected_eq_nil {source : String} (h : ∀ c, .unexpected c ∉ solids source.toList) :
    (scan source).unexpected = [] := by
  apply List.filterMap_eq_nil_iff.mpr
  rintro ⟨n, p⟩ hp
  cases p with
  | token | blank => rfl
  | unexpected c => exact absurd (List.mem_filter.mpr ⟨mem_of_mem_placed hp, rfl⟩) (h c)

theorem exists_scan_tokens_of_solids {source : String} {ws : List (Token.Kind × String)}
    (h : solids source.toList = ws.map Piece.ofWord) :
    (scan source).unexpected = [] ∧ ∃ ts, (scan source).tokens = ts ++ [.endAt (byteLength source.toList)] ∧
      (∀ t ∈ ts, t.kind ≠ .eof) ∧ ts.map Token.word = ws := by
  obtain ⟨ts, htokens, heof, hwords⟩ := exists_scan_tokens source
  refine ⟨?_, ts, htokens, heof, ?_⟩
  · apply scan_unexpected_eq_nil
    intro c hc
    rw [h] at hc
    obtain ⟨w, -, hw⟩ := List.mem_map.mp hc
    cases hw
  · rw [hwords, h, List.filterMap_map]
    simp [Function.comp_def, Piece.ofWord, Piece.word?]

end PseudoBoolean
