import PseudoBoolean.Proofs.Parse.FirstError
import PseudoBoolean.Proofs.ReadBack
import PseudoBoolean.Proofs.Token.Tiling

namespace PseudoBoolean

open Text

def Piece.unrecognised? : Piece → Option Char
  | .unexpected c => some c
  | .token _ _ | .blank _ => none

def unrecognised (source : String) : List Char := (pieces source.toList).filterMap Piece.unrecognised?

/-- Under characters of the source as it is shown, which are those at fault, or behind its last character. -/
def Location.IsUnderlined (source : String) (column width : Nat) : Location → Prop
  | .text _ lexeme =>
    column + width ≤ source.length ∧ ((Diagnostic.shown source).toList.drop column).take width = lexeme.toList
  | .endOfText _ => column = source.length ∧ width = 1

structure Diagnostic.Underlines (d : Diagnostic) (source : String) (column width : Nat) : Prop where
  render_eq : d.render source = toString d ++ "\n" ++ shown source ++ "\n" ++
    String.ofList (List.replicate column ' ' ++ List.replicate width '^')
  charsBefore : charsBefore? source.toList d.location.offset = some column
  isUnderlined : d.location.IsUnderlined source column width

theorem charsBefore?_zero (cs : List Char) : charsBefore? cs 0 = some 0 := by
  cases cs <;> rfl

theorem charsBefore?_byteLength (cs ds : List Char) : charsBefore? (cs ++ ds) (byteLength cs) = some cs.length := by
  induction cs with
  | nil => exact charsBefore?_zero ds
  | cons c cs ih =>
    have hsize : byteLength (c :: cs) = c.utf8Size + byteLength cs := rfl
    have hpos := c.utf8Size_pos
    rw [hsize, List.cons_append, charsBefore?, if_pos (by omega), Nat.add_sub_cancel_left, ih]
    · rfl
    · omega

theorem Diagnostic.underlines_of_charsBefore {d : Diagnostic} {source : String} {column : Nat}
    (h : charsBefore? source.toList d.location.offset = some column)
    (hunder : d.location.IsUnderlined source column d.location.width) :
    d.Underlines source column d.location.width where
  render_eq := by
    rw [render, Diagnostic.column, h]
    rfl
  charsBefore := h
  isUnderlined := hunder

theorem Diagnostic.toList_shown (source : String) :
    (shown source).toList = source.toList.map fun c => if c = '\t' then ' ' else c := by
  simp [shown]

theorem Diagnostic.underlines_text {d : Diagnostic} {before text after : String} {span : Span}
    (hd : d.location = .text span text) (hspan : span.start = before.utf8ByteSize) (hne : text ≠ "")
    (htab : '\t' ∉ text.toList) : ∃ column width, d.Underlines (before ++ text ++ after) column width := by
  have hwidth : d.location.width = text.length := by
    have hpos : text.length ≠ 0 := fun h => hne (String.length_eq_zero_iff.mp h)
    rw [hd, Location.width]
    omega
  refine ⟨before.length, d.location.width, underlines_of_charsBefore ?_ ?_⟩
  · have hbefore := charsBefore?_byteLength before.toList (text ++ after).toList
    rw [byteLength_toList, ← String.toList_append, ← String.append_assoc, String.length_toList] at hbefore
    rwa [hd, Location.offset, hspan]
  · -- no tab is at fault, so what is underlined is shown as it stands
    have hshown : text.toList.map (fun c => if c = '\t' then ' ' else c) = text.toList := by
      have hsame : ∀ c ∈ text.toList, (if c = '\t' then ' ' else c) = id c := by
        intro c hc
        apply if_neg
        rintro rfl
        exact htab hc
      rw [List.map_congr_left hsame, List.map_id]
    rw [hwidth, hd]
    refine ⟨?_, ?_⟩
    · rw [String.length_append, String.length_append]
      omega
    · simp only [toList_shown, String.toList_append, List.map_append, List.append_assoc, hshown, ← String.length_toList]
      rw [List.drop_left' (by simp), List.take_left]

theorem Diagnostic.underlines_end {d : Diagnostic} {source : String}
    (hd : d.location = .endOfText source.utf8ByteSize) : ∃ column width, d.Underlines source column width := by
  refine ⟨source.length, d.location.width, underlines_of_charsBefore ?_ ?_⟩
  · have hend := charsBefore?_byteLength source.toList []
    rw [List.append_nil, byteLength_toList, String.length_toList] at hend
    rwa [hd]
  · rw [hd]
    exact ⟨rfl, rfl⟩

namespace Lexeme

theorem ne_nil {kind : Token.Kind} {cs : List Char} (h : Lexeme kind cs) : cs ≠ [] := by
  rintro rfl
  cases h with
  | word h => cases h

theorem tab_notMem {kind : Token.Kind} {cs : List Char} (h : Lexeme kind cs) : '\t' ∉ cs := by
  cases h with
  | leftParen | rightParen | not | and | or | implies | equivalent => decide
  | word hword =>
    intro htab
    have hpart : isWordPart '\t' = true := isWordPart_of_mem_identifier hword htab
    cases hpart

end Lexeme

theorem Piece.isBlank_eq_false_of_front {c d : Char} {cs : List Char} (h : front c cs = .unexpected d) :
    isBlank d = false := by
  unfold front at h
  split at h
  case h_8 =>
    split at h
    · cases h
    next hblank =>
      split at h <;> cases h
      exact Bool.eq_false_iff.mpr hblank
  case h_6 | h_7 =>
    split at h <;> cases h
    rfl
  all_goals cases h

theorem token_of_parseTokens_eq_error {tokens : List Token} {err : SyntaxError} (h : parseTokens tokens = .error err) :
    err.token ∈ beforeEnd tokens ∨ err.token = endToken tokens := by
  rcases parseTokens_eq_error h with hfold | ⟨state, -, hfinish⟩
  · obtain ⟨before, t, after, state, htokens, -, hfail⟩ := ParseState.exists_failing_step hfold
    left
    rw [(ParseState.step_eq_error hfail).1, htokens]
    exact List.mem_append_right _ List.mem_cons_self
  · right
    exact (ParseState.finish_eq_error hfinish).1

theorem map_char_placed (offset : Nat) (ps : List Piece) :
    ((placed offset ps).filterMap fun (offset, p) => p.unexpectedAt? offset).map Unexpected.char =
      ps.filterMap Piece.unrecognised? := by
  induction ps generalizing offset with
  | nil => rfl
  | cons p ps ih =>
    cases p with
    | unexpected c => exact congrArg (c :: ·) (ih _)
    | token | blank => exact ih _

theorem map_char_unexpected (source : String) : (scan source).unexpected.map Unexpected.char = unrecognised source :=
  map_char_placed 0 _

theorem exists_texts_of_mem_unexpected {source : String} {u : Unexpected} (h : u ∈ (scan source).unexpected) :
    ∃ before after, source = before ++ u.char.toString ++ after ∧ u.offset = before.utf8ByteSize ∧
      isBlank u.char = false := by
  obtain ⟨⟨n, p⟩, hmem, hp⟩ := List.mem_filterMap.mp h
  obtain ⟨before, after, c, rest, hsource, hn, hfront, -⟩ := exists_texts_of_mem_placed hmem
  cases p <;> cases hp
  refine ⟨before, after, ?_, hn, Piece.isBlank_eq_false_of_front hfront.symm⟩
  rw [hsource, Piece.chars, Char.toString, String.singleton_eq_ofList]

theorem underlines_of_unexpected {source : String} {u : Unexpected} (h : u ∈ (scan source).unexpected) :
    ∃ column width, u.diagnostic.Underlines source column width := by
  obtain ⟨before, after, rfl, hoffset, hblank⟩ := exists_texts_of_mem_unexpected h
  apply Diagnostic.underlines_text rfl hoffset
  · simp
  · intro htab
    have hchar : '\t' = u.char := by simpa using htab
    rw [← hchar] at hblank
    cases hblank

theorem underlines_of_token {source : String} {e : SyntaxError} (h : e.token ∈ beforeEnd (scan source).tokens) :
    ∃ column width, e.diagnostic.Underlines source column width := by
  have hk := kind_ne_eof_of_mem_beforeEnd h
  have hlexeme := lexeme_of_mem_scan h
  have hmem : e.token ∈ (scan source).tokens := (List.takeWhile_prefix _).subset h
  have hlocation : e.diagnostic.location = .text e.token.span e.token.lexeme := if_neg hk
  obtain ⟨before, after, hsource, hspan, -⟩ := exists_texts_of_mem_scan hmem hk
  rw [hsource]
  apply Diagnostic.underlines_text hlocation
  · rw [hspan]
  · intro hempty
    exact hlexeme.ne_nil (String.toList_eq_nil_iff.mpr hempty)
  · exact hlexeme.tab_notMem

theorem underlines_of_endToken {source : String} {e : SyntaxError} (h : e.token = endToken (scan source).tokens) :
    ∃ column width, e.diagnostic.Underlines source column width := by
  obtain ⟨ts, htokens, heof, -⟩ := exists_scan_tokens source
  rw [htokens, endToken_append_eof heof rfl, byteLength_toList] at h
  apply Diagnostic.underlines_end
  rw [SyntaxError.diagnostic, h]
  rfl

theorem Expr.parse_eq_error {source : String} {f : ParseFailure} (h : parse source = .error f) :
    (scan source).unexpected ≠ [] ∧ f.diagnostics = (scan source).diagnostics ∨
      (scan source).unexpected = [] ∧
        ∃ e, parseTokens (scan source).tokens = .error e ∧ f.diagnostics = [e.diagnostic] := by
  by_cases hscan : (scan source).unexpected = []
  · rw [parse_of_scan hscan] at h
    right
    refine ⟨hscan, ?_⟩
    cases hparse : parseTokens (scan source).tokens with
    | ok a =>
      rw [hparse] at h
      cases h
    | error e =>
      rw [hparse] at h
      cases h
      exact ⟨e, rfl, rfl⟩
  · have hf : ⟨source, (scan source).diagnostics⟩ = f := by
      simpa [parse, hscan] using h
    exact .inl ⟨hscan, by rw [← hf]⟩

theorem Expr.parse_error_underlined {source : String} {f : ParseFailure} (h : parse source = .error f) :
    f.diagnostics ≠ [] ∧
    ((∀ d ∈ f.diagnostics, d.stage = .lex) ∧
        f.diagnostics.map (fun d => d.location.lexeme) = (unrecognised source).map Char.toString ∨
      (∃ d, f.diagnostics = [d] ∧ d.stage = .parse) ∧ unrecognised source = []) ∧
    ∀ d ∈ f.diagnostics, ∃ column width, d.Underlines source column width := by
  have hchars := map_char_unexpected source
  rcases parse_eq_error h with ⟨hscan, hf⟩ | ⟨hscan, e, he, hf⟩
  · rw [hf, Scan.diagnostics]
    refine ⟨by simpa using hscan, .inl ⟨?_, ?_⟩, ?_⟩
    · rw [List.forall_mem_map]
      intro u _
      rfl
    · rw [← hchars, List.map_map, List.map_map]
      rfl
    · rw [List.forall_mem_map]
      intro u hu
      exact underlines_of_unexpected hu
  · rw [hscan] at hchars
    refine ⟨by simp [hf], .inr ⟨⟨_, hf, rfl⟩, hchars.symm⟩, ?_⟩
    rw [hf]
    intro d hd
    rw [List.mem_singleton.mp hd]
    rcases token_of_parseTokens_eq_error he with htoken | htoken
    · exact underlines_of_token htoken
    · exact underlines_of_endToken htoken

theorem Expr.parse_error_underlined_beyond_ascii :
    let source := "é\té"
    let d := Unexpected.diagnostic ⟨'é', 3⟩
    parse source = .error ⟨source, [Unexpected.diagnostic ⟨'é', 0⟩, d]⟩ ∧ unrecognised source = ['é', 'é'] ∧
      d.location.offset = 3 ∧ ∃ width, d.Underlines source 2 width := by
  intro source d
  have hsource : source.toList = ['é', '\t', 'é'] := by decide
  have hpieces : pieces source.toList = [.unexpected 'é', .blank '\t', .unexpected 'é'] := by
    have hletter (rest : List Char) : pieces ('é' :: rest) = .unexpected 'é' :: pieces rest := by
      rw [pieces]
      rfl
    rw [hsource, hletter, pieces_blank rfl, hletter, pieces]
  have hscan : (scan source).unexpected = [⟨'é', 0⟩, ⟨'é', 3⟩] := by
    rw [scan, hpieces]
    rfl
  have hparse : parse source = .error ⟨source, [Unexpected.diagnostic ⟨'é', 0⟩, d]⟩ := by
    simp [parse, hscan, Scan.diagnostics, d]
  have hunrecognised : unrecognised source = ['é', 'é'] := by
    rw [unrecognised, hpieces]
    rfl
  refine ⟨hparse, hunrecognised, rfl, ?_⟩
  obtain ⟨column, width, hd⟩ := (parse_error_underlined hparse).2.2 d (by simp)
  have hcolumn := hd.charsBefore
  rw [hsource] at hcolumn
  obtain rfl : 2 = column := Option.some.inj hcolumn
  exact ⟨width, hd⟩

end PseudoBoolean
