import PseudoBoolean.Proofs.Inline.Lockstep
import PseudoBoolean.Proofs.ReadBack

namespace PseudoBoolean

open Text

theorem exists_toList_intercalate_cons (word : String) (words : List String) :
    ∃ rest, (" ".intercalate (word :: words)).toList = word.toList ++ rest ∧
      (rest = [] ∧ words = [] ∨ rest = ' ' :: (" ".intercalate words).toList) := by
  cases words with
  | nil => exact ⟨[], by simp, .inl ⟨rfl, rfl⟩⟩
  | cons next words => exact ⟨_, by simp [String.intercalate_cons_cons], .inr rfl⟩

def plainText (ws : List (Token.Kind × String)) : String := " ".intercalate (ws.map Prod.snd)

theorem solids_plainText {ws : List (Token.Kind × String)} (hws : ∀ w ∈ ws, Lexeme w.1 w.2.toList) :
    solids (plainText ws).toList = ws.map Piece.ofWord := by
  induction ws with
  | nil => exact solids_nil
  | cons w ws ih =>
    have hw := hws w List.mem_cons_self
    have ih := ih fun v hv => hws v (List.mem_cons_of_mem _ hv)
    obtain ⟨rest, htext, ⟨rfl, hnil⟩ | rfl⟩ := exists_toList_intercalate_cons w.2 (ws.map Prod.snd)
    · obtain rfl := List.map_eq_nil_iff.mp hnil
      rw [plainText, List.map_cons, htext, solids_word hw endsWord_nil, solids_nil]
      rfl
    · rw [plainText, List.map_cons, htext, solids_spaced hw, ← plainText, ih]
      rfl

namespace Inline

def inlineWord (w : PseudoBoolean.Token.Kind × String) : String :=
  if w.1 = .identifier then spelled w.2 else w.2

def inlineText (ws : List (PseudoBoolean.Token.Kind × String)) : String := " ".intercalate (ws.map inlineWord)

theorem inlineWord_of_ne {kind : PseudoBoolean.Token.Kind} {word : String} (h : kind ≠ .identifier) :
    inlineWord (kind, word) = word := if_neg h

theorem tokens?_inlineWord {w : PseudoBoolean.Token.Kind × String} (h : PseudoBoolean.Lexeme w.1 w.2.toList)
    {rest : List Char} (hrest : rest = [] ∨ ∃ cs, rest = ' ' :: cs) :
    tokens? ((inlineWord w).toList ++ rest) = (tokens? rest).map (hostToken w :: ·) := by
  have hends : EndsIdentifier rest := by
    rcases hrest with rfl | ⟨cs, rfl⟩
    · exact endsIdentifier_nil
    · exact endsIdentifier_of_delimiter (by decide) cs
  have hsingle {c : Char} (hc : c ∈ ['!', '&', '|']) : isDouble c rest = false := by
    simp only [List.mem_cons, List.not_mem_nil, or_false] at hc
    rcases hrest with rfl | ⟨cs, rfl⟩ <;> rcases hc with rfl | rfl | rfl <;> rfl
  obtain ⟨kind, word⟩ := w
  change PseudoBoolean.Lexeme kind word.toList at h
  generalize hcs : word.toList = cs at h
  cases h with
  | leftParen =>
    rw [inlineWord_of_ne (by decide), hcs]
    exact tokens?_opening rest
  | rightParen =>
    rw [inlineWord_of_ne (by decide), hcs]
    exact tokens?_closing rest
  | not =>
    rw [inlineWord_of_ne (by decide), hcs]
    exact tokens?_sign (by decide) (hsingle (by decide))
  | and =>
    rw [inlineWord_of_ne (by decide), hcs]
    exact tokens?_sign (by decide) (hsingle (by decide))
  | or =>
    rw [inlineWord_of_ne (by decide), hcs]
    exact tokens?_sign (by decide) (hsingle (by decide))
  | implies =>
    rw [inlineWord_of_ne (by decide), hcs]
    exact tokens?_double (by decide) rest
  | equivalent =>
    rw [inlineWord_of_ne (by decide), hcs]
    exact tokens?_double (by decide) rest
  | word hword =>
    rw [← hcs] at hword ⊢
    rw [String.ofList_toList]
    by_cases hkey : word ∈ keywords
    · simp only [keywords, List.mem_cons, List.not_mem_nil, or_false] at hkey
      rcases hkey with rfl | rfl | rfl | rfl | rfl <;> exact tokens?_word rfl hends
    · rw [PseudoBoolean.Token.Kind.ofWord_of_notMem_keywords hkey]
      exact tokens?_spelled hword hends

theorem tokens?_inlineText {ws : List (PseudoBoolean.Token.Kind × String)}
    (hws : ∀ w ∈ ws, PseudoBoolean.Lexeme w.1 w.2.toList) :
    tokens? (inlineText ws).toList = some (ws.map hostToken) := by
  induction ws with
  | nil => simp [inlineText, tokens?]
  | cons w ws ih =>
    have hw := hws w List.mem_cons_self
    have ih := ih fun v hv => hws v (List.mem_cons_of_mem _ hv)
    obtain ⟨rest, htext, ⟨rfl, hnil⟩ | rfl⟩ := exists_toList_intercalate_cons (inlineWord w) (ws.map inlineWord)
    · obtain rfl := List.map_eq_nil_iff.mp hnil
      rw [inlineText, List.map_cons, htext, tokens?_inlineWord hw (.inl rfl), tokens?]
      rfl
    · rw [inlineText, List.map_cons, htext, tokens?_inlineWord hw (.inr ⟨_, rfl⟩), tokens?_blank (by decide),
        ← inlineText, ih]
      rfl

theorem balanced_of_derives {d : Nat} {s : Nonterminal} {ts : List (Nat × PseudoBoolean.Token)} {e : Expr String}
    (h : Derives d s ts e) (opened : List Bracket) (rest : List Token) :
    balanced opened (ts.map (fun t => hostToken t.2.word) ++ rest) = balanced opened rest := by
  induction h generalizing opened rest with
  | implication _ ih | binary _ ih | unary _ ih | primary _ ih => exact ih opened rest
  | implies _ ht _ iha ihb | equivalent _ ht _ iha ihb | and _ ht _ iha ihb | or _ ht _ iha ihb =>
    rw [List.map_append, List.append_assoc, iha, List.map_cons, hostToken_of_kind ht]
    exact ihb opened rest
  | not ht _ ih =>
    rw [List.map_cons, hostToken_of_kind ht]
    exact ih opened rest
  | identifier hk =>
    rw [List.map_cons, hostToken_of_kind hk]
    rfl
  | one ht hx hi hs | all ht hx hi hs =>
    simp only [List.map_cons, hostToken_of_kind ht, hostToken_of_kind hx, hostToken_of_kind hi, hostToken_of_kind hs]
    rfl
  | group hl _ hr ih =>
    rw [List.map_cons, hostToken_of_kind hl, List.map_append, List.cons_append, List.append_assoc]
    change balanced (.round :: opened) _ = _
    rw [ih, List.map_cons, hostToken_of_kind hr]
    simp [hostToken, balanced]

theorem read_eq_ok_iff {source : String} {ts : List Token} {b : Builder} (h : tokens? source.toList = some ts) :
    read source = .ok b ↔ balanced [] ts = true ∧ ∃ r, ts.foldlM Reader.step {} = .ok r ∧ r.finish = .ok b := by
  rw [read, tokenize?_of_tokens? h]
  cases balanced [] ts with
  | false => simp
  | true => cases hfold : ts.foldlM Reader.step {} <;> simp [hfold, bind, Except.bind]

theorem map_hostToken_word (tokens : List PseudoBoolean.Token) :
    (tokens.map PseudoBoolean.Token.word).map hostToken = tokens.map fun t => hostToken t.word := List.map_map

theorem balanced_of_parseTokens {tokens : List PseudoBoolean.Token} {e : Expr String}
    (h : parseTokens tokens = .ok e) : balanced [] ((beforeEnd tokens).map fun t => hostToken t.word) = true := by
  obtain ⟨ts, hderives, hts, -⟩ := parseTokens_ok_iff_derives.mp h
  have hbalanced := balanced_of_derives hderives [] []
  rw [List.append_nil] at hbalanced
  rw [← hts, List.map_map]
  exact hbalanced

theorem matches_start : Matches .start (.operand []) := .operand

theorem read_inlineText_of_parse {source : String} {e : Expr String} (h : Expr.parse source = .ok e) :
    read (inlineText ((beforeEnd (scan source).tokens).map PseudoBoolean.Token.word)) = .ok (Builder.ofExpr e) := by
  have hparse := (Expr.parse_eq_ok_iff.mp h).2
  obtain ⟨state, hrun, hfinish⟩ := parseTokens_ok_iff_runs.mp hparse
  obtain ⟨r, hfold, hr⟩ := matches_start.run (fun t ht => lexeme_of_mem_scan ht) hrun
  have hlexeme : ∀ w ∈ (beforeEnd (scan source).tokens).map PseudoBoolean.Token.word,
      PseudoBoolean.Lexeme w.1 w.2.toList := List.forall_mem_map.mpr fun t ht => lexeme_of_mem_scan ht
  have htokens := tokens?_inlineText hlexeme
  rw [map_hostToken_word] at htokens
  exact (read_eq_ok_iff htokens).mpr ⟨balanced_of_parseTokens hparse, _, hfold, hr.finish hfinish⟩

theorem parse_of_overflows {source : String} (hunexpected : (scan source).unexpected = [])
    (hover : ParseState.start.Overflows (beforeEnd (scan source).tokens)) :
    ∃ d, Expr.parse source = .error ⟨source, [d]⟩ ∧ d.stage = .parse ∧ d.message = "expression nested too deeply" := by
  obtain ⟨t, ht⟩ := hover
  have hparse : parseTokens (scan source).tokens = .error ⟨.shallowNesting, t⟩ := by
    rw [parseTokens, ht]
    rfl
  rw [Expr.parse_of_scan hunexpected, hparse]
  exact ⟨_, rfl, rfl, rfl⟩

theorem parse_plainText_of_read {ws : List (PseudoBoolean.Token.Kind × String)}
    (hws : ∀ w ∈ ws, PseudoBoolean.Lexeme w.1 w.2.toList) {b : Builder} (hread : read (inlineText ws) = .ok b)
    (hb : b.variableNames = []) :
    (∃ e, Expr.parse (plainText ws) = .ok e ∧ b = Builder.ofExpr e) ∨
      ∃ d, Expr.parse (plainText ws) = .error ⟨plainText ws, [d]⟩ ∧ d.stage = .parse ∧
        d.message = "expression nested too deeply" := by
  obtain ⟨hunexpected, hwords⟩ := scan_of_solids (solids_plainText hws)
  obtain ⟨-, r, hfold, hfinish⟩ := (read_eq_ok_iff (tokens?_inlineText hws)).mp hread
  rw [← hwords, map_hostToken_word] at hfold
  rcases matches_start.of_run (fun t ht => lexeme_of_mem_scan ht) hfold (Reader.clean_of_finish hfinish hb) with
    ⟨state, hrun, r, rfl, hr⟩ | hover
  · obtain ⟨e, he, rfl⟩ := hr.of_finish hfinish hb (endToken (scan (plainText ws)).tokens)
    exact .inl ⟨e, Expr.parse_eq_ok_iff.mpr ⟨hunexpected, parseTokens_ok_iff_runs.mpr ⟨state, hrun, he⟩⟩, rfl⟩
  · exact .inr (parse_of_overflows hunexpected hover)

theorem inlineText_agrees_with_plainText :
    (∀ source e, Expr.parse source = .ok e →
      ∃ b, read (inlineText ((beforeEnd (scan source).tokens).map PseudoBoolean.Token.word)) = .ok b ∧
        expr? b.code = some e) ∧
    ∀ ws : List (PseudoBoolean.Token.Kind × String), (∀ w ∈ ws, PseudoBoolean.Lexeme w.1 w.2.toList) →
      ∀ b, read (inlineText ws) = .ok b → b.variableNames = [] →
        (∃ e, expr? b.code = some e ∧ Expr.parse (plainText ws) = .ok e) ∨
          ∃ d, Expr.parse (plainText ws) = .error ⟨plainText ws, [d]⟩ ∧ d.stage = .parse ∧
            d.message = "expression nested too deeply" := by
  constructor
  · intro source e he
    exact ⟨_, read_inlineText_of_parse he, expr?_code (Expr.isName_of_parse he)⟩
  · intro ws hws b hread hb
    rcases parse_plainText_of_read hws hread hb with ⟨e, he, rfl⟩ | hdeep
    · exact .inl ⟨e, expr?_code (Expr.isName_of_parse he), he⟩
    · exact .inr hdeep

theorem inlineText_agrees_with_plainText_quantified :
    let e : Expr String := .imp (.one "x" "X") (.not (.var "a"))
    let ws : List (PseudoBoolean.Token.Kind × String) := [(.one, "any"), (.identifier, "x"), (.memberOf, "of"),
      (.identifier, "X"), (.implies, "->"), (.not, "!"), (.identifier, "a")]
    let b : Builder := .imp (.one "\"x\"" "\"X\"") (.not (.atom "\"a\""))
    Expr.parse (toString e) = .ok e ∧
    (∃ b, read (inlineText ((beforeEnd (scan (toString e)).tokens).map PseudoBoolean.Token.word)) = .ok b ∧
      expr? b.code = some e) ∧
    (∀ w ∈ ws, PseudoBoolean.Lexeme w.1 w.2.toList) ∧ read (inlineText ws) = .ok b ∧ b.variableNames = [] ∧
    ((∃ e, expr? b.code = some e ∧ Expr.parse (plainText ws) = .ok e) ∨
      ∃ d, Expr.parse (plainText ws) = .error ⟨plainText ws, [d]⟩ ∧ d.stage = .parse ∧
        d.message = "expression nested too deeply") := by
  intro e ws b
  have hparse : Expr.parse (toString e) = .ok e := (Expr.parse_toString_eq_ok_iff (by decide)).mpr (by decide)
  have hws : ∀ w ∈ ws, PseudoBoolean.Lexeme w.1 w.2.toList := by
    intro w hw
    simp only [ws, List.mem_cons, List.not_mem_nil, or_false] at hw
    rcases hw with rfl | rfl | rfl | rfl | rfl | rfl | rfl
    case inr.inr.inr.inr.inl => exact .implies
    case inr.inr.inr.inr.inr.inl => exact .not
    all_goals exact .of_isIdentifier (by decide) (by decide)
  have hread : read (inlineText ws) = .ok b := (read_eq_ok_iff (tokens?_inlineText hws)).mpr ⟨rfl, _, rfl, rfl⟩
  exact ⟨hparse, inlineText_agrees_with_plainText.1 _ _ hparse, hws, hread, rfl,
    inlineText_agrees_with_plainText.2 ws hws b hread rfl⟩

end Inline

end PseudoBoolean
