import PseudoBoolean.Proofs.RoundTrip

namespace PseudoBoolean

open Text

theorem Lexeme.isName {kind : Token.Kind} {cs : List Char} (h : Lexeme kind cs) (hk : kind = .identifier) :
    IsName (String.ofList cs) := by
  cases h with
  | leftParen | rightParen | not | and | or | implies | equivalent => cases hk
  | word hword =>
    refine ⟨by rwa [String.toList_ofList], ?_⟩
    intro hkey
    simp only [keywords, List.mem_cons, List.not_mem_nil, or_false] at hkey
    rcases hkey with hkey | hkey | hkey | hkey | hkey <;> rw [hkey] at hk <;> cases hk

theorem lexeme_of_mem_scan {source : String} {t : Token} (ht : t ∈ beforeEnd (scan source).tokens) :
    Lexeme t.kind t.lexeme.toList := by
  obtain ⟨ts, htokens, heof, hwords⟩ := exists_scan_tokens source
  rw [htokens, beforeEnd_append_end heof rfl] at ht
  have hword : t.word ∈ (solids source.toList).filterMap Piece.word? := hwords ▸ List.mem_map_of_mem ht
  obtain ⟨p, hp, hpt⟩ := List.mem_filterMap.mp hword
  cases p with
  | blank | unexpected => cases hpt
  | token kind cs =>
    obtain ⟨rfl, hlexeme⟩ := Prod.mk.inj (Option.some.inj hpt)
    rw [← hlexeme, String.toList_ofList]
    exact lexeme_of_mem_pieces (List.mem_filter.mp hp).1

theorem isName_of_mem_scan {source : String} {t : Token} (ht : t ∈ beforeEnd (scan source).tokens)
    (hk : t.kind = .identifier) : IsName t.lexeme := by
  have hname := (lexeme_of_mem_scan ht).isName hk
  rwa [String.ofList_toList] at hname

theorem Derives.isName_of_mem_labels {d : Nat} {s : Nonterminal} {ts : List (Nat × Token)} {e : Expr String}
    (h : Derives d s ts e) (hts : ∀ t ∈ ts, t.2.kind = .identifier → IsName t.2.lexeme) :
    ∀ a ∈ e.labels, IsName a := by
  induction h with
  | implication _ ih | binary _ ih | unary _ ih | primary _ ih => exact ih hts
  | @implies d ts us t a b _ _ _ iha ihb | @equivalent d ts us t a b _ _ _ iha ihb
  | @and d ts us t a b _ _ _ iha ihb | @or d ts us t a b _ _ _ iha ihb =>
    rw [Expr.labels, Expr.leaves, List.flatMap_append, List.forall_mem_append]
    exact ⟨iha fun u hu => hts u (by simp [hu]), ihb fun u hu => hts u (by simp [hu])⟩
  | not _ _ ih => exact ih fun u hu => hts u (by simp [hu])
  | @identifier d t hk =>
    intro a ha
    obtain rfl : a = t.lexeme := by simpa [Expr.labels, Expr.leaves, Atom.labels] using ha
    exact hts (d, t) (by simp) hk
  | @one d t x i s _ hx _ hs | @all d t x i s _ hx _ hs =>
    intro a ha
    obtain rfl | rfl : a = x.lexeme ∨ a = s.lexeme := by simpa [Expr.labels, Expr.leaves, Atom.labels] using ha
    · exact hts (d, x) (by simp) hx
    · exact hts (d, s) (by simp) hs
  | group _ _ _ ih => exact ih fun u hu => hts u (by simp [hu])

theorem Expr.parse_eq_ok_iff {source : String} {e : Expr String} :
    parse source = .ok e ↔ (scan source).unexpected = [] ∧ parseTokens (scan source).tokens = .ok e := by
  by_cases h : (scan source).unexpected = []
  · rw [parse_of_scan h, and_iff_right h]
    cases parseTokens (scan source).tokens with
    | ok a =>
      constructor
      · intro hok
        rw [Except.ok.inj hok]
      · intro hok
        rw [Except.ok.inj hok]
        rfl
    | error error => exact ⟨nofun, nofun⟩
  · simp [parse, h]

theorem Expr.isName_of_parse {source : String} {e : Expr String} (h : parse source = .ok e) :
    ∀ a ∈ e.labels, IsName a := by
  obtain ⟨ts, he, hts, -⟩ := parseTokens_ok_iff_derives.mp (parse_eq_ok_iff.mp h).2
  apply he.isName_of_mem_labels
  intro t ht hk
  have hmem : t.2 ∈ beforeEnd (scan source).tokens := hts ▸ List.mem_map_of_mem ht
  exact isName_of_mem_scan hmem hk

theorem Expr.parse_toString_eq_ok_iff {e : Expr String} (he : ∀ a ∈ e.labels, IsName a) :
    parse (toString e) = .ok e ↔ e.nesting ≤ nestingLimit := by
  obtain ⟨hunexpected, hwords⟩ := e.scan_toString he
  rw [parse_eq_ok_iff, and_iff_right hunexpected]
  constructor
  · intro hparse
    apply Nat.le_of_not_lt
    intro hd
    obtain ⟨t, ht⟩ := parseTokens_of_deep_words hwords hd
    rw [ht] at hparse
    cases hparse
  · exact parseTokens_of_words hwords

namespace Chain

def expr (n : Nat) : Expr String := Nat.repeat (fun e => .and e (.var "a")) n (.var "a")

def tail (n : Nat) : List Char := (List.replicate n [' ', '&', ' ', 'a']).flatten

def text (n : Nat) : String := String.ofList ('a' :: tail n)

def words (n : Nat) : List (Token.Kind × String) :=
  (.identifier, "a") :: (List.replicate n [(.and, "&"), (.identifier, "a")]).flatten

theorem nesting_expr (n : Nat) : (expr n).nesting = n := by
  induction n with
  | zero => rfl
  | succ n ih =>
    have hvar : (Expr.var "a").nesting = 0 := rfl
    rw [expr, Nat.repeat, Expr.nesting, ← expr, ih, hvar]
    omega

theorem endsWord_tail (n : Nat) : EndsWord (tail n) := by
  cases n with
  | zero => exact endsWord_nil
  | succ n => exact endsWord_cons.mpr rfl

theorem solids_text (n : Nat) : solids (text n).toList = (words n).map Piece.ofWord := by
  have ha : Lexeme .identifier "a".toList := IsName.lexeme (by decide)
  rw [text, String.toList_ofList]
  induction n with
  | zero =>
    have hfirst : solids ('a' :: tail 0) = .ofWord (.identifier, "a") :: solids [] := solids_word ha endsWord_nil
    rw [hfirst, solids_nil]
    rfl
  | succ n ih =>
    have hfirst : solids ('a' :: tail (n + 1)) = .ofWord (.identifier, "a") :: solids (tail (n + 1)) :=
      solids_word ha (endsWord_tail (n + 1))
    have hsign : solids (tail (n + 1)) = .ofWord (.and, "&") :: solids ('a' :: tail n) := by
      have htail : tail (n + 1) = ' ' :: '&' :: ' ' :: 'a' :: tail n := rfl
      rw [htail, solids_blank rfl, solids_sign .and rfl, solids_blank rfl]
      rfl
    rw [hfirst, hsign, ih]
    rfl

theorem words_succ (n : Nat) : words (n + 1) = words n ++ [(.and, "&"), (.identifier, "a")] := by
  simp [words, List.replicate_succ']

theorem derives {n : Nat} {tokens : List Token} (h : tokens.map Token.word = words n) :
    Derives 0 .binary (tokens.map fun t => (0, t)) (expr n) := by
  induction n generalizing tokens with
  | zero =>
    obtain ⟨t, rest, rfl, ht, h⟩ := List.map_eq_cons_iff.mp h
    obtain rfl := List.map_eq_nil_iff.mp h
    obtain ⟨hk, hlexeme⟩ := Prod.mk.inj ht
    have hvar : Derives 0 .binary [(0, t)] (.var t.lexeme) := .unary (.primary (.identifier hk))
    rwa [hlexeme] at hvar
  | succ n ih =>
    rw [words_succ] at h
    obtain ⟨ts, rest, rfl, hts, h⟩ := List.map_eq_append_iff.mp h
    obtain ⟨t, rest, rfl, ht, h⟩ := List.map_eq_cons_iff.mp h
    obtain ⟨u, rest, rfl, hu, h⟩ := List.map_eq_cons_iff.mp h
    obtain rfl := List.map_eq_nil_iff.mp h
    obtain ⟨hk, hlexeme⟩ := Prod.mk.inj hu
    have htk : t.kind = Tight.and.kind := congrArg Prod.fst ht
    have hjoin := Derives.tight .and (ih hts) htk (.primary (.identifier hk))
    rw [List.map_append]
    rwa [hlexeme] at hjoin

theorem parse_text (n : Nat) : Expr.parse (text n) = .ok (expr n) := by
  obtain ⟨hunexpected, hwords⟩ := scan_of_solids (solids_text n)
  refine Expr.parse_eq_ok_iff.mpr ⟨hunexpected, parseTokens_ok_iff_derives.mpr ?_⟩
  refine ⟨_, .implication (.binary (derives hwords)), ?_, by simp⟩
  rw [List.map_map]
  exact List.map_id _

end Chain

theorem Expr.parse_toString_iff_of_parse {source : String} {e : Expr String} (h : parse source = .ok e) :
    parse (toString e) = .ok e ↔ e.nesting ≤ 256 :=
  parse_toString_eq_ok_iff (isName_of_parse h)

theorem Expr.parse_toString_chain_of_256 :
    parse (Chain.text 256) = .ok (Chain.expr 256) ∧ parse (toString (Chain.expr 256)) = .ok (Chain.expr 256) := by
  have hread := Chain.parse_text 256
  have hnesting : (Chain.expr 256).nesting ≤ 256 := Nat.le_of_eq (Chain.nesting_expr 256)
  exact ⟨hread, (parse_toString_iff_of_parse hread).mpr hnesting⟩

theorem Expr.parse_toString_chain_of_257 :
    parse (Chain.text 257) = .ok (Chain.expr 257) ∧ parse (toString (Chain.expr 257)) ≠ .ok (Chain.expr 257) := by
  have hread := Chain.parse_text 257
  refine ⟨hread, ?_⟩
  rw [Ne, parse_toString_eq_ok_iff (isName_of_parse hread), Chain.nesting_expr]
  decide

end PseudoBoolean
