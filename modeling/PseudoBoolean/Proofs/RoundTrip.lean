import PseudoBoolean.Expr.Render
import PseudoBoolean.Proofs.Parse.Language
import PseudoBoolean.Proofs.Token.Lexeme

namespace PseudoBoolean

open Text

def Quantifier.word : Quantifier → String
  | .one => "one"
  | .all => "all"

def Quantifier.words (q : Quantifier) (x s : String) : List (Token.Kind × String) :=
  [(q.kind, q.word), (.identifier, x), (.memberOf, "in"), (.identifier, s)]

theorem Quantifier.lexeme (q : Quantifier) : Lexeme q.kind q.word.toList := by
  cases q <;> exact .of_isIdentifier (by decide) (by decide)

inductive Connective
  | tight (op : Tight)
  | loose (op : Loose)
deriving DecidableEq

namespace Connective

def kind : Connective → Token.Kind
  | .tight op => op.kind
  | .loose op => op.kind

def sign : Connective → String
  | .tight .and => "&"
  | .tight .or => "|"
  | .loose .imp => "->"
  | .loose .iff => "=="

def join {φ : Type} [Formula φ] (a b : φ) : Connective → φ
  | .tight op => op.join a b
  | .loose op => op.join a b

def frame {φ : Type} (a : φ) : Connective → Frame φ
  | .tight op => .tight a op
  | .loose op => .loose a op

def words (op : Connective) (ws vs : List (Token.Kind × String)) : List (Token.Kind × String) :=
  (.leftParen, "(") :: (ws ++ (op.kind, op.sign) :: (vs ++ [(.rightParen, ")")]))

theorem lexeme (op : Connective) : Lexeme op.kind op.sign.toList := by
  rcases op with ⟨_ | _⟩ | ⟨_ | _⟩
  · exact .and
  · exact .or
  · exact .implies
  · exact .equivalent

end Connective

variable {α : Type}

namespace Expr

@[elab_as_elim] theorem join_induction {motive : Expr α → Prop} (var : ∀ a, motive (.var a))
    (quantified : ∀ (q : Quantifier) x s, motive (q.over x s)) (not : ∀ a, motive a → motive (.not a))
    (join : ∀ (op : Connective) a b, motive a → motive b → motive (op.join a b)) (e : Expr α) : motive e := by
  induction e with
  | atom a =>
    rcases a with a | r | r
    · exact var a
    · exact quantified .one r.element r.set
    · exact quantified .all r.element r.set
  | not a ih => exact not a ih
  | and a b iha ihb => exact join (.tight .and) a b iha ihb
  | or a b iha ihb => exact join (.tight .or) a b iha ihb
  | imp a b iha ihb => exact join (.loose .imp) a b iha ihb
  | iff a b iha ihb => exact join (.loose .iff) a b iha ihb

def nesting : Expr α → Nat
  | .atom _ => 0
  | .not a => 1 + a.nesting
  | .and a b | .or a b | .imp a b | .iff a b => 1 + max a.nesting b.nesting

theorem nesting_over (q : Quantifier) (x s : α) : (q.over x s).nesting = 0 := by
  cases q <;> rfl

theorem nesting_join (op : Connective) (a b : Expr α) : (op.join a b).nesting = 1 + max a.nesting b.nesting := by
  rcases op with ⟨_ | _⟩ | ⟨_ | _⟩ <;> rfl

theorem labels_var (a : α) : (var a).labels = [a] := rfl

theorem labels_over (q : Quantifier) (x s : α) : (q.over x s).labels = [x, s] := by
  cases q <;> rfl

theorem labels_join (op : Connective) (a b : Expr α) : (op.join a b).labels = a.labels ++ b.labels := by
  rcases op with ⟨_ | _⟩ | ⟨_ | _⟩ <;> exact List.flatMap_append

def words : Expr String → List (Token.Kind × String)
  | .atom (.plain a) => [(.identifier, a)]
  | .atom (.one r) => Quantifier.one.words r.element r.set
  | .atom (.all r) => Quantifier.all.words r.element r.set
  | .not a => (.not, "!") :: a.words
  | .and a b => (Connective.tight .and).words a.words b.words
  | .or a b => (Connective.tight .or).words a.words b.words
  | .imp a b => (Connective.loose .imp).words a.words b.words
  | .iff a b => (Connective.loose .iff).words a.words b.words

theorem words_over (q : Quantifier) (x s : String) : (q.over x s).words = q.words x s := by
  cases q <;> rfl

theorem words_join (op : Connective) (a b : Expr String) : (op.join a b).words = op.words a.words b.words := by
  rcases op with ⟨_ | _⟩ | ⟨_ | _⟩ <;> rfl

theorem render_over (q : Quantifier) (x s : String) :
    (q.over x s).render .source = q.word ++ " " ++ x ++ " in " ++ s := by
  cases q <;> rfl

theorem render_join (op : Connective) (a b : Expr String) : (op.join a b).render .source =
    "(" ++ a.render .source ++ (" " ++ op.sign ++ " ") ++ b.render .source ++ ")" := by
  rcases op with ⟨_ | _⟩ | ⟨_ | _⟩ <;> rfl

end Expr

theorem solids_word {kind : Token.Kind} {word : String} (h : Lexeme kind word.toList) {rest : List Char}
    (hrest : EndsWord rest) : solids (word.toList ++ rest) = Piece.ofWord (kind, word) :: solids rest :=
  solids_lexeme h fun _ => hrest

theorem solids_spaced {kind : Token.Kind} {word : String} (h : Lexeme kind word.toList) (rest : List Char) :
    solids (word.toList ++ ' ' :: rest) = Piece.ofWord (kind, word) :: solids rest := by
  rw [solids_word h (endsWord_cons.mpr rfl), solids_blank rfl]

theorem Expr.solids_render {e : Expr String} (he : ∀ a ∈ e.labels, IsName a) {rest : List Char}
    (hrest : EndsWord rest) : solids ((e.render .source).toList ++ rest) = e.words.map Piece.ofWord ++ solids rest := by
  induction e using join_induction generalizing rest with
  | var a => exact solids_word (he a (by simp [labels_var])).lexeme hrest
  | quantified q x s =>
    rw [labels_over] at he
    have hin : Lexeme .memberOf "in".toList := .of_isIdentifier (by decide) (by decide)
    have htext : ((q.over x s).render .source).toList ++ rest = q.word.toList ++ ' ' :: (x.toList ++ ' ' ::
        ("in".toList ++ ' ' :: (s.toList ++ rest))) := by
      simp [render_over]
    rw [htext, solids_spaced q.lexeme, solids_spaced (he x (by simp)).lexeme, solids_spaced hin,
      solids_word (he s (by simp)).lexeme hrest, words_over]
    rfl
  | not a ih =>
    have htext : ((Expr.not a).render .source).toList ++ rest = '!' :: ((a.render .source).toList ++ rest) := by
      simp [render, Style.not]
    rw [htext, solids_sign .not rfl, ih he hrest]
    rfl
  | join op a b iha ihb =>
    rw [labels_join] at he
    have htext : ((op.join a b).render .source).toList ++ rest = '(' :: ((a.render .source).toList ++
        ' ' :: (op.sign.toList ++ ' ' :: ((b.render .source).toList ++ ')' :: rest))) := by
      simp [render_join]
    rw [htext, solids_sign .leftParen rfl, iha (fun c hc => he c (by simp [hc])) (endsWord_cons.mpr rfl),
      solids_blank rfl, solids_spaced op.lexeme, ihb (fun c hc => he c (by simp [hc])) (endsWord_cons.mpr rfl),
      solids_sign .rightParen rfl, words_join]
    simp [Connective.words, Piece.ofWord]

theorem exists_of_map_word_join {tokens : List Token} {op : Connective} {a b : Expr String}
    (h : tokens.map Token.word = (op.join a b).words) :
    ∃ l ts t us r, tokens = l :: (ts ++ t :: (us ++ [r])) ∧ l.kind = .leftParen ∧ ts.map Token.word = a.words ∧
      t.kind = op.kind ∧ us.map Token.word = b.words ∧ r.kind = .rightParen := by
  rw [Expr.words_join] at h
  obtain ⟨l, rest, rfl, hl, h⟩ := List.map_eq_cons_iff.mp h
  obtain ⟨ts, rest, rfl, hts, h⟩ := List.map_eq_append_iff.mp h
  obtain ⟨t, rest, rfl, ht, h⟩ := List.map_eq_cons_iff.mp h
  obtain ⟨us, rest, rfl, hus, h⟩ := List.map_eq_append_iff.mp h
  obtain ⟨r, rest, rfl, hr, h⟩ := List.map_eq_cons_iff.mp h
  obtain rfl := List.map_eq_nil_iff.mp h
  exact ⟨l, ts, t, us, r, rfl, congrArg Prod.fst hl, hts, congrArg Prod.fst ht, hus, congrArg Prod.fst hr⟩

theorem Derives.join {d : Nat} {ts us : List (Nat × Token)} {t : Token} {a b : Expr String} {op : Connective}
    (ha : Derives d .unary ts a) (ht : t.kind = op.kind) (hb : Derives d .unary us b) :
    Derives d .expression (ts ++ (d, t) :: us) (op.join a b) := by
  cases op with
  | tight op => exact .implication (.binary (.tight op (.unary ha) ht hb))
  | loose op => exact .implication (.loose op (.binary (.unary ha)) ht (.unary hb))

theorem Expr.derives_words {e : Expr String} {tokens : List Token} (h : tokens.map Token.word = e.words) (d : Nat) :
    ∃ ts, Derives d .unary ts e ∧ ts.map Prod.snd = tokens ∧ ∀ t ∈ ts, t.1 ≤ d + e.nesting := by
  induction e using join_induction generalizing tokens d with
  | var a =>
    obtain ⟨t, rest, rfl, ht, h⟩ := List.map_eq_cons_iff.mp h
    obtain rfl := List.map_eq_nil_iff.mp h
    obtain ⟨hk, rfl⟩ := Prod.mk.inj ht
    exact ⟨[(d, t)], .primary (.identifier hk), rfl, by simp⟩
  | quantified q x s =>
    rw [words_over] at h
    obtain ⟨t, rest, rfl, ht, h⟩ := List.map_eq_cons_iff.mp h
    obtain ⟨u, rest, rfl, hu, h⟩ := List.map_eq_cons_iff.mp h
    obtain ⟨i, rest, rfl, hi, h⟩ := List.map_eq_cons_iff.mp h
    obtain ⟨v, rest, rfl, hv, h⟩ := List.map_eq_cons_iff.mp h
    obtain rfl := List.map_eq_nil_iff.mp h
    have htk : t.kind = q.kind := congrArg Prod.fst ht
    have hik : i.kind = .memberOf := congrArg Prod.fst hi
    obtain ⟨huk, rfl⟩ := Prod.mk.inj hu
    obtain ⟨hvk, rfl⟩ := Prod.mk.inj hv
    exact ⟨[(d, t), (d, u), (d, i), (d, v)], .primary (.quantified q htk huk hik hvk), rfl, by simp⟩
  | not a ih =>
    obtain ⟨t, rest, rfl, ht, h⟩ := List.map_eq_cons_iff.mp h
    obtain ⟨ts, hts, rfl, hbound⟩ := ih h (d + 1)
    refine ⟨(d, t) :: ts, .not (congrArg Prod.fst ht) hts, rfl, ?_⟩
    rintro u (_ | ⟨_, hu⟩)
    · exact Nat.le_add_right _ _
    · have := hbound u hu
      simp only [nesting]
      omega
  | join op a b iha ihb =>
    obtain ⟨l, ts, t, us, r, rfl, hl, hts, ht, hus, hr⟩ := exists_of_map_word_join h
    obtain ⟨ts, ha, rfl, hboundA⟩ := iha hts (d + 1)
    obtain ⟨us, hb, rfl, hboundB⟩ := ihb hus (d + 1)
    refine ⟨(d, l) :: ((ts ++ (d + 1, t) :: us) ++ [(d, r)]), .primary (.group hl (.join ha ht hb) hr), by simp, ?_⟩
    intro u hu
    rw [nesting_join]
    have hmax := Nat.le_max_left a.nesting b.nesting
    have hmax' := Nat.le_max_right a.nesting b.nesting
    simp only [List.mem_cons, List.mem_append, List.not_mem_nil, or_false] at hu
    rcases hu with rfl | (hu | rfl | hu) | rfl
    · exact Nat.le_add_right _ _
    · have := hboundA u hu
      omega
    · simp only
      omega
    · have := hboundB u hu
      omega
    · exact Nat.le_add_right _ _

namespace ParseState

theorem runs_words {e : Expr String} {tokens : List Token} (h : tokens.map Token.word = e.words)
    {stack : List (Frame (Expr String))} (hd : Frame.depth stack + e.nesting ≤ nestingLimit) :
    Runs (.operand stack) tokens (after stack e) := by
  obtain ⟨ts, he, rfl, hbound⟩ := e.derives_words h (Frame.depth stack)
  exact he.readsPhrase (fun t ht => Nat.le_trans (hbound t ht) hd) stack rfl

theorem Advance.connective {stack : List (Frame (Expr String))} (hc : Frame.Closed stack) {a : Expr String}
    {op : Connective} {t : Token} (ht : t.kind = op.kind) :
    Advance (.operator stack a) t (.operand (op.frame a :: stack)) := by
  cases op with
  | tight op => exact .tight op ht
  | loose op => exact .loose op ht (Frame.settle_of_closed hc a)

theorem overflows_words {e : Expr String} {tokens : List Token} (h : tokens.map Token.word = e.words)
    {stack : List (Frame (Expr String))} (hd : Frame.depth stack ≤ nestingLimit)
    (hdeep : nestingLimit < Frame.depth stack + e.nesting) : Overflows (.operand stack) tokens := by
  induction e using Expr.join_induction generalizing tokens stack with
  | var a => exact absurd hdeep (Nat.not_lt.mpr hd)
  | quantified q x s =>
    rw [Expr.nesting_over] at hdeep
    exact absurd hdeep (Nat.not_lt.mpr hd)
  | not a ih =>
    obtain ⟨t, rest, rfl, ht, h⟩ := List.map_eq_cons_iff.mp h
    have hk : t.kind = .not := congrArg Prod.fst ht
    by_cases hlt : Frame.depth stack < nestingLimit
    · have hstep : Runs (.operand stack) [t] (.operand (.negation :: stack)) := .single (.negation hk hlt)
      have hd' : Frame.depth (.negation :: stack) ≤ nestingLimit := by
        rw [Frame.depth_negation]
        exact hlt
      have hdeep' : nestingLimit < Frame.depth (.negation :: stack) + a.nesting := by
        rw [Expr.nesting] at hdeep
        rw [Frame.depth_negation]
        omega
      exact hstep.overflows (ih h hd' hdeep')
    · exact overflows_of_depth (.inl hk) (Nat.not_lt.mp hlt) rest
  | join op a b iha ihb =>
    obtain ⟨l, ts, t, us, r, rfl, hl, hts, ht, hus, -⟩ := exists_of_map_word_join h
    by_cases hlt : Frame.depth stack < nestingLimit
    · have hopen : Runs (.operand stack) [l] (.operand (.group :: stack)) := .single (.group hl hlt)
      have hd' : Frame.depth (.group :: stack) ≤ nestingLimit := by
        rw [Frame.depth_group]
        exact hlt
      apply hopen.overflows
      by_cases hleft : nestingLimit < Frame.depth (.group :: stack) + a.nesting
      · exact (iha hts hd' hleft).append _
      · -- the left operand is read, so it is the right one that is too deep
        have hrun : Runs _ _ (.operator (.group :: stack) a) := runs_words hts (Nat.not_lt.mp hleft)
        have hop := hrun.append (.single (.connective .group ht))
        have hdepth : Frame.depth (op.frame a :: .group :: stack) = Frame.depth (.group :: stack) := by
          cases op <;> simp [Connective.frame]
        rw [Expr.nesting_join] at hdeep
        have hright : nestingLimit < Frame.depth (op.frame a :: .group :: stack) + b.nesting := by
          rw [hdepth]
          rw [Frame.depth_group] at hleft ⊢
          omega
        have hover := hop.overflows ((ihb hus (hdepth ▸ hd') hright).append [r])
        simpa using hover
    · exact overflows_of_depth (.inr hl) (Nat.not_lt.mp hlt) _

end ParseState

theorem scan_of_solids {source : String} {ws : List (Token.Kind × String)}
    (h : solids source.toList = ws.map Piece.ofWord) :
    (scan source).unexpected = [] ∧ (beforeEnd (scan source).tokens).map Token.word = ws := by
  obtain ⟨hunexpected, ts, htokens, heof, hwords⟩ := exists_scan_tokens_of_solids h
  exact ⟨hunexpected, by rwa [htokens, beforeEnd_append_end heof rfl]⟩

theorem Expr.scan_toString {e : Expr String} (he : ∀ a ∈ e.labels, IsName a) :
    (scan (toString e)).unexpected = [] ∧ (beforeEnd (scan (toString e)).tokens).map Token.word = e.words := by
  apply scan_of_solids
  have h := e.solids_render he endsWord_nil
  rwa [List.append_nil, solids_nil, List.append_nil] at h

theorem parseTokens_of_words {e : Expr String} {tokens : List Token}
    (h : (beforeEnd tokens).map Token.word = e.words) (hd : e.nesting ≤ nestingLimit) : parseTokens tokens = .ok e := by
  obtain ⟨ts, he, hts, hbound⟩ := e.derives_words h 0
  refine parseTokens_ok_iff_derives.mpr ⟨ts, .implication (.binary (.unary he)), hts, ?_⟩
  intro t ht
  have := hbound t ht
  omega

theorem parseTokens_of_deep_words {e : Expr String} {tokens : List Token}
    (h : (beforeEnd tokens).map Token.word = e.words) (hd : nestingLimit < e.nesting) :
    ∃ t, parseTokens tokens = .error ⟨.shallowNesting, t⟩ := by
  have hdeep : nestingLimit < Frame.depth ([] : List (Frame (Expr String))) + e.nesting := by
    rwa [Frame.depth_nil, Nat.zero_add]
  obtain ⟨t, hover⟩ := ParseState.overflows_words h (Nat.zero_le _) hdeep
  refine ⟨t, ?_⟩
  rw [parseTokens, ParseState.start, hover]
  rfl

theorem Expr.parse_of_scan {source : String} (h : (scan source).unexpected = []) :
    parse source = (parseTokens (scan source).tokens).mapError fun e => ⟨source, [e.diagnostic]⟩ := by
  simp [parse, h]

theorem Expr.parse_toString {e : Expr String} (he : ∀ a ∈ e.labels, IsName a) :
    (e.nesting ≤ 256 → parse (toString e) = .ok e) ∧
    (256 < e.nesting → ∃ d, parse (toString e) = .error ⟨toString e, [d]⟩ ∧ d.stage = .parse ∧
      d.message = "expression nested too deeply") := by
  obtain ⟨hunexpected, hwords⟩ := e.scan_toString he
  rw [parse_of_scan hunexpected]
  constructor
  · intro hd
    rw [parseTokens_of_words hwords hd]
    rfl
  · intro hd
    obtain ⟨t, ht⟩ := parseTokens_of_deep_words hwords hd
    rw [ht]
    exact ⟨_, rfl, rfl, rfl⟩

theorem Expr.parse_toString_negations :
    parse (toString (Nat.repeat not 256 (.var "a"))) = .ok (Nat.repeat not 256 (.var "a")) ∧
    ∃ d, parse (toString (Nat.repeat not 257 (.var "a"))) = .error ⟨toString (Nat.repeat not 257 (.var "a")), [d]⟩ ∧
      d.stage = .parse ∧ d.message = "expression nested too deeply" :=
  ⟨(parse_toString (by decide +kernel)).1 (by decide +kernel),
    (parse_toString (by decide +kernel)).2 (by decide +kernel)⟩

end PseudoBoolean
