import PseudoBoolean.Proofs.Parse.Grammar
import PseudoBoolean.Proofs.Parse.Step

/-!
The reader of tokens accepts exactly the expressions of the grammar in which no token is nested too deeply.
A stack of frames stands for the tokens read before the operand in hand (`Frame.Reads`), and every step adds
one token to what its state stands for; conversely each phrase of the grammar is read through in one run.
-/

namespace PseudoBoolean

namespace Derives

variable {d : Nat} {ts us : List (Nat × Token)} {t : Token} {a b : Expr String}

theorem tight (op : Tight) (ha : Derives d .binary ts a) (ht : t.kind = op.kind) (hb : Derives d .unary us b) :
    Derives d .binary (ts ++ (d, t) :: us) (op.join a b) := by
  cases op with
  | and => exact .and ha ht hb
  | or => exact .or ha ht hb

theorem loose (op : Loose) (ha : Derives d .implication ts a) (ht : t.kind = op.kind) (hb : Derives d .binary us b) :
    Derives d .implication (ts ++ (d, t) :: us) (op.join a b) := by
  cases op with
  | imp => exact .implies ha ht hb
  | iff => exact .equivalent ha ht hb

theorem quantified {x i s : Token} (q : Quantifier) (ht : t.kind = q.kind) (hx : x.kind = .identifier)
    (hi : i.kind = .memberOf) (hs : s.kind = .identifier) :
    Derives d .primary [(d, t), (d, x), (d, i), (d, s)] (q.over x.lexeme s.lexeme) := by
  cases q with
  | one => exact .one ht hx hi hs
  | all => exact .all ht hx hi hs

theorem exists_token {s : Nonterminal} {e : Expr String} (h : Derives d s ts e) : ∃ t, (d, t) ∈ ts := by
  induction h with
  | implication _ ih | binary _ ih | unary _ ih | primary _ ih => exact ih
  | implies | equivalent | and | or => exact ⟨_, List.mem_append_right _ List.mem_cons_self⟩
  | not | identifier | one | all | group => exact ⟨_, List.mem_cons_self⟩

end Derives

namespace Frame

inductive Reads : List (Frame (Expr String)) → List (Nat × Token) → Prop
  | nil : Reads [] []
  | negation {stack ts t} : Reads stack ts → t.kind = .not → Reads (.negation :: stack) (ts ++ [(depth stack, t)])
  | group {stack ts t} : Reads stack ts → t.kind = .leftParen → Reads (.group :: stack) (ts ++ [(depth stack, t)])
  | tight {stack ts us a t} {op : Tight} : Reads stack ts → Settled stack → Derives (depth stack) .binary us a →
      t.kind = op.kind → Reads (.tight a op :: stack) (ts ++ (us ++ [(depth stack, t)]))
  | loose {stack ts us a t} {op : Loose} : Reads stack ts → Closed stack → Derives (depth stack) .implication us a →
      t.kind = op.kind → Reads (.loose a op :: stack) (ts ++ (us ++ [(depth stack, t)]))

theorem Reads.take {stack : List (Frame (Expr String))} {ts us : List (Nat × Token)} {a : Expr String}
    (hr : Reads stack ts) (ha : Derives (depth stack) .unary us a) :
    ∃ ts' us', Reads (take stack a).1 ts' ∧ Settled (take stack a).1 ∧
      Derives (depth (take stack a).1) .binary us' (take stack a).2 ∧ ts ++ us = ts' ++ us' := by
  induction hr generalizing us a with
  | nil => exact ⟨_, _, .nil, .nil, .unary ha, rfl⟩
  | negation hr ht ih =>
    rw [depth_negation] at ha
    obtain ⟨ts', us', h⟩ := ih (.not ht ha)
    refine ⟨ts', us', ?_⟩
    simpa [Frame.take, Formula.not] using h
  | group hr ht => exact ⟨_, _, .group hr ht, .group, .unary ha, rfl⟩
  | tight hr hs hleft ht =>
    rw [depth_tight] at ha
    exact ⟨_, _, hr, hs, .tight _ hleft ht ha, by simp [Frame.take]⟩
  | loose hr hc hleft ht => exact ⟨_, _, .loose hr hc hleft ht, .loose, .unary ha, rfl⟩

theorem Reads.settle {stack : List (Frame (Expr String))} {ts us : List (Nat × Token)} {a : Expr String}
    (hr : Reads stack ts) (hs : Settled stack) (ha : Derives (depth stack) .binary us a) :
    ∃ ts' us', Reads (settle stack a).1 ts' ∧ Closed (settle stack a).1 ∧
      Derives (depth (settle stack a).1) .implication us' (settle stack a).2 ∧ ts ++ us = ts' ++ us' := by
  cases hr with
  | nil => exact ⟨_, _, .nil, .nil, .binary ha, rfl⟩
  | group hr ht => exact ⟨_, _, .group hr ht, .group, .binary ha, rfl⟩
  | loose hr hc hleft ht =>
    rw [depth_loose] at ha
    exact ⟨_, _, hr, hc, .loose _ hleft ht ha, by simp [Frame.settle]⟩
  | negation | tight => cases hs

end Frame

namespace ParseState

inductive Reads : ParseState → List (Nat × Token) → Prop
  | operand {stack ts} : Frame.Reads stack ts → Reads (.operand stack) ts
  | elementName {stack ts t} {q : Quantifier} : Frame.Reads stack ts → t.kind = q.kind →
      Reads (.elementName stack q t.lexeme) (ts ++ [(Frame.depth stack, t)])
  | membership {stack ts t x} {q : Quantifier} : Frame.Reads stack ts → t.kind = q.kind → x.kind = .identifier →
      Reads (.membership stack q x.lexeme) (ts ++ [(Frame.depth stack, t), (Frame.depth stack, x)])
  | setName {stack ts t x i} {q : Quantifier} : Frame.Reads stack ts → t.kind = q.kind → x.kind = .identifier →
      i.kind = .memberOf → Reads (.setName stack q x.lexeme)
        (ts ++ [(Frame.depth stack, t), (Frame.depth stack, x), (Frame.depth stack, i)])
  | operator {stack ts us a} : Frame.Reads stack ts → Frame.Settled stack → Derives (Frame.depth stack) .binary us a →
      Reads (.operator stack a) (ts ++ us)

theorem reads_after {stack : List (Frame (Expr String))} {ts us : List (Nat × Token)} {a : Expr String}
    (hr : Frame.Reads stack ts) (ha : Derives (Frame.depth stack) .primary us a) :
    Reads (after stack a) (ts ++ us) := by
  obtain ⟨ts', us', hr', hs, ha', h⟩ := hr.take (.primary ha)
  exact h ▸ .operator hr' hs ha'

theorem Reads.advance {state state' : ParseState} {ts : List (Nat × Token)} {t : Token} (hr : Reads state ts)
    (h : Advance state t state') : ∃ d ≤ Frame.depth state.stack, Reads state' (ts ++ [(d, t)]) := by
  cases h with
  | identifier hk =>
    cases hr with
    | operand hr => exact ⟨_, Nat.le_refl _, reads_after hr (.identifier hk)⟩
  | quantifier q hk =>
    cases hr with
    | operand hr => exact ⟨_, Nat.le_refl _, .elementName hr hk⟩
  | negation hk hd =>
    cases hr with
    | operand hr => exact ⟨_, Nat.le_refl _, .operand (.negation hr hk)⟩
  | group hk hd =>
    cases hr with
    | operand hr => exact ⟨_, Nat.le_refl _, .operand (.group hr hk)⟩
  | elementName hk =>
    cases hr with
    | elementName hr hq => exact ⟨_, Nat.le_refl _, by simpa using Reads.membership hr hq hk⟩
  | membership hk =>
    cases hr with
    | membership hr hq hx => exact ⟨_, Nat.le_refl _, by simpa using Reads.setName hr hq hx hk⟩
  | setName hk =>
    cases hr with
    | setName hr hq hx hi =>
      exact ⟨_, Nat.le_refl _, by simpa using reads_after hr (.quantified _ hq hx hi hk)⟩
  | tight op hk =>
    cases hr with
    | operator hr hs ha => exact ⟨_, Nat.le_refl _, by simpa using Reads.operand (.tight hr hs ha hk)⟩
  | @loose stack a rest chain t op hk hsettle =>
    cases hr with
    | operator hr hs ha =>
      obtain ⟨ts', us', hr', hc, ha', h⟩ := hr.settle hs ha
      have hd := Frame.depth_settle stack a
      rw [hsettle] at hr' hc ha' hd
      refine ⟨_, Nat.le_of_eq hd, ?_⟩
      rw [h]
      simpa using Reads.operand (.loose hr' hc ha' hk)
  | @close stack a rest e t hk hsettle =>
    cases hr with
    | operator hr hs ha =>
      obtain ⟨ts', us', hr', hc, ha', h⟩ := hr.settle hs ha
      have hd := Frame.depth_settle stack a
      rw [hsettle] at hr' hc ha' hd
      rw [h]
      cases hr' with
      | group hr' hl =>
        rw [Frame.depth_group] at ha' hd
        refine ⟨Frame.depth rest, by rw [ParseState.stack]; omega, ?_⟩
        simpa using reads_after hr' (.group hl (.implication ha') hk)

theorem Reads.run {tokens : List Token} {state state' : ParseState} {ts : List (Nat × Token)} (hr : Reads state ts)
    (hd : Frame.depth state.stack ≤ nestingLimit) (h : Runs state tokens state') :
    ∃ us, us.map Prod.snd = tokens ∧ (∀ u ∈ us, u.1 ≤ nestingLimit) ∧ Reads state' (ts ++ us) := by
  induction tokens generalizing state ts with
  | nil =>
    obtain rfl := runs_nil.mp h
    exact ⟨[], rfl, by simp, by simpa using hr⟩
  | cons t tokens ih =>
    obtain ⟨next, hadvance, hrest⟩ := runs_cons.mp h
    obtain ⟨d, hle, hr'⟩ := hr.advance hadvance
    obtain ⟨us, hus, hbound, hread⟩ := ih hr' (hadvance.depth_le hd) hrest
    refine ⟨(d, t) :: us, by simp [hus], ?_, by simpa using hread⟩
    rintro u (_ | ⟨_, hu⟩)
    · exact Nat.le_trans hle hd
    · exact hbound u hu

theorem Reads.finish {state : ParseState} {ts : List (Nat × Token)} {t : Token} {e : Expr String}
    (hr : Reads state ts) (h : state.finish t = .ok e) : Derives 0 .expression ts e := by
  cases hr with
  | operand | elementName | membership | setName => cases h
  | @operator stack ts us a hr hs ha =>
    obtain ⟨ts', us', hr', -, ha', hts⟩ := hr.settle hs ha
    simp only [ParseState.finish, Frame.finish?] at h
    rcases hsettle : Frame.settle stack a with ⟨_ | ⟨frame, rest⟩, chain⟩
    · rw [hsettle] at h hr' ha'
      cases h
      cases hr'
      exact hts ▸ .implication ha'
    · rw [hsettle] at h
      cases h

/-- What reading the tokens of a phrase through comes to, if the phrase is an operand that `stack` waits for. -/
def ReadsPhrase (stack : List (Frame (Expr String))) (tokens : List Token) (e : Expr String) : Nonterminal → Prop
  | .primary | .unary => Runs (.operand stack) tokens (after stack e)
  | .binary => Frame.Settled stack → Runs (.operand stack) tokens (.operator stack e)
  | .implication | .expression => Frame.Closed stack →
      ∃ stack' a, Runs (.operand stack) tokens (.operator stack' a) ∧ Frame.settle stack' a = (stack, e)

section

variable {stack : List (Frame (Expr String))} {ts us : List Token} {t : Token} {a b : Expr String}

theorem ReadsPhrase.tight (op : Tight) (ha : ReadsPhrase stack ts a .binary) (ht : t.kind = op.kind)
    (hb : ReadsPhrase (.tight a op :: stack) us b .unary) :
    ReadsPhrase stack (ts ++ t :: us) (op.join a b) .binary := by
  intro hs
  exact (ha hs).append (.cons (.tight op ht) hb)

theorem ReadsPhrase.loose (op : Loose) (ha : ReadsPhrase stack ts a .implication) (ht : t.kind = op.kind)
    (hb : ReadsPhrase (.loose a op :: stack) us b .binary) :
    ReadsPhrase stack (ts ++ t :: us) (op.join a b) .implication := by
  intro hc
  obtain ⟨stack', left, hrun, hsettle⟩ := ha hc
  exact ⟨.loose a op :: stack, b, hrun.append (.cons (.loose op ht hsettle) (hb .loose)), rfl⟩

theorem ReadsPhrase.quantified {x i s : Token} (q : Quantifier) (ht : t.kind = q.kind) (hx : x.kind = .identifier)
    (hi : i.kind = .memberOf) (hs : s.kind = .identifier) :
    ReadsPhrase stack [t, x, i, s] (q.over x.lexeme s.lexeme) .primary :=
  .cons (.quantifier q ht) (.cons (.elementName hx) (.cons (.membership hi) (.single (.setName hs))))

end

end ParseState

open ParseState in
theorem Derives.readsPhrase {d : Nat} {s : Nonterminal} {ts : List (Nat × Token)} {e : Expr String}
    (h : Derives d s ts e) (hts : ∀ t ∈ ts, t.1 ≤ nestingLimit) (stack : List (Frame (Expr String)))
    (hd : Frame.depth stack = d) : ReadsPhrase stack (ts.map Prod.snd) e s := by
  induction h generalizing stack with
  | implication _ ih => exact ih hts stack hd
  | binary _ ih =>
    intro hc
    exact ⟨stack, _, ih hts stack hd hc.settled, Frame.settle_of_closed hc _⟩
  | implies _ hk _ iha ihb =>
    rw [List.map_append, List.map_cons]
    rw [List.forall_mem_append, List.forall_mem_cons] at hts
    exact .loose .imp (iha hts.1 stack hd) hk (ihb hts.2.2 _ (by simpa using hd))
  | equivalent _ hk _ iha ihb =>
    rw [List.map_append, List.map_cons]
    rw [List.forall_mem_append, List.forall_mem_cons] at hts
    exact .loose .iff (iha hts.1 stack hd) hk (ihb hts.2.2 _ (by simpa using hd))
  | unary _ ih =>
    intro hs
    have hrun : Runs _ _ _ := ih hts stack hd
    rwa [after, Frame.take_of_settled hs] at hrun
  | and _ hk _ iha ihb =>
    rw [List.map_append, List.map_cons]
    rw [List.forall_mem_append, List.forall_mem_cons] at hts
    exact .tight .and (iha hts.1 stack hd) hk (ihb hts.2.2 _ (by simpa using hd))
  | or _ hk _ iha ihb =>
    rw [List.map_append, List.map_cons]
    rw [List.forall_mem_append, List.forall_mem_cons] at hts
    exact .tight .or (iha hts.1 stack hd) hk (ihb hts.2.2 _ (by simpa using hd))
  | primary _ ih => exact ih hts stack hd
  | @not d ts t a hk ha ih =>
    -- the operand has a token, which is nested one deeper
    obtain ⟨u, hu⟩ := ha.exists_token
    have hlt : Frame.depth stack < nestingLimit := hd ▸ hts _ (List.mem_cons_of_mem _ hu)
    exact .cons (.negation hk hlt) (ih (fun u hu => hts u (by simp [hu])) _ (by simpa using hd))
  | identifier hk => exact .single (.identifier hk)
  | one ht hx hi hs => exact ReadsPhrase.quantified .one ht hx hi hs
  | all ht hx hi hs => exact ReadsPhrase.quantified .all ht hx hi hs
  | @group d l ts r e hl he hr ih =>
    obtain ⟨u, hu⟩ := he.exists_token
    have hlt : Frame.depth stack < nestingLimit := hd ▸ hts _ (List.mem_cons_of_mem _ (List.mem_append_left _ hu))
    obtain ⟨stack', a, hrun, hsettle⟩ :=
      ih (fun u hu => hts u (by simp [hu])) (.group :: stack) (by simpa using hd) .group
    rw [List.map_cons, List.map_append]
    exact .cons (.group hl hlt) (hrun.append (.single (.close hr hsettle)))

theorem beforeEnd_append {ts : List Token} (h : ∀ t ∈ ts, t.kind ≠ .eof) (us : List Token) :
    beforeEnd (ts ++ us) = ts ++ beforeEnd us :=
  List.takeWhile_append_of_pos (by simpa using h)

theorem beforeEnd_append_eof {ts : List Token} {t : Token} (h : ∀ u ∈ ts, u.kind ≠ .eof) (ht : t.kind = .eof)
    (us : List Token) : beforeEnd (ts ++ t :: us) = ts := by
  rw [beforeEnd_append h]
  simp [beforeEnd, ht]

theorem beforeEnd_append_end {tokens : List Token} {t : Token} (h : ∀ u ∈ tokens, u.kind ≠ .eof)
    (ht : t.kind = .eof) : beforeEnd (tokens ++ [t]) = tokens := beforeEnd_append_eof h ht []

theorem endToken_append_eof {ts : List Token} {t : Token} (h : ∀ u ∈ ts, u.kind ≠ .eof) (ht : t.kind = .eof)
    (us : List Token) : endToken (ts ++ t :: us) = t := by
  have hfind : ts.find? (fun u => decide (u.kind = .eof)) = none := by
    simpa using h
  simp [endToken, List.find?_append, hfind, ht]

theorem exists_first_eof (tokens : List Token) :
    (∃ ts t us, tokens = ts ++ t :: us ∧ (∀ u ∈ ts, u.kind ≠ .eof) ∧ t.kind = .eof) ∨ ∀ t ∈ tokens, t.kind ≠ .eof := by
  induction tokens with
  | nil => exact .inr (by simp)
  | cons t tokens ih =>
    by_cases ht : t.kind = .eof
    · exact .inl ⟨[], t, tokens, rfl, by simp, ht⟩
    · rcases ih with ⟨ts, u, us, rfl, hts, hu⟩ | hall
      · exact .inl ⟨t :: ts, u, us, rfl, List.forall_mem_cons.mpr ⟨ht, hts⟩, hu⟩
      · exact .inr (List.forall_mem_cons.mpr ⟨ht, hall⟩)

theorem endToken_of_ne_eof {tokens : List Token} (h : ∀ t ∈ tokens, t.kind ≠ .eof) :
    endToken tokens = .endAt ((tokens.getLast?.map fun t => t.span.stop).getD 0) := by
  have hfind : tokens.find? (fun t => decide (t.kind = .eof)) = none := by
    simpa using h
  rw [endToken, hfind, Option.getD_none]

theorem parseTokens_ok_iff_runs {tokens : List Token} {e : Expr String} :
    parseTokens tokens = .ok e ↔
      ∃ state, ParseState.Runs .start (beforeEnd tokens) state ∧ state.finish (endToken tokens) = .ok e := by
  unfold parseTokens ParseState.Runs
  cases (beforeEnd tokens).foldlM ParseState.step .start <;> simp [bind, Except.bind]

theorem parseTokens_ok_iff_derives {tokens : List Token} {e : Expr String} :
    parseTokens tokens = .ok e ↔ ∃ ts, Derives 0 .expression ts e ∧ ts.map Prod.snd = beforeEnd tokens ∧
      ∀ t ∈ ts, t.1 ≤ nestingLimit := by
  rw [parseTokens_ok_iff_runs]
  constructor
  · rintro ⟨state, hrun, hfinish⟩
    obtain ⟨ts, hts, hbound, hr⟩ := ParseState.Reads.run (.operand .nil) (Nat.zero_le _) hrun
    exact ⟨ts, hr.finish hfinish, hts, hbound⟩
  · rintro ⟨ts, h, hts, hbound⟩
    obtain ⟨stack, a, hrun, hsettle⟩ := h.readsPhrase hbound [] rfl .nil
    refine ⟨_, hts ▸ hrun, ?_⟩
    simp [ParseState.finish, Frame.finish?, hsettle]

theorem parseTokens_append_end_eq_ok_iff {tokens : List Token} {t : Token} (htokens : ∀ u ∈ tokens, u.kind ≠ .eof)
    (ht : t.kind = .eof) (e : Expr String) :
    parseTokens (tokens ++ [t]) = .ok e ↔
      ∃ ts, Derives 0 .expression ts e ∧ ts.map Prod.snd = tokens ∧ ∀ u ∈ ts, u.1 ≤ 256 := by
  rw [parseTokens_ok_iff_derives, beforeEnd_append_end htokens ht]
  rfl

/-- `!a & b | (one x in X == all y in Y) -> c`, in which every rule of the grammar is used. -/
theorem derives_every_kind :
    let tokens : List Token := [⟨.not, "!", ⟨0, 1⟩⟩, ⟨.identifier, "a", ⟨1, 2⟩⟩, ⟨.and, "&", ⟨3, 4⟩⟩,
      ⟨.identifier, "b", ⟨5, 6⟩⟩, ⟨.or, "|", ⟨7, 8⟩⟩, ⟨.leftParen, "(", ⟨9, 10⟩⟩, ⟨.one, "one", ⟨10, 13⟩⟩,
      ⟨.identifier, "x", ⟨14, 15⟩⟩, ⟨.memberOf, "in", ⟨16, 18⟩⟩, ⟨.identifier, "X", ⟨19, 20⟩⟩,
      ⟨.equivalent, "==", ⟨21, 23⟩⟩, ⟨.all, "all", ⟨24, 27⟩⟩, ⟨.identifier, "y", ⟨28, 29⟩⟩,
      ⟨.memberOf, "in", ⟨30, 32⟩⟩, ⟨.identifier, "Y", ⟨33, 34⟩⟩, ⟨.rightParen, ")", ⟨34, 35⟩⟩,
      ⟨.implies, "->", ⟨36, 38⟩⟩, ⟨.identifier, "c", ⟨39, 40⟩⟩]
    let e : Expr String := .imp (.or (.and (.not (.atom (.plain "a"))) (.atom (.plain "b")))
      (.iff (.atom (.one ⟨"x", "X"⟩)) (.atom (.all ⟨"y", "Y"⟩)))) (.atom (.plain "c"))
    (∀ u ∈ tokens, u.kind ≠ .eof) ∧ parseTokens (tokens ++ [.endAt 40]) = .ok e ∧
    ∃ ts, Derives 0 .expression ts e ∧ ts.map Prod.snd = tokens ∧ ∀ u ∈ ts, u.1 ≤ 256 := by
  intro tokens e
  have htokens : ∀ u ∈ tokens, u.kind ≠ .eof := by decide
  have hparse : parseTokens (tokens ++ [.endAt 40]) = .ok e := rfl
  exact ⟨htokens, hparse, (parseTokens_append_end_eq_ok_iff htokens rfl e).mp hparse⟩

end PseudoBoolean
