import PseudoBoolean.Proofs.Inline.Calls
import PseudoBoolean.Proofs.Inline.Variables

namespace PseudoBoolean

open Text

def Frame.map {φ ψ : Type} (f : φ → ψ) : Frame φ → Frame ψ
  | .negation => .negation
  | .group => .group
  | .tight a op => .tight (f a) op
  | .loose a op => .loose (f a) op

theorem Lexeme.keyword? {kind : Token.Kind} {word : String} (h : Lexeme kind word.toList)
    (hk : kind ∈ [.one, .all, .memberOf]) : Token.Kind.keyword? word = some kind := by
  generalize hcs : word.toList = cs at h
  cases h with
  | leftParen | rightParen | not | and | or | implies | equivalent => exact absurd hk (by decide)
  | word =>
    rw [← hcs, String.ofList_toList] at hk ⊢
    unfold Token.Kind.ofWord at hk ⊢
    cases hword : Token.Kind.keyword? word with
    | none =>
      rw [hword] at hk
      exact absurd hk (by decide)
    | some kind => rfl

namespace Inline

theorem quantifier?_of_keyword? {q : Quantifier} {word : String}
    (h : PseudoBoolean.Token.Kind.keyword? word = some q.kind) :
    quantifier? word = some q ∧ isReserved word = false := by
  unfold PseudoBoolean.Token.Kind.keyword? at h
  split at h <;> cases q <;> cases h <;> exact ⟨rfl, by decide⟩

theorem mem_of_keyword? {word : String} (h : PseudoBoolean.Token.Kind.keyword? word = some .memberOf) :
    word = "in" ∨ word = "of" := by
  unfold PseudoBoolean.Token.Kind.keyword? at h
  split at h <;> cases h
  · exact .inl rfl
  · exact .inr rfl

namespace Builder

theorem ofExpr_tight (op : Tight) (a b : Expr String) : ofExpr (op.join a b) = op.join (ofExpr a) (ofExpr b) := by
  cases op <;> rfl

theorem ofExpr_loose (op : Loose) (a b : Expr String) : ofExpr (op.join a b) = op.join (ofExpr a) (ofExpr b) := by
  cases op <;> rfl

theorem ofExpr_over (q : Quantifier) (x s : String) : ofExpr (q.over x s) = build (spelled x) (spelled s) q := by
  cases q <;> rfl

end Builder

open Builder

def frames (stack : List (Frame (Expr String))) : List (Frame Builder) := stack.map (Frame.map ofExpr)

theorem frames_cons (frame : Frame (Expr String)) (stack : List (Frame (Expr String))) :
    frames (frame :: stack) = frame.map ofExpr :: frames stack := rfl

theorem take_frames (stack : List (Frame (Expr String))) (a : Expr String) :
    Frame.take (frames stack) (ofExpr a) = (frames (Frame.take stack a).1, ofExpr (Frame.take stack a).2) := by
  fun_induction Frame.take stack a with
  | case1 a stack ih => exact ih
  | case2 left op stack a => simp [frames, Frame.map, Frame.take, ofExpr_tight]
  | case3 stack a hneg htight =>
    rcases stack with _ | ⟨_ | _ | ⟨left, op⟩ | ⟨left, op⟩, stack⟩
    · rfl
    · exact absurd rfl (hneg _)
    · rfl
    · exact absurd rfl (htight _ _ _)
    · rfl

theorem settle_frames (stack : List (Frame (Expr String))) (a : Expr String) :
    Frame.settle (frames stack) (ofExpr a) = (frames (Frame.settle stack a).1, ofExpr (Frame.settle stack a).2) := by
  rcases stack with _ | ⟨_ | _ | ⟨left, op⟩ | ⟨left, op⟩, stack⟩
  · rfl
  · rfl
  · rfl
  · rfl
  · simp [frames, Frame.map, Frame.settle, ofExpr_loose]

theorem closeGroup?_frames (stack : List (Frame (Expr String))) (a : Expr String) :
    Frame.closeGroup? (frames stack) (ofExpr a) =
      (Frame.closeGroup? stack a).map fun p => (frames p.1, ofExpr p.2) := by
  unfold Frame.closeGroup?
  rw [settle_frames]
  rcases Frame.settle stack a with ⟨_ | ⟨_ | _ | _ | _, rest⟩, e⟩
  · rfl
  · rfl
  · exact congrArg some (take_frames rest e)
  · rfl
  · rfl

theorem finish?_frames (stack : List (Frame (Expr String))) (a : Expr String) :
    Frame.finish? (frames stack) (ofExpr a) = (Frame.finish? stack a).map ofExpr := by
  unfold Frame.finish?
  rw [settle_frames]
  rcases Frame.settle stack a with ⟨_ | ⟨_, _⟩, e⟩ <;> rfl

def hostToken (w : PseudoBoolean.Token.Kind × String) : Token :=
  match w.1 with
  | .leftParen => .opening .round
  | .rightParen => .closing .round
  | .not => .sign "!"
  | .and => .sign "&"
  | .or => .sign "|"
  | .implies => .sign "->"
  | .equivalent => .sign "=="
  | .identifier => .literal (spelled w.2)
  | .one | .all | .memberOf => .word w.2
  | .eof => .other

inductive Matches : ParseState → State → Prop
  | operand {stack} : Matches (.operand stack) (.operand (frames stack))
  | elementName {stack q word} : quantifier? word = some q →
      Matches (.elementName stack q word) (.word (frames stack) word)
  | membership {stack q x} : Matches (.membership stack q x) (.membership (frames stack) q (spelled x))
  | setName {stack q x} : Matches (.setName stack q x) (.setName (frames stack) q (spelled x))
  | operator {stack a} : Matches (.operator stack a) (.operator (frames stack) (ofExpr a))

theorem matches_after (stack : List (Frame (Expr String))) (a : Expr String) :
    Matches (.after stack a) (Reader.after (frames stack) (ofExpr a)) := by
  rw [Reader.after, take_frames]
  exact .operator

theorem hostToken_of_kind {t : PseudoBoolean.Token} {kind : PseudoBoolean.Token.Kind} (h : t.kind = kind) :
    hostToken t.word = hostToken (kind, t.lexeme) := by
  rw [PseudoBoolean.Token.word, h]

theorem Matches.advance {state state' : ParseState} {r : State} {t : PseudoBoolean.Token} (h : Matches state r)
    (ht : PseudoBoolean.Lexeme t.kind t.lexeme.toList) (hs : state.Advance t state') :
    ∃ r', Reader.step ⟨r, false⟩ (hostToken t.word) = .ok ⟨r', false⟩ ∧ Matches state' r' := by
  cases hs with
  | identifier hk =>
    cases h
    rw [hostToken_of_kind hk]
    exact ⟨_, rfl, matches_after _ _⟩
  | quantifier q hk =>
    cases h
    have hkeyword := ht.keyword? (by rw [hk]; cases q <;> decide)
    rw [hk] at hkeyword
    obtain ⟨hq, hreserved⟩ := quantifier?_of_keyword? hkeyword
    have htoken : hostToken t.word = .word t.lexeme := by
      rw [hostToken_of_kind hk]
      cases q <;> rfl
    refine ⟨_, ?_, .elementName hq⟩
    simp [htoken, Reader.step, hreserved]
  | negation hk _ | group hk _ =>
    cases h
    rw [hostToken_of_kind hk]
    exact ⟨_, rfl, .operand⟩
  | elementName hk =>
    cases h with
    | elementName hq =>
      rw [hostToken_of_kind hk]
      refine ⟨_, ?_, .membership⟩
      simp [hostToken, Reader.step, hq]
  | membership hk =>
    cases h
    have hkeyword := ht.keyword? (by rw [hk]; decide)
    rw [hk] at hkeyword
    have hword := mem_of_keyword? hkeyword
    rw [hostToken_of_kind hk]
    refine ⟨_, ?_, .setName⟩
    simp [hostToken, Reader.step, hword]
  | @setName stack q x t hk =>
    cases h
    rw [hostToken_of_kind hk]
    have hafter := matches_after stack (q.over x t.lexeme)
    rw [ofExpr_over] at hafter
    exact ⟨_, rfl, hafter⟩
  | tight op hk =>
    cases h
    rw [hostToken_of_kind hk]
    cases op <;> exact ⟨_, rfl, .operand⟩
  | @loose stack a rest chain t op hk hsettle =>
    cases h
    have hframes := settle_frames stack a
    rw [hsettle] at hframes
    rw [hostToken_of_kind hk]
    refine ⟨_, ?_, .operand⟩
    rw [frames_cons]
    cases op <;> simp [hostToken, Loose.kind, Reader.step, Reader.stepOperator, hframes, Frame.map]
  | @close stack a rest e t hk hsettle =>
    cases h
    have hclose := closeGroup?_frames stack a
    rw [Frame.closeGroup?_eq_some.mpr ⟨rest, e, hsettle, rfl⟩] at hclose
    rw [hostToken_of_kind hk]
    refine ⟨_, ?_, .operator⟩
    simp [hostToken, Reader.step, Reader.stepOperator, Reader.closeGroup, hclose]

theorem Matches.run {tokens : List PseudoBoolean.Token} {state state' : ParseState} {r : State} (h : Matches state r)
    (ht : ∀ t ∈ tokens, PseudoBoolean.Lexeme t.kind t.lexeme.toList) (hrun : state.Runs tokens state') :
    ∃ r', (tokens.map fun t => hostToken t.word).foldlM Reader.step ⟨r, false⟩ = .ok ⟨r', false⟩ ∧
      Matches state' r' := by
  induction tokens generalizing state r with
  | nil =>
    obtain rfl := ParseState.runs_nil.mp hrun
    exact ⟨r, rfl, h⟩
  | cons t tokens ih =>
    obtain ⟨next, hadvance, hrest⟩ := ParseState.runs_cons.mp hrun
    obtain ⟨r', hstep, h'⟩ := h.advance (ht t List.mem_cons_self) hadvance
    obtain ⟨r'', hfold, h''⟩ := ih h' (fun u hu => ht u (List.mem_cons_of_mem _ hu)) hrest
    exact ⟨r'', Reader.run_cons.mpr ⟨_, hstep, hfold⟩, h''⟩

theorem Matches.finish {state : ParseState} {r : State} {t : PseudoBoolean.Token} {e : Expr String}
    (h : Matches state r) (hfinish : state.finish t = .ok e) : Reader.finish ⟨r, false⟩ = .ok (ofExpr e) := by
  cases h with
  | operand | elementName | membership | setName => cases hfinish
  | @operator stack a =>
    have hframes := finish?_frames stack a
    simp only [ParseState.finish] at hfinish
    split at hfinish
    next he =>
      obtain rfl := Except.ok.inj hfinish
      rw [he] at hframes
      simp [Reader.finish, hframes]
    · cases hfinish

theorem Matches.exists_advance {state : ParseState} {r : State} {t : PseudoBoolean.Token} {r' : Reader}
    (h : Matches state r) (ht : PseudoBoolean.Lexeme t.kind t.lexeme.toList)
    (hstep : Reader.step ⟨r, false⟩ (hostToken t.word) = .ok r') (hclean : r'.Clean) :
    (∃ state', state.Advance t state') ∨ state.Overflows [t] := by
  cases h with
  | @operand stack =>
    cases hk : t.kind <;> rw [hostToken_of_kind hk] at hstep
    case identifier => exact .inl ⟨_, .identifier hk⟩
    case one => exact .inl ⟨_, .quantifier .one hk⟩
    case all => exact .inl ⟨_, .quantifier .all hk⟩
    case not =>
      rcases Nat.lt_or_ge (Frame.depth stack) nestingLimit with hd | hd
      · exact .inl ⟨_, .negation hk hd⟩
      · exact .inr (ParseState.overflows_of_depth (.inl hk) hd [])
    case leftParen =>
      rcases Nat.lt_or_ge (Frame.depth stack) nestingLimit with hd | hd
      · exact .inl ⟨_, .group hk hd⟩
      · exact .inr (ParseState.overflows_of_depth (.inr hk) hd [])
    case memberOf =>
      have hkeyword := ht.keyword? (by rw [hk]; decide)
      rw [hk] at hkeyword
      -- `in` is reserved, and `of` is a word like any other that is no quantifier
      rcases mem_of_keyword? hkeyword with hword | hword
      · rw [hword] at hstep
        cases hstep
      · rw [hword] at hstep
        cases hstep
        have hvariables := hclean.2
        simp [State.variableNames, quantifier?] at hvariables
    all_goals cases hstep
  | @elementName stack q word hq =>
    cases hk : t.kind <;> rw [hostToken_of_kind hk] at hstep
    case identifier => exact .inl ⟨_, .elementName hk⟩
    -- without a name behind it the quantifier is a variable
    all_goals
      cases hstep
      exact absurd hclean Reader.not_clean_variable
  | @membership stack q x =>
    cases hk : t.kind <;> rw [hostToken_of_kind hk] at hstep
    case memberOf => exact .inl ⟨_, .membership hk⟩
    case one | all =>
      have hkeyword := ht.keyword? (by rw [hk]; decide)
      rw [hk] at hkeyword
      have hword : ¬(t.lexeme = "in" ∨ t.lexeme = "of") := by
        rintro (hword | hword) <;> rw [hword] at hkeyword <;> cases hkeyword
      simp only [hostToken, Reader.step, hword, if_false] at hstep
      split at hstep <;> cases hstep
    all_goals cases hstep
  | @setName stack q x =>
    cases hk : t.kind <;> rw [hostToken_of_kind hk] at hstep
    case identifier => exact .inl ⟨_, .setName hk⟩
    all_goals cases hstep
  | @operator stack a =>
    cases hk : t.kind <;> rw [hostToken_of_kind hk] at hstep
    case and => exact .inl ⟨_, .tight .and hk⟩
    case or => exact .inl ⟨_, .tight .or hk⟩
    case implies => exact .inl ⟨_, .loose .imp hk rfl⟩
    case equivalent => exact .inl ⟨_, .loose .iff hk rfl⟩
    case rightParen =>
      cases hclose : Frame.closeGroup? stack a with
      | some p =>
        obtain ⟨rest, e, hsettle, -⟩ := Frame.closeGroup?_eq_some.mp hclose
        exact .inl ⟨_, .close hk hsettle⟩
      | none =>
        have hframes := closeGroup?_frames stack a
        rw [hclose] at hframes
        cases hstep
        simp [hostToken, Reader.stepOperator, Reader.closeGroup, hframes, Reader.Clean] at hclean
    -- all else is left over
    all_goals
      cases hstep
      cases hclean.1

theorem Matches.of_run {tokens : List PseudoBoolean.Token} {state : ParseState} {r : State} {r' : Reader}
    (h : Matches state r) (ht : ∀ t ∈ tokens, PseudoBoolean.Lexeme t.kind t.lexeme.toList)
    (hrun : (tokens.map fun t => hostToken t.word).foldlM Reader.step ⟨r, false⟩ = .ok r') (hclean : r'.Clean) :
    (∃ state', state.Runs tokens state' ∧ ∃ s, r' = ⟨s, false⟩ ∧ Matches state' s) ∨ state.Overflows tokens := by
  induction tokens generalizing state r with
  | nil =>
    cases hrun
    exact .inl ⟨state, ParseState.runs_nil.mpr rfl, r, rfl, h⟩
  | cons t tokens ih =>
    obtain ⟨next, hstep, hrest⟩ := Reader.run_cons.mp hrun
    rcases h.exists_advance (ht t List.mem_cons_self) hstep (Reader.clean_of_run hrest hclean) with
      ⟨state', hadvance⟩ | hover
    · obtain ⟨s, hs, h'⟩ := h.advance (ht t List.mem_cons_self) hadvance
      obtain rfl : ⟨s, false⟩ = next := Except.ok.inj (hs.symm.trans hstep)
      rcases ih h' (fun u hu => ht u (List.mem_cons_of_mem _ hu)) hrest with ⟨state'', hruns, hresult⟩ | hover
      · exact .inl ⟨state'', .cons hadvance hruns, hresult⟩
      · exact .inr (ParseState.Runs.overflows (.single hadvance) hover)
    · exact .inr (hover.append tokens)

theorem Matches.of_finish {state : ParseState} {r : State} {b : Builder} (h : Matches state r)
    (hfinish : Reader.finish ⟨r, false⟩ = .ok b) (hb : b.variableNames = []) (t : PseudoBoolean.Token) :
    ∃ e, state.finish t = .ok e ∧ b = ofExpr e := by
  obtain ⟨-, ⟨stack, value, hstate, hvalue⟩ | ⟨stack, word, -, hvariables⟩⟩ := Reader.finish_eq_ok hfinish
  · cases h with
    | operand | elementName | membership | setName => cases hstate
    | @operator stack a =>
      cases hstate
      rw [finish?_frames] at hvalue
      obtain ⟨e, he, rfl⟩ := Option.map_eq_some_iff.mp hvalue
      exact ⟨e, by simp [ParseState.finish, he], rfl⟩
  · exact absurd (hvariables.symm.trans hb) (held_variable stack word)

end Inline

end PseudoBoolean
