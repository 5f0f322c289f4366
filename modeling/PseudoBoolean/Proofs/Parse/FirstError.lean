import PseudoBoolean.Proofs.Parse.Levels

/-!
An error of the reader stands at the first token that cannot be right: the tokens before it can be completed to
an expression, since parentheses can be closed and operands supplied without further nesting; and with it they
cannot, whatever follows.
-/

namespace PseudoBoolean

def Viable (ts : List Token) : Prop := ∃ tokens e, ts <+: tokens ∧ parseTokens tokens = .ok e

def exceedsLimit (t : Nat × Token) : Bool := t.2.kind.opens && decide (nestingLimit ≤ t.1)

/-- The error is at position `k` of the tokens before the end, or at the end if there are `k` of them: those before
it can be continued to an accepted list, with the one at `k` they cannot. The grammar has no limit of nesting; if the
error is about that limit, the tokens up to `k` do begin an expression of the grammar, and in each such expression the
first `!` or `(` that exceeds the limit is at `k`. -/
structure SyntaxError.IsFirstAt (err : SyntaxError) (tokens : List Token) (k : Nat) : Prop where
  location : err.diagnostic.location = match (beforeEnd tokens)[k]? with
    | some t => .text t.span t.lexeme
    | none => .endOfText (endToken tokens).span.start
  viable : Viable ((beforeEnd tokens).take k)
  not_viable : k < (beforeEnd tokens).length → ¬ Viable ((beforeEnd tokens).take (k + 1))
  not_accepted : k = (beforeEnd tokens).length → ∀ e, parseTokens (beforeEnd tokens) ≠ .ok e
  nesting : err.diagnostic.message = "expression nested too deeply" →
    (∃ ts e, Derives 0 .expression ts e ∧ (beforeEnd tokens).take (k + 1) <+: ts.map Prod.snd) ∧
    ∀ ts e, Derives 0 .expression ts e → (beforeEnd tokens).take (k + 1) <+: ts.map Prod.snd →
      ts.findIdx? exceedsLimit = some k

namespace Frame

theorem Reads.closed {stack : List (Frame (Expr String))} {ts us : List (Nat × Token)} {a : Expr String}
    (hr : Reads stack ts) (ha : Derives (depth stack) .primary us a) :
    ∃ stack' ts' us' b, Reads stack' ts' ∧ Closed stack' ∧ Derives (depth stack') .implication us' b ∧
      ts ++ us = ts' ++ us' ∧ depth stack' ≤ depth stack := by
  -- the operand completes all that waits for it, up to the parenthesis it stands in
  obtain ⟨ts₁, us₁, hr₁, hs, ha₁, h₁⟩ := hr.take (.primary ha)
  obtain ⟨ts₂, us₂, hr₂, hc, ha₂, h₂⟩ := hr₁.settle hs ha₁
  refine ⟨_, ts₂, us₂, _, hr₂, hc, ha₂, h₁.trans h₂, ?_⟩
  rw [depth_settle]
  exact depth_take_le stack a

theorem Reads.exists_completion {stack : List (Frame (Expr String))} {ts us : List (Nat × Token)} {a : Expr String}
    (hr : Reads stack ts) (hc : Closed stack) (ha : Derives (depth stack) .implication us a) :
    ∃ rest e, Derives 0 .expression (ts ++ us ++ rest) e ∧ ∀ t ∈ rest, t.1 ≤ depth stack := by
  -- the parentheses are closed one after the other, the innermost first
  induction hn : depth stack using Nat.strongRecOn generalizing stack ts us a with
  | ind n ih =>
    cases hc with
    | nil =>
      cases hr
      exact ⟨[], a, by simpa using ha.implication, by simp⟩
    | @group stack =>
      cases hr with
      | @group _ ts t hr hl =>
        rw [depth_group] at ha hn
        let closing : Token := ⟨.rightParen, ")", .empty 0⟩
        obtain ⟨stack', ts', us', b, hr', hc', hb, h, hle⟩ := hr.closed (.group hl ha.implication (r := closing) rfl)
        obtain ⟨rest, e, he, hrest⟩ := ih (depth stack') (by omega) hr' hc' hb rfl
        rw [← h] at he
        refine ⟨(depth stack, closing) :: rest, e, by simpa using he, ?_⟩
        rintro u (_ | ⟨_, hu⟩)
        · omega
        · have := hrest u hu
          omega

end Frame

namespace ParseState

theorem exists_completion_after {stack : List (Frame (Expr String))} {ts us : List (Nat × Token)} {a : Expr String}
    (hr : Frame.Reads stack ts) (ha : Derives (Frame.depth stack) .primary us a) :
    ∃ rest e, Derives 0 .expression (ts ++ us ++ rest) e ∧ ∀ t ∈ rest, t.1 ≤ Frame.depth stack := by
  obtain ⟨stack', ts', us', b, hr', hc, hb, h, hle⟩ := hr.closed ha
  obtain ⟨rest, e, he, hrest⟩ := hr'.exists_completion hc hb
  exact ⟨rest, e, h ▸ he, fun t ht => Nat.le_trans (hrest t ht) hle⟩

theorem Reads.exists_completion {state : ParseState} {ts : List (Nat × Token)} (hr : Reads state ts) :
    ∃ rest e, Derives 0 .expression (ts ++ rest) e ∧ ∀ t ∈ rest, t.1 ≤ Frame.depth state.stack := by
  let name : Token := ⟨.identifier, "x", .empty 0⟩
  let member : Token := ⟨.memberOf, "in", .empty 0⟩
  cases hr with
  | @operand stack ts hr =>
    obtain ⟨rest, e, he, hrest⟩ := exists_completion_after hr (.identifier (t := name) rfl)
    exact ⟨(Frame.depth stack, name) :: rest, e, by simpa using he, by simpa using hrest⟩
  | @elementName stack ts t q hr ht =>
    obtain ⟨rest, e, he, hrest⟩ := exists_completion_after hr
      (.quantified q (x := name) (i := member) (s := name) ht rfl rfl rfl)
    refine ⟨(Frame.depth stack, name) :: (Frame.depth stack, member) :: (Frame.depth stack, name) :: rest, e, ?_, ?_⟩
    · simpa using he
    · simpa using hrest
  | @membership stack ts t x q hr ht hx =>
    obtain ⟨rest, e, he, hrest⟩ := exists_completion_after hr
      (.quantified q (i := member) (s := name) ht hx rfl rfl)
    exact ⟨(Frame.depth stack, member) :: (Frame.depth stack, name) :: rest, e, by simpa using he, by simpa using hrest⟩
  | @setName stack ts t x i q hr ht hx hi =>
    obtain ⟨rest, e, he, hrest⟩ := exists_completion_after hr (.quantified q (s := name) ht hx hi rfl)
    exact ⟨(Frame.depth stack, name) :: rest, e, by simpa using he, by simpa using hrest⟩
  | @operator stack ts us a hr hs ha =>
    obtain ⟨ts', us', hr', hc, ha', h⟩ := hr.settle hs ha
    obtain ⟨rest, e, he, hrest⟩ := hr'.exists_completion hc ha'
    rw [Frame.depth_settle] at hrest
    exact ⟨rest, e, h ▸ he, hrest⟩

theorem Runs.exists_completion {ts : List Token} {state : ParseState} (h : Runs .start ts state) :
    ∃ us rest e, us.map Prod.snd = ts ∧ Reads state us ∧ Derives 0 .expression (us ++ rest) e ∧
      ∀ t ∈ us ++ rest, t.1 ≤ nestingLimit := by
  obtain ⟨us, hus, hbound, hr⟩ := Reads.run (.operand .nil) (Nat.zero_le _) h
  obtain ⟨rest, e, he, hrest⟩ := hr.exists_completion
  have hdepth := h.depth_le (Nat.zero_le _)
  refine ⟨us, rest, e, hus, hr, he, ?_⟩
  intro t ht
  rcases List.mem_append.mp ht with ht | ht
  · exact hbound t ht
  · exact Nat.le_trans (hrest t ht) hdepth

theorem step_eq_error {state : ParseState} {t : Token} {err : SyntaxError} (h : state.step t = .error err) :
    err.token = t ∧ (err.expectation = .shallowNesting →
      ∃ stack, state = .operand stack ∧ nestingLimit ≤ Frame.depth stack ∧ t.kind.opens = true) := by
  cases state with
  | operand stack =>
    cases hk : t.kind <;> simp only [step, enter, hk, reduceCtorEq] at h
    case not | leftParen =>
      split at h <;> cases h
      exact ⟨rfl, fun _ => ⟨stack, rfl, Nat.le_of_not_lt ‹_›, rfl⟩⟩
    all_goals
      cases h
      exact ⟨rfl, by simp⟩
  | elementName stack q word | membership stack q x | setName stack q x =>
    simp only [step] at h
    split at h <;> cases h
    exact ⟨rfl, by simp⟩
  | operator stack a =>
    have hmissing : missing stack ≠ .shallowNesting := by
      unfold missing
      split <;> simp
    cases hk : t.kind <;> simp only [step, hk, reduceCtorEq] at h
    case rightParen =>
      split at h <;> cases h
      exact ⟨rfl, fun hs => absurd hs hmissing⟩
    all_goals
      cases h
      exact ⟨rfl, fun hs => absurd hs hmissing⟩

theorem finish_eq_error {state : ParseState} {t : Token} {err : SyntaxError} (h : state.finish t = .error err) :
    err.token = t ∧ err.expectation ≠ .shallowNesting := by
  cases state with
  | operand | elementName | membership | setName =>
    cases h
    exact ⟨rfl, by simp⟩
  | operator stack a =>
    simp only [finish] at h
    split at h <;> cases h
    refine ⟨rfl, ?_⟩
    unfold missing
    split <;> simp

theorem exists_failing_step {tokens : List Token} {state : ParseState} {err : SyntaxError}
    (h : tokens.foldlM step state = .error err) :
    ∃ before t after next, tokens = before ++ t :: after ∧ Runs state before next ∧ next.step t = .error err := by
  induction tokens generalizing state with
  | nil => cases h
  | cons t tokens ih =>
    rw [List.foldlM_cons] at h
    cases hstep : state.step t with
    | error err' =>
      rw [hstep] at h
      cases h
      exact ⟨[], t, tokens, state, rfl, runs_nil.mpr rfl, hstep⟩
    | ok next =>
      rw [hstep] at h
      obtain ⟨before, u, after, last, htokens, hrun, hfail⟩ := ih h
      exact ⟨t :: before, u, after, last, by rw [htokens, List.cons_append],
        .cons (step_iff_advance.mp hstep) hrun, hfail⟩

end ParseState

theorem Expectation.eq_shallowNesting {x : Expectation} (h : x.message = "expression nested too deeply") :
    x = .shallowNesting := by
  cases x with
  | shallowNesting => rfl
  | elementName q =>
    have hleft : "expect element name after '" = "expe" ++ "ct element name after '" := rfl
    have hright : "expression nested too deeply" = "expr" ++ "ession nested too deeply" := rfl
    change "expect element name after '" ++ q ++ "'" = _ at h
    rw [hleft, hright, String.append_assoc, String.append_assoc] at h
    have hchars := congrArg String.toList h
    simp at hchars
  | expression | memberOf | setName | rightParen | endOfExpression => exact absurd h (by decide)

theorem kind_ne_eof_of_mem_beforeEnd {tokens : List Token} {t : Token} (h : t ∈ beforeEnd tokens) : t.kind ≠ .eof := by
  simpa using List.all_eq_true.mp List.all_takeWhile t h

theorem beforeEnd_of_ne_eof {tokens : List Token} (h : ∀ t ∈ tokens, t.kind ≠ .eof) : beforeEnd tokens = tokens := by
  have happend := beforeEnd_append h []
  simpa [beforeEnd] using happend

theorem endToken_kind (tokens : List Token) : (endToken tokens).kind = .eof := by
  unfold endToken
  cases hfind : tokens.find? fun t => t.kind = .eof with
  | none => rfl
  | some t => simpa using List.find?_some hfind

theorem parseTokens_eq_error {tokens : List Token} {err : SyntaxError} (h : parseTokens tokens = .error err) :
    (beforeEnd tokens).foldlM ParseState.step .start = .error err ∨
      ∃ state, ParseState.Runs .start (beforeEnd tokens) state ∧ state.finish (endToken tokens) = .error err := by
  unfold parseTokens at h
  cases hfold : (beforeEnd tokens).foldlM ParseState.step .start with
  | error err' =>
    rw [hfold] at h
    cases h
    exact .inl rfl
  | ok state =>
    rw [hfold] at h
    exact .inr ⟨state, hfold, h⟩

namespace ParseState

theorem Runs.viable {ts : List Token} {state : ParseState} (h : Runs .start ts state) : Viable ts := by
  obtain ⟨us, rest, e, rfl, -, he, hbound⟩ := h.exists_completion
  refine ⟨(us ++ rest).map Prod.snd, e, by simp, ?_⟩
  rw [parseTokens_ok_iff_derives]
  refine ⟨us ++ rest, he, ?_, hbound⟩
  rw [beforeEnd_of_ne_eof]
  intro t ht
  obtain ⟨u, hu, rfl⟩ := List.mem_map.mp ht
  exact he.kind_ne_eof u hu

theorem Runs.parseTokens_eq_error {ts : List Token} {state : ParseState} {t : Token} {err : SyntaxError}
    (h : Runs .start ts state) (hfail : state.step t = .error err) (heof : ∀ u ∈ ts ++ [t], u.kind ≠ .eof)
    (rest : List Token) : parseTokens (ts ++ [t] ++ rest) = .error err := by
  unfold Runs at h
  rw [parseTokens, beforeEnd_append heof, List.append_assoc, List.foldlM_append, h]
  change ((step state t >>= fun next => (beforeEnd rest).foldlM step next) >>= fun _ => _) = _
  rw [hfail]
  rfl

theorem Runs.not_viable {ts : List Token} {state : ParseState} {t : Token} {err : SyntaxError}
    (h : Runs .start ts state) (hfail : state.step t = .error err) (heof : ∀ u ∈ ts ++ [t], u.kind ≠ .eof) :
    ¬ Viable (ts ++ [t]) := by
  rintro ⟨tokens, e, ⟨rest, rfl⟩, hok⟩
  rw [h.parseTokens_eq_error hfail heof] at hok
  cases hok

theorem not_exceedsLimit {ts : List (Nat × Token)} {e : Expr String} (h : Derives 0 .expression ts e)
    (hbound : ∀ t ∈ ts, t.1 ≤ nestingLimit) {t : Nat × Token} (ht : t ∈ ts) : exceedsLimit t = false := by
  apply Bool.eq_false_iff.mpr
  intro hexceeds
  obtain ⟨hopens, hlimit⟩ := Bool.and_eq_true_iff.mp hexceeds
  -- the operand of `t` has a token of its own, which is within the bound
  obtain ⟨u, hu⟩ := h.exists_deeper t ht hopens
  have hle := hbound _ hu
  have hge := of_decide_eq_true hlimit
  simp only at hle
  omega

theorem Reads.opened {stack : List (Frame (Expr String))} {ts : List (Nat × Token)} {t : Token}
    (hr : Reads (.operand stack) ts) (hopens : t.kind.opens = true) :
    ∃ frame, Reads (.operand (frame :: stack)) (ts ++ [(Frame.depth stack, t)]) := by
  cases hr with
  | operand hr =>
    cases hk : t.kind <;> rw [hk] at hopens <;> cases hopens
    · exact ⟨.group, .operand (.group hr hk)⟩
    · exact ⟨.negation, .operand (.negation hr hk)⟩

theorem Runs.first_exceeding {ts : List Token} {stack : List (Frame (Expr String))} {t : Token}
    (h : Runs .start ts (.operand stack)) (hopens : t.kind.opens = true) (hd : nestingLimit ≤ Frame.depth stack) :
    (∃ us e, Derives 0 .expression us e ∧ ts ++ [t] <+: us.map Prod.snd) ∧
    ∀ us e, Derives 0 .expression us e → ts ++ [t] <+: us.map Prod.snd →
      us.findIdx? exceedsLimit = some ts.length := by
  obtain ⟨ts, rest, e, rfl, hr, he, hbound⟩ := h.exists_completion
  obtain ⟨frame, hr'⟩ := hr.opened hopens
  obtain ⟨rest', e', he', -⟩ := hr'.exists_completion
  refine ⟨⟨_, e', he', by simp⟩, fun us f hf hstart => ?_⟩
  -- the tokens up to `t` are nested alike in all expressions that start with them
  have htake : us.take (ts.length + 1) = ts ++ [(Frame.depth stack, t)] := by
    obtain ⟨after, hafter⟩ := hstart
    have heq := hf.take_eq he' (n := ts.length + 1) (by simp [← hafter, List.take_append])
    simpa [List.take_length_add_append] using heq
  have hbefore : ts.findIdx? exceedsLimit = none := by
    rw [List.findIdx?_eq_none_iff]
    intro u hu
    exact not_exceedsLimit he hbound (List.mem_append_left _ hu)
  have hhere : exceedsLimit (Frame.depth stack, t) = true := by
    simp [exceedsLimit, hopens, hd]
  rw [← List.take_append_drop (ts.length + 1) us, htake, List.findIdx?_append, List.findIdx?_append, hbefore]
  simp [hhere]

theorem Runs.isFirstAt {tokens before after : List Token} {t : Token} {state : ParseState} {err : SyntaxError}
    (hrun : Runs .start before state) (hfail : state.step t = .error err)
    (htokens : beforeEnd tokens = before ++ t :: after) : err.IsFirstAt tokens before.length := by
  obtain ⟨htoken, hnested⟩ := step_eq_error hfail
  have heof : ∀ u ∈ before ++ [t], u.kind ≠ .eof := by
    intro u hu
    have hmem : u ∈ before ++ [t] ++ after := List.mem_append_left _ hu
    rw [← List.append_cons, ← htokens] at hmem
    exact kind_ne_eof_of_mem_beforeEnd hmem
  have htake : (beforeEnd tokens).take (before.length + 1) = before ++ [t] := by
    rw [htokens, List.take_length_add_append]
    rfl
  constructor
  · have hk : t.kind ≠ .eof := heof t (by simp)
    simp [SyntaxError.diagnostic, Location.ofToken, htoken, htokens, hk]
  · rw [htokens, List.take_left]
    exact hrun.viable
  · intro _
    rw [htake]
    exact hrun.not_viable hfail heof
  · intro hlength
    simp [htokens] at hlength
  · intro hmessage
    obtain ⟨stack, rfl, hd, hopens⟩ := hnested (Expectation.eq_shallowNesting hmessage)
    rw [htake]
    exact hrun.first_exceeding hopens hd

theorem Runs.isFirstAt_end {tokens : List Token} {state : ParseState} {err : SyntaxError}
    (hrun : Runs .start (beforeEnd tokens) state) (hfinish : state.finish (endToken tokens) = .error err)
    (h : parseTokens tokens = .error err) : err.IsFirstAt tokens (beforeEnd tokens).length := by
  obtain ⟨htoken, hshallow⟩ := finish_eq_error hfinish
  constructor
  · simp [SyntaxError.diagnostic, Location.ofToken, htoken, endToken_kind]
  · rw [List.take_length]
    exact hrun.viable
  · intro hlt
    exact absurd hlt (Nat.lt_irrefl _)
  · intro _ e hok
    -- what is accepted depends only on the tokens before the end
    have hself : beforeEnd (beforeEnd tokens) = beforeEnd tokens :=
      beforeEnd_of_ne_eof fun _ => kind_ne_eof_of_mem_beforeEnd
    rw [parseTokens_ok_iff_derives, hself, ← parseTokens_ok_iff_derives, h] at hok
    cases hok
  · intro hmessage
    exact absurd (Expectation.eq_shallowNesting hmessage) hshallow

end ParseState

theorem parseTokens_error_isFirst {tokens : List Token} {err : SyntaxError} (h : parseTokens tokens = .error err) :
    ∃ k ≤ (beforeEnd tokens).length, err.IsFirstAt tokens k := by
  rcases parseTokens_eq_error h with hfold | ⟨state, hrun, hfinish⟩
  · obtain ⟨before, t, after, state, htokens, hrun, hfail⟩ := ParseState.exists_failing_step hfold
    exact ⟨before.length, by simp [htokens], hrun.isFirstAt hfail htokens⟩
  · exact ⟨_, Nat.le_refl _, hrun.isFirstAt_end hfinish h⟩

theorem Frame.depth_negations (n : Nat) : depth (List.replicate n (.negation : Frame (Expr String))) = n := by
  induction n with
  | zero => rfl
  | succ n ih => rw [List.replicate_succ, depth_negation, ih]

theorem ParseState.runs_negations {t : Token} (ht : t.kind = .not) {n : Nat} (hn : n ≤ nestingLimit) :
    Runs .start (List.replicate n t) (.operand (List.replicate n .negation)) := by
  induction n with
  | zero => exact runs_nil.mpr rfl
  | succ n ih =>
    have hdepth := Frame.depth_negations n
    rw [List.replicate_succ']
    exact (ih (by omega)).append (.single (.negation ht (by omega)))

theorem parseTokens_error_isFirst_negations :
    let t : Token := ⟨.not, "!", .empty 0⟩
    let tokens := List.replicate 256 t ++ [t]
    let err : SyntaxError := ⟨.shallowNesting, t⟩
    parseTokens tokens = .error err ∧ ∃ k ≤ (beforeEnd tokens).length, err.IsFirstAt tokens k := by
  intro t tokens err
  have hrun := ParseState.runs_negations (t := t) rfl (Nat.le_refl nestingLimit)
  have hfail : ParseState.step (.operand (List.replicate nestingLimit .negation)) t = .error err := by
    simp [ParseState.step, ParseState.enter, t, Frame.depth_negations, err]
  have heof : ∀ u ∈ tokens, u.kind ≠ .eof := by
    intro u hu
    have hut : u = t := (List.mem_append.mp hu).elim List.eq_of_mem_replicate List.mem_singleton.mp
    simp [hut, t]
  have h : parseTokens tokens = .error err := by
    rw [← List.append_nil tokens]
    exact hrun.parseTokens_eq_error hfail heof []
  exact ⟨h, parseTokens_error_isFirst h⟩

end PseudoBoolean
