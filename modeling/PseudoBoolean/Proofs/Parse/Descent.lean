import PseudoBoolean.Proofs.Parse.FirstError

namespace PseudoBoolean

section

variable {σ ε α β : Type} {x : StateT σ (ExceptT ε Option) α} {c : σ}

theorem run_bind_pure {c' : σ} {a : α} (h : x.run c = pure (a, c')) (f : α → StateT σ (ExceptT ε Option) β) :
    (x >>= f).run c = (f a).run c' := by
  rw [StateT.run_bind, h, pure_bind]

theorem run_bind_throw {e : ε} (h : x.run c = throw e) (f : α → StateT σ (ExceptT ε Option) β) :
    (x >>= f).run c = throw e := by
  rw [StateT.run_bind, h]
  rfl

end

namespace Descent

structure Cursor where
  current : Nat
  depth : Nat

inductive Failure
  | refused (error : SyntaxError)
  -- a position is looked at where the list has no token
  | outside

end Descent

/-- A reader with a cursor. It gives no answer if it has to go deeper than it may. -/
abbrev Descent (α : Type) : Type := StateT Descent.Cursor (ExceptT Descent.Failure Option) α

namespace Descent

section Rules

variable (tokens : List Token)

namespace Cursor

def peek (c : Cursor) : Token :=
  tokens[c.current]?.getD (.endAt ((tokens.getLast?.map fun t => t.span.stop).getD 0))

def isAtEnd (c : Cursor) : Bool := (c.peek tokens).kind = .eof

def check (c : Cursor) (kind : Token.Kind) : Bool := !c.isAtEnd tokens && (c.peek tokens).kind = kind

end Cursor

def previous : Descent Token := do
  match (← get).current with
  | 0 => throw .outside
  | n + 1 =>
    match tokens[n]? with
    | some t => return t
    | none => throw .outside

def advance : Descent Token := do
  modify fun c => if c.isAtEnd tokens then c else { c with current := c.current + 1 }
  previous tokens

def matchAny (kinds : List Token.Kind) : Descent (Option Token) := do
  if kinds.any ((← get).check tokens) then return some (← advance tokens) else return none

def refuse {α : Type} (expectation : Expectation) (t : Token) : Descent α := throw (.refused ⟨expectation, t⟩)

def consume (kind : Token.Kind) (expectation : Expectation) : Descent Token := do
  if (← get).check tokens kind then advance tokens else refuse expectation ((← get).peek tokens)

def nested {α : Type} (opener : Token) (rule : Descent α) : Descent α := do
  if nestingLimit ≤ (← get).depth then refuse .shallowNesting opener
  else
    modify fun c => { c with depth := c.depth + 1 }
    let a ← rule
    modify fun c => { c with depth := c.depth - 1 }
    return a

def unanswered {α : Type} : Descent α := liftM (none : Option α)

mutual

def implication : Nat → Descent (Expr String)
  | 0 => unanswered
  | n + 1 => do implicationRest n (← binary n)

def implicationRest : Nat → Expr String → Descent (Expr String)
  | 0, _ => unanswered
  | n + 1, a => do
    match ← matchAny tokens [.implies, .equivalent] with
    | some operator =>
      let b ← binary n
      implicationRest n (if operator.kind = .implies then .imp a b else .iff a b)
    | none => return a

def binary : Nat → Descent (Expr String)
  | 0 => unanswered
  | n + 1 => do binaryRest n (← unary n)

def binaryRest : Nat → Expr String → Descent (Expr String)
  | 0, _ => unanswered
  | n + 1, a => do
    match ← matchAny tokens [.and, .or] with
    | some operator =>
      let b ← unary n
      binaryRest n (if operator.kind = .and then .and a b else .or a b)
    | none => return a

def unary : Nat → Descent (Expr String)
  | 0 => unanswered
  | n + 1 => do
    match ← matchAny tokens [.not] with
    | some operator => return .not (← nested operator (unary n))
    | none => primary n

def primary : Nat → Descent (Expr String)
  | 0 => unanswered
  | n + 1 => do
    match ← matchAny tokens [.identifier] with
    | some name => return .var name.lexeme
    | none =>
      match ← matchAny tokens [.one, .all] with
      | some quantifier =>
        let element ← consume tokens .identifier (.elementName quantifier.lexeme)
        let _ ← consume tokens .memberOf .memberOf
        let set ← consume tokens .identifier .setName
        return if quantifier.kind = .one then .one element.lexeme set.lexeme else .all element.lexeme set.lexeme
      | none =>
        match ← matchAny tokens [.leftParen] with
        | some opener =>
          let a ← nested opener (implication n)
          let _ ← consume tokens .rightParen .rightParen
          return a
        | none => refuse .expression ((← get).peek tokens)

end

def whole (calls : Nat) : Descent (Expr String) := do
  let a ← implication tokens calls
  if (← get).isAtEnd tokens then return a else refuse .endOfExpression ((← get).peek tokens)

def parse (calls : Nat) : Option (Except Failure (Expr String)) := ((whole tokens calls).run' ⟨0, 0⟩).run

end Rules

section Moves

variable {tokens : List Token} {α β : Type}

/-- The cursor at position `p` has the tokens `ts` before it, up to the first end of text. -/
def At (tokens : List Token) (p : Nat) (ts : List Token) : Prop :=
  ∃ before, beforeEnd tokens = before ++ ts ∧ before.length = p

def Stops (kinds : List Token.Kind) (ts : List Token) : Prop := ∀ t ∈ ts.head?, t.kind ∉ kinds

theorem stops_nil (ts : List Token) : Stops [] ts := by
  simp [Stops]

theorem Stops.append {ks ls : List Token.Kind} {ts : List Token} (hks : Stops ks ts) (hls : Stops ls ts) :
    Stops (ks ++ ls) ts := by
  intro t ht hk
  rcases List.mem_append.mp hk with hk | hk
  · exact hks t ht hk
  · exact hls t ht hk

def next (tokens ts : List Token) : Token := ts.head?.getD (endToken tokens)

theorem next_nil (tokens : List Token) : next tokens [] = endToken tokens := rfl

theorem next_cons (tokens : List Token) (t : Token) (ts : List Token) : next tokens (t :: ts) = t := rfl

theorem At.tail {p : Nat} {t : Token} {ts : List Token} (h : At tokens p (t :: ts)) : At tokens (p + 1) ts := by
  obtain ⟨before, htokens, hlength⟩ := h
  exact ⟨before ++ [t], by simp [htokens], by simp [hlength]⟩

theorem At.length_le {p : Nat} {ts : List Token} (h : At tokens p ts) : ts.length ≤ tokens.length := by
  obtain ⟨before, htokens, -⟩ := h
  have hle := (List.takeWhile_prefix (l := tokens) fun t => decide (t.kind ≠ .eof)).length_le
  rw [← beforeEnd, htokens, List.length_append] at hle
  omega

theorem At.getElem? {p : Nat} {t : Token} {ts : List Token} (h : At tokens p (t :: ts)) : tokens[p]? = some t := by
  obtain ⟨before, htokens, rfl⟩ := h
  obtain ⟨rest, hrest⟩ := List.takeWhile_prefix (l := tokens) fun t => decide (t.kind ≠ .eof)
  rw [← beforeEnd, htokens] at hrest
  simp [← hrest]

theorem At.kind_ne_eof {p : Nat} {t : Token} {ts : List Token} (h : At tokens p (t :: ts)) : t.kind ≠ .eof := by
  obtain ⟨before, htokens, -⟩ := h
  have hmem : t ∈ beforeEnd tokens := by simp [htokens]
  exact kind_ne_eof_of_mem_beforeEnd hmem

theorem peek_of_at {p : Nat} {ts : List Token} (h : At tokens p ts) (d : Nat) :
    Cursor.peek tokens ⟨p, d⟩ = next tokens ts := by
  cases ts with
  | cons t ts => simp [Cursor.peek, next, h.getElem?]
  | nil =>
    obtain ⟨before, hbefore, rfl⟩ := h
    rw [List.append_nil] at hbefore
    rcases exists_first_eof tokens with ⟨ts, t, us, rfl, hts, ht⟩ | hall
    · rw [beforeEnd_append_eof hts ht] at hbefore
      rw [next_nil, endToken_append_eof hts ht]
      simp [Cursor.peek, ← hbefore]
    · rw [beforeEnd_of_ne_eof hall] at hbefore
      rw [next_nil, endToken_of_ne_eof hall]
      simp [Cursor.peek, hbefore]

theorem isAtEnd_of_at {p : Nat} {ts : List Token} (h : At tokens p ts) (d : Nat) :
    Cursor.isAtEnd tokens ⟨p, d⟩ = ts.isEmpty := by
  rw [Cursor.isAtEnd, peek_of_at h]
  cases ts with
  | nil => simp [next_nil, endToken_kind]
  | cons t ts =>
    rw [next_cons]
    simpa using h.kind_ne_eof

theorem check_of_at {p : Nat} {ts : List Token} (h : At tokens p ts) (d : Nat) (kind : Token.Kind) :
    Cursor.check tokens ⟨p, d⟩ kind = true ↔ ∃ t us, ts = t :: us ∧ t.kind = kind := by
  rw [Cursor.check, isAtEnd_of_at h, peek_of_at h]
  cases ts with
  | nil => simp
  | cons t ts =>
    rw [next_cons]
    simp

theorem modify_run (f : Cursor → Cursor) (c : Cursor) : (modify f : Descent PUnit).run c = pure ((), f c) := rfl

theorem advance_run {p : Nat} {t : Token} {ts : List Token} (h : At tokens p (t :: ts)) (d : Nat) :
    (advance tokens).run ⟨p, d⟩ = pure (t, ⟨p + 1, d⟩) := by
  rw [advance, run_bind_pure (modify_run _ _), isAtEnd_of_at h, previous, run_bind_pure rfl]
  simp only [List.isEmpty_cons, Bool.false_eq_true, if_false, h.getElem?]
  rfl

theorem matchAny_run {p : Nat} {ts : List Token} (h : At tokens p ts) (d : Nat) (kinds : List Token.Kind) :
    (∃ t us, ts = t :: us ∧ t.kind ∈ kinds ∧ (matchAny tokens kinds).run ⟨p, d⟩ = pure (some t, ⟨p + 1, d⟩)) ∨
      Stops kinds ts ∧ (matchAny tokens kinds).run ⟨p, d⟩ = pure (none, ⟨p, d⟩) := by
  rw [matchAny, run_bind_pure rfl]
  by_cases hany : kinds.any (Cursor.check tokens ⟨p, d⟩) = true
  · obtain ⟨kind, hkind, hcheck⟩ := List.any_eq_true.mp hany
    obtain ⟨t, us, rfl, rfl⟩ := (check_of_at h d kind).mp hcheck
    left
    refine ⟨t, us, rfl, hkind, ?_⟩
    rw [if_pos hany, run_bind_pure (advance_run h d)]
    rfl
  · right
    refine ⟨?_, by rw [if_neg hany]; rfl⟩
    intro t ht hkind
    obtain ⟨us, rfl⟩ := List.head?_eq_some_iff.mp ht
    exact hany (List.any_eq_true.mpr ⟨t.kind, hkind, (check_of_at h d t.kind).mpr ⟨t, us, rfl, rfl⟩⟩)

theorem consume_run {p : Nat} {ts : List Token} (h : At tokens p ts) (d : Nat) (kind : Token.Kind) (x : Expectation) :
    (∃ t us, ts = t :: us ∧ t.kind = kind ∧ (consume tokens kind x).run ⟨p, d⟩ = pure (t, ⟨p + 1, d⟩)) ∨
      Stops [kind] ts ∧ (consume tokens kind x).run ⟨p, d⟩ = throw (.refused ⟨x, next tokens ts⟩) := by
  rw [consume, run_bind_pure rfl]
  by_cases hcheck : Cursor.check tokens ⟨p, d⟩ kind = true
  · obtain ⟨t, us, rfl, rfl⟩ := (check_of_at h d kind).mp hcheck
    left
    refine ⟨t, us, rfl, rfl, ?_⟩
    rw [if_pos hcheck]
    exact advance_run h d
  · right
    constructor
    · intro t ht hkind
      obtain ⟨us, rfl⟩ := List.head?_eq_some_iff.mp ht
      exact hcheck ((check_of_at h d kind).mpr ⟨t, us, rfl, List.mem_singleton.mp hkind⟩)
    · rw [if_neg hcheck, run_bind_pure rfl, peek_of_at h]
      rfl

theorem nested_run {rule : Descent α} {p q d : Nat} {a : α} (hd : d < nestingLimit)
    (h : rule.run ⟨p, d + 1⟩ = pure (a, ⟨q, d + 1⟩)) (opener : Token) :
    (nested opener rule).run ⟨p, d⟩ = pure (a, ⟨q, d⟩) := by
  rw [nested, run_bind_pure rfl, if_neg (Nat.not_le.mpr hd), run_bind_pure (modify_run _ _), run_bind_pure h,
    run_bind_pure (modify_run _ _)]
  rfl

theorem nested_run_throw {rule : Descent α} {p d : Nat} {failure : Failure} (hd : d < nestingLimit)
    (h : rule.run ⟨p, d + 1⟩ = throw failure) (opener : Token) :
    (nested opener rule).run ⟨p, d⟩ = throw failure := by
  rw [nested, run_bind_pure rfl, if_neg (Nat.not_le.mpr hd), run_bind_pure (modify_run _ _), run_bind_throw h]

theorem nested_run_limit {d : Nat} (hd : nestingLimit ≤ d) (rule : Descent α) (opener : Token) (p : Nat) :
    (nested opener rule).run ⟨p, d⟩ = throw (.refused ⟨.shallowNesting, opener⟩) := by
  rw [nested, run_bind_pure rfl, if_pos hd]
  rfl

end Moves

section Agreement

variable {tokens : List Token}

def completes (tokens : List Token) (state : ParseState) (ts : List Token) : Except SyntaxError (Expr String) := do
  (← ts.foldlM ParseState.step state).finish (endToken tokens)

theorem parseTokens_eq_completes (tokens : List Token) :
    parseTokens tokens = completes tokens .start (beforeEnd tokens) := rfl

theorem completes_nil (tokens : List Token) (state : ParseState) :
    completes tokens state [] = state.finish (endToken tokens) := rfl

theorem completes_of_advance {state state' : ParseState} {t : Token} (h : state.Advance t state') (ts : List Token) :
    completes tokens state (t :: ts) = completes tokens state' ts := by
  rw [completes, List.foldlM_cons, ParseState.step_of_advance h]
  rfl

theorem completes_of_step_error {state : ParseState} {x : Expectation} {ts : List Token}
    (hstep : ∀ t ∈ ts.head?, state.step t = .error ⟨x, t⟩) (hfinish : ∀ t, state.finish t = .error ⟨x, t⟩) :
    completes tokens state ts = .error ⟨x, next tokens ts⟩ := by
  cases ts with
  | nil => exact hfinish (endToken tokens)
  | cons t ts =>
    rw [completes, List.foldlM_cons, hstep t rfl]
    rfl

theorem completes_limit {stack : List (Frame (Expr String))} {t : Token} (ht : t.kind.opens = true)
    (hd : nestingLimit ≤ Frame.depth stack) (ts : List Token) :
    completes tokens (.operand stack) (t :: ts) = .error ⟨.shallowNesting, t⟩ := by
  have hstep : ParseState.step (.operand stack) t = .error ⟨.shallowNesting, t⟩ := by
    cases hk : t.kind <;> rw [hk] at ht <;> cases ht <;> simp [ParseState.step, ParseState.enter, hk, Nat.not_lt.mpr hd]
  rw [completes, List.foldlM_cons, hstep]
  rfl

/-- The rule at the cursor and the stack of frames in the given state do the same with the tokens `ts`: both refuse
them, or both read an expression, and go on in the same way behind it. -/
inductive Agrees (tokens : List Token) (rule : Descent (Expr String)) (p d : Nat) (ts : List Token) (state : ParseState)
    (after : Expr String → ParseState) (stops : List Token.Kind) : Prop
  | read {a : Expr String} {q : Nat} {us : List Token} : rule.run ⟨p, d⟩ = pure (a, ⟨q, d⟩) → At tokens q us →
      us.length ≤ ts.length → Stops stops us → completes tokens state ts = completes tokens (after a) us →
      Agrees tokens rule p d ts state after stops
  | refused {e : SyntaxError} : rule.run ⟨p, d⟩ = throw (.refused e) → completes tokens state ts = .error e →
      Agrees tokens rule p d ts state after stops

namespace Agrees

variable {p d : Nat} {ts : List Token} {state : ParseState} {after : Expr String → ParseState}
  {stops : List Token.Kind}

theorem of_completes {rule : Descent (Expr String)} {state' : ParseState}
    (h : Agrees tokens rule p d ts state' after stops) (hstate : completes tokens state ts = completes tokens state' ts) :
    Agrees tokens rule p d ts state after stops := by
  cases h with
  | read hrun hat hle hstops hcompletes => exact .read hrun hat hle hstops (hstate.trans hcompletes)
  | refused hrun hcompletes => exact .refused hrun (hstate.trans hcompletes)

theorem of_run {β : Type} {x : Descent β} {b : β} {f : β → Descent (Expr String)} {q : Nat} {us : List Token}
    {state' : ParseState} (hx : x.run ⟨p, d⟩ = pure (b, ⟨q, d⟩))
    (hstate : completes tokens state ts = completes tokens state' us) (hle : us.length ≤ ts.length)
    (hf : Agrees tokens (f b) q d us state' after stops) : Agrees tokens (x >>= f) p d ts state after stops := by
  have hrun := run_bind_pure hx f
  cases hf with
  | read hrun' hat hle' hstops hcompletes =>
    exact .read (hrun.trans hrun') hat (Nat.le_trans hle' hle) hstops (hstate.trans hcompletes)
  | refused hrun' hcompletes => exact .refused (hrun.trans hrun') (hstate.trans hcompletes)

theorem bind {x : Descent (Expr String)} {f : Expr String → Descent (Expr String)} {after' : Expr String → ParseState}
    {stops' : List Token.Kind} (hx : Agrees tokens x p d ts state after stops)
    (hf : ∀ {a q us}, At tokens q us → us.length ≤ ts.length → Stops stops us →
      Agrees tokens (f a) q d us (after a) after' stops') :
    Agrees tokens (x >>= f) p d ts state after' stops' := by
  cases hx with
  | read hrun hat hle hstops hcompletes => exact of_run hrun hcompletes hle (hf hat hle hstops)
  | refused hrun hcompletes => exact .refused (run_bind_throw hrun f) hcompletes

theorem of_stay {β : Type} {x : Descent β} {b : β} {f : β → Descent (Expr String)}
    (hx : x.run ⟨p, d⟩ = pure (b, ⟨p, d⟩)) (hf : Agrees tokens (f b) p d ts state after stops) :
    Agrees tokens (x >>= f) p d ts state after stops :=
  of_run hx rfl (Nat.le_refl _) hf

theorem of_advance {β : Type} {x : Descent β} {b : β} {f : β → Descent (Expr String)} {t : Token} {us : List Token}
    {state' : ParseState} (hx : x.run ⟨p, d⟩ = pure (b, ⟨p + 1, d⟩)) (hstate : state.Advance t state')
    (hf : Agrees tokens (f b) (p + 1) d us state' after stops) :
    Agrees tokens (x >>= f) p d (t :: us) state after stops :=
  of_run hx (completes_of_advance hstate us) (Nat.le_succ _) hf

theorem of_pure {a : Expr String} (h : At tokens p ts) (hstops : Stops stops ts)
    (hstate : completes tokens state ts = completes tokens (after a) ts) :
    Agrees tokens (pure a) p d ts state after stops :=
  .read rfl h (Nat.le_refl _) hstops hstate

theorem consume {kind : Token.Kind} {x : Expectation} {f : Token → Descent (Expr String)} (h : At tokens p ts)
    {state' : Token → ParseState} (hadvance : ∀ t, t.kind = kind → state.Advance t (state' t))
    (hstep : ∀ t ∈ ts.head?, t.kind ≠ kind → state.step t = .error ⟨x, t⟩)
    (hfinish : ∀ t, state.finish t = .error ⟨x, t⟩)
    (hf : ∀ {t us}, At tokens (p + 1) us → Agrees tokens (f t) (p + 1) d us (state' t) after stops) :
    Agrees tokens (Descent.consume tokens kind x >>= f) p d ts state after stops := by
  rcases consume_run h d kind x with ⟨t, us, rfl, hk, hrun⟩ | ⟨hstops, hrun⟩
  · exact of_advance hrun (hadvance t hk) (hf h.tail)
  · refine .refused (run_bind_throw hrun f) (completes_of_step_error (fun t ht => ?_) hfinish)
    apply hstep t ht
    intro hk
    exact hstops t ht (List.mem_singleton.mpr hk)

theorem nested {rule : Descent (Expr String)} (hd : d < nestingLimit)
    (h : Agrees tokens rule p (d + 1) ts state after stops) (opener : Token) :
    Agrees tokens (Descent.nested opener rule) p d ts state after stops := by
  cases h with
  | read hrun hat hle hstops hcompletes => exact .read (nested_run hd hrun opener) hat hle hstops hcompletes
  | refused hrun hcompletes => exact .refused (nested_run_throw hd hrun opener) hcompletes

theorem of_limit {α β : Type} {x : Descent β} {b : β} {f : β → Descent (Expr String)} {rule : Descent α}
    {g : α → Descent (Expr String)} {t : Token} {us : List Token} {stack : List (Frame (Expr String))}
    (hx : x.run ⟨p, Frame.depth stack⟩ = pure (b, ⟨p + 1, Frame.depth stack⟩))
    (hf : f b = Descent.nested t rule >>= g) (ht : t.kind.opens = true) (hd : nestingLimit ≤ Frame.depth stack) :
    Agrees tokens (x >>= f) p (Frame.depth stack) (t :: us) (.operand stack) after stops := by
  refine .refused ?_ (completes_limit ht hd us)
  rw [run_bind_pure hx, hf]
  exact run_bind_throw (nested_run_limit hd rule t (p + 1)) g

end Agrees

-- A token is read after at most four rules that call one another. So four calls are enough for every token that is
-- left, and one more for each rule from the one at hand down to the last.
def UnaryAgrees (tokens : List Token) (length : Nat) : Prop :=
  ∀ {p n : Nat} {ts : List Token} (stack : List (Frame (Expr String))), At tokens p ts → ts.length ≤ length →
    4 * ts.length + 2 ≤ n →
    Agrees tokens (unary tokens n) p (Frame.depth stack) ts (.operand stack) (.after stack) []

theorem binaryRest_agrees {length : Nat} (hunary : UnaryAgrees tokens length) {p n : Nat} {ts : List Token}
    (h : At tokens p ts) (hlength : ts.length ≤ length) (hn : 4 * ts.length + 1 ≤ n)
    (stack : List (Frame (Expr String))) (a : Expr String) :
    Agrees tokens (binaryRest tokens n a) p (Frame.depth stack) ts (.operator stack a) (.operator stack)
      [.and, .or] := by
  induction n generalizing p ts a with
  | zero => omega
  | succ n ih =>
    rcases matchAny_run h (Frame.depth stack) [.and, .or] with ⟨t, us, rfl, hk, hrun⟩ | ⟨hstops, hrun⟩
    · obtain ⟨op, hop⟩ : ∃ op : Tight, t.kind = op.kind := by
        simp only [List.mem_cons, List.not_mem_nil, or_false] at hk
        exact hk.elim (fun hk => ⟨.and, hk⟩) (fun hk => ⟨.or, hk⟩)
      have hjoin (b : Expr String) : (if t.kind = .and then .and a b else .or a b) = op.join a b := by
        rw [hop]
        cases op <;> rfl
      rw [List.length_cons] at hlength hn
      rw [binaryRest]
      refine .of_advance hrun (.tight op hop) ?_
      have hright : Agrees tokens (unary tokens n) (p + 1) _ us _ _ [] :=
        hunary (.tight a op :: stack) h.tail (by omega) (by omega)
      rw [Frame.depth_tight] at hright
      refine hright.bind fun hat hle _ => ?_
      rw [hjoin]
      exact ih hat (by omega) (by omega) _
    · rw [binaryRest]
      exact .of_stay hrun (.of_pure h hstops rfl)

theorem binary_agrees {length : Nat} (hunary : UnaryAgrees tokens length) {p n : Nat} {ts : List Token}
    (h : At tokens p ts) (hlength : ts.length ≤ length) (hn : 4 * ts.length + 3 ≤ n)
    {stack : List (Frame (Expr String))} (hs : Frame.Settled stack) :
    Agrees tokens (binary tokens n) p (Frame.depth stack) ts (.operand stack) (.operator stack) [.and, .or] := by
  cases n with
  | zero => omega
  | succ n =>
    rw [binary]
    refine (hunary stack h hlength (by omega)).bind fun {a q us} hat hle _ => ?_
    have hafter : ParseState.after stack a = .operator stack a := by
      rw [ParseState.after, Frame.take_of_settled hs]
    rw [hafter]
    exact binaryRest_agrees hunary hat (by omega) (by omega) stack a

theorem missing_loose (a : Expr String) (op : Loose) (stack : List (Frame (Expr String))) :
    ParseState.missing (.loose a op :: stack) = ParseState.missing stack := rfl

theorem step_settle {stack : List (Frame (Expr String))} (hc : Frame.Closed stack) {op : Loose} {a b : Expr String}
    {t : Token} (ht : t.kind ∉ [.and, .or]) :
    ParseState.step (.operator (.loose a op :: stack) b) t = ParseState.step (.operator stack (op.join a b)) t := by
  have hsettle : Frame.settle (.loose a op :: stack) b = Frame.settle stack (op.join a b) := by
    rw [Frame.settle_of_closed hc]
    rfl
  have hclose : Frame.closeGroup? (.loose a op :: stack) b = Frame.closeGroup? stack (op.join a b) := by
    rw [Frame.closeGroup?, hsettle, Frame.closeGroup?]
  simp only [ParseState.step, hsettle, hclose, missing_loose]
  cases hk : t.kind <;> simp_all

theorem completes_settle {stack : List (Frame (Expr String))} (hc : Frame.Closed stack) {op : Loose} {a b : Expr String}
    {ts : List Token} (hstops : Stops [.and, .or] ts) :
    completes tokens (.operator (.loose a op :: stack) b) ts = completes tokens (.operator stack (op.join a b)) ts := by
  cases ts with
  | nil =>
    have hfinish : Frame.finish? (.loose a op :: stack) b = Frame.finish? stack (op.join a b) := by
      rw [Frame.finish?, Frame.finish?, Frame.settle_of_closed hc]
      rfl
    rw [completes_nil, completes_nil]
    simp only [ParseState.finish, hfinish, missing_loose]
  | cons t ts =>
    rw [completes, completes, List.foldlM_cons, List.foldlM_cons, step_settle hc (hstops t rfl)]

theorem implicationRest_agrees {length : Nat} (hunary : UnaryAgrees tokens length) {p n : Nat} {ts : List Token}
    (h : At tokens p ts) (hlength : ts.length ≤ length) (hn : 4 * ts.length + 1 ≤ n) (htight : Stops [.and, .or] ts)
    {stack : List (Frame (Expr String))} (hc : Frame.Closed stack) (a : Expr String) :
    Agrees tokens (implicationRest tokens n a) p (Frame.depth stack) ts (.operator stack a) (.operator stack)
      [.and, .or, .implies, .equivalent] := by
  induction n generalizing p ts a with
  | zero => omega
  | succ n ih =>
    rcases matchAny_run h (Frame.depth stack) [.implies, .equivalent] with ⟨t, us, rfl, hk, hrun⟩ | ⟨hstops, hrun⟩
    · obtain ⟨op, hop⟩ : ∃ op : Loose, t.kind = op.kind := by
        simp only [List.mem_cons, List.not_mem_nil, or_false] at hk
        exact hk.elim (fun hk => ⟨.imp, hk⟩) (fun hk => ⟨.iff, hk⟩)
      have hjoin (b : Expr String) : (if t.kind = .implies then .imp a b else .iff a b) = op.join a b := by
        rw [hop]
        cases op <;> rfl
      rw [List.length_cons] at hlength hn
      rw [implicationRest]
      refine .of_advance hrun (.loose op hop (Frame.settle_of_closed hc a)) ?_
      have hsettled : Frame.Settled (.loose a op :: stack) := .loose
      have hright : Agrees tokens (binary tokens n) (p + 1) _ us _ _ _ :=
        binary_agrees hunary h.tail (by omega) (by omega) hsettled
      rw [Frame.depth_loose] at hright
      refine hright.bind fun hat hle hstops => ?_
      -- the stack keeps the operator until it sees what follows, the descent joins at once
      rw [hjoin]
      exact (ih hat (by omega) (by omega) hstops _).of_completes (completes_settle hc hstops)
    · rw [implicationRest]
      exact .of_stay hrun (.of_pure h (htight.append hstops) rfl)

theorem implication_agrees {length : Nat} (hunary : UnaryAgrees tokens length) {p n : Nat} {ts : List Token}
    (h : At tokens p ts) (hlength : ts.length ≤ length) (hn : 4 * ts.length + 4 ≤ n)
    {stack : List (Frame (Expr String))} (hc : Frame.Closed stack) :
    Agrees tokens (implication tokens n) p (Frame.depth stack) ts (.operand stack) (.operator stack)
      [.and, .or, .implies, .equivalent] := by
  cases n with
  | zero => omega
  | succ n =>
    rw [implication]
    refine (binary_agrees hunary h hlength (by omega) hc.settled).bind fun hat hle hstops => ?_
    exact implicationRest_agrees hunary hat (by omega) (by omega) hstops hc _

theorem quantified_agrees {p d : Nat} {ts : List Token} (h : At tokens p ts) (stack : List (Frame (Expr String)))
    {t : Token} {q : Quantifier} (hq : t.kind = q.kind) :
    Agrees tokens (do
        let element ← consume tokens .identifier (.elementName t.lexeme)
        let _ ← consume tokens .memberOf .memberOf
        let set ← consume tokens .identifier .setName
        return if t.kind = .one then .one element.lexeme set.lexeme else .all element.lexeme set.lexeme)
      p d ts (.elementName stack q t.lexeme) (.after stack) [] := by
  have hover (x s : String) : (if t.kind = .one then Expr.one x s else .all x s) = q.over x s := by
    rw [hq]
    cases q <;> rfl
  refine .consume h (fun _ => .elementName) ?_ (fun _ => rfl) fun hat => ?_
  · intro u _ hu
    simp [ParseState.step, hu]
  refine .consume hat (fun _ => .membership) ?_ (fun _ => rfl) fun hat => ?_
  · intro u _ hu
    simp [ParseState.step, hu]
  refine .consume hat (fun _ => .setName) ?_ (fun _ => rfl) fun hat => ?_
  · intro u _ hu
    simp [ParseState.step, hu]
  rw [hover]
  exact .of_pure hat (stops_nil _) rfl

theorem step_operator_error {stack : List (Frame (Expr String))} {a : Expr String} {t : Token}
    (ht : t.kind ∉ [.and, .or, .implies, .equivalent])
    (hclose : t.kind = .rightParen → Frame.closeGroup? stack a = none) :
    ParseState.step (.operator stack a) t = .error ⟨ParseState.missing stack, t⟩ := by
  cases hk : t.kind <;> simp_all [ParseState.step]

theorem group_agrees {length : Nat} (hunary : UnaryAgrees tokens length) {p n : Nat} {ts : List Token}
    (h : At tokens p ts) (hlength : ts.length ≤ length) (hn : 4 * ts.length + 4 ≤ n)
    {stack : List (Frame (Expr String))} (hd : Frame.depth stack < nestingLimit) (t : Token) :
    Agrees tokens (do
        let a ← nested t (implication tokens n)
        let _ ← consume tokens .rightParen .rightParen
        return a)
      p (Frame.depth stack) ts (.operand (.group :: stack)) (.after stack) [] := by
  have hclosed : Frame.Closed (.group :: stack) := .group
  have hinner : Agrees tokens (implication tokens n) p _ ts _ _ _ := implication_agrees hunary h hlength hn hclosed
  rw [Frame.depth_group] at hinner
  refine (hinner.nested hd t).bind fun {a q us} hat _ hstops => ?_
  have hadvance (u : Token) (hu : u.kind = .rightParen) :
      ParseState.Advance (.operator (.group :: stack) a) u (.after stack a) := .close hu rfl
  refine .consume hat hadvance ?_ (fun _ => rfl) fun hat => ?_
  · intro u hhead hu
    exact step_operator_error (hstops u hhead) fun hk => absurd hk hu
  · exact .of_pure hat (stops_nil _) rfl

theorem primary_agrees {length : Nat} (hunary : ∀ m < length, UnaryAgrees tokens m) {p n : Nat} {ts : List Token}
    (h : At tokens p ts) (hlength : ts.length ≤ length) (hn : 4 * ts.length + 1 ≤ n) (hnot : Stops [.not] ts)
    (stack : List (Frame (Expr String))) :
    Agrees tokens (primary tokens n) p (Frame.depth stack) ts (.operand stack) (.after stack) [] := by
  cases n with
  | zero => omega
  | succ n =>
    rw [primary]
    rcases matchAny_run h (Frame.depth stack) [.identifier] with ⟨t, us, rfl, hk, hrun⟩ | ⟨hname, hrun⟩
    · refine .of_advance hrun (.identifier (List.mem_singleton.mp hk)) ?_
      exact .of_pure h.tail (stops_nil _) rfl
    refine .of_stay hrun ?_
    rcases matchAny_run h (Frame.depth stack) [.one, .all] with ⟨t, us, rfl, hk, hrun⟩ | ⟨hquantifier, hrun⟩
    · obtain ⟨q, hq⟩ : ∃ q : Quantifier, t.kind = q.kind := by
        simp only [List.mem_cons, List.not_mem_nil, or_false] at hk
        exact hk.elim (fun hk => ⟨.one, hk⟩) (fun hk => ⟨.all, hk⟩)
      exact .of_advance hrun (.quantifier q hq) (quantified_agrees h.tail stack hq)
    refine .of_stay hrun ?_
    rcases matchAny_run h (Frame.depth stack) [.leftParen] with ⟨t, us, rfl, hk, hrun⟩ | ⟨hparen, hrun⟩
    · have hk := List.mem_singleton.mp hk
      rw [List.length_cons] at hlength hn
      by_cases hd : Frame.depth stack < nestingLimit
      · refine .of_advance hrun (.group hk hd) ?_
        exact group_agrees (hunary us.length (by omega)) h.tail (Nat.le_refl _) (by omega) hd t
      · exact .of_limit hrun rfl (by rw [hk]; rfl) (Nat.not_lt.mp hd)
    refine .of_stay hrun (.refused ?_ (completes_of_step_error ?_ fun _ => rfl))
    · rw [run_bind_pure rfl, peek_of_at h]
      rfl
    · intro t ht
      have hnone := (((hnot.append hname).append hquantifier).append hparen) t ht
      cases hk : t.kind <;> simp_all [ParseState.step]

theorem unaryAgrees_of_shorter {length : Nat} (hunary : ∀ m < length, UnaryAgrees tokens m) :
    UnaryAgrees tokens length := by
  intro p n ts stack h hlength hn
  cases n with
  | zero => omega
  | succ n =>
    rw [unary]
    rcases matchAny_run h (Frame.depth stack) [.not] with ⟨t, us, rfl, hk, hrun⟩ | ⟨hnot, hrun⟩
    · have hk := List.mem_singleton.mp hk
      rw [List.length_cons] at hlength hn
      by_cases hd : Frame.depth stack < nestingLimit
      · refine .of_advance hrun (.negation hk hd) ?_
        have hinner : Agrees tokens (unary tokens n) (p + 1) _ us _ _ [] :=
          hunary us.length (by omega) (.negation :: stack) h.tail (Nat.le_refl _) (by omega)
        rw [Frame.depth_negation] at hinner
        exact (hinner.nested hd t).bind fun hat _ _ => .of_pure hat (stops_nil _) rfl
      · exact .of_limit hrun rfl (by rw [hk]; rfl) (Nat.not_lt.mp hd)
    · exact .of_stay hrun (primary_agrees hunary h hlength (by omega) hnot stack)

theorem unary_agrees (tokens : List Token) (length : Nat) : UnaryAgrees tokens length := by
  -- below an operand there is only what stands behind a negation or a parenthesis, which is shorter
  induction length using Nat.strongRecOn with
  | ind length ih => exact unaryAgrees_of_shorter ih

theorem completes_operator_error {a : Expr String} {t : Token} {ts : List Token}
    (h : t.kind ∉ [.and, .or, .implies, .equivalent]) :
    completes tokens (.operator [] a) (t :: ts) = .error ⟨.endOfExpression, t⟩ := by
  rw [completes, List.foldlM_cons, step_operator_error h fun _ => rfl]
  rfl

theorem whole_run (tokens : List Token) {n : Nat} (hn : 4 * tokens.length + 4 ≤ n) :
    (∃ a c, parseTokens tokens = .ok a ∧ (whole tokens n).run ⟨0, 0⟩ = pure (a, c)) ∨
      ∃ e, parseTokens tokens = .error e ∧ (whole tokens n).run ⟨0, 0⟩ = throw (.refused e) := by
  have hat : At tokens 0 (beforeEnd tokens) := ⟨[], rfl, rfl⟩
  have hlength := hat.length_le
  have hagrees : Agrees tokens (implication tokens n) 0 0 (beforeEnd tokens) .start (.operator []) _ :=
    implication_agrees (unary_agrees tokens _) hat (Nat.le_refl _) (by omega) .nil
  rw [parseTokens_eq_completes, whole]
  cases hagrees with
  | refused hrun hcompletes => exact .inr ⟨_, hcompletes, run_bind_throw hrun _⟩
  | @read a q us hrun hat' _ hstops hcompletes =>
    rw [hcompletes, run_bind_pure hrun, run_bind_pure rfl, isAtEnd_of_at hat']
    cases us with
    | nil => exact .inl ⟨a, _, rfl, rfl⟩
    | cons t us =>
      right
      refine ⟨_, completes_operator_error (hstops t rfl), ?_⟩
      rw [List.isEmpty_cons, if_neg Bool.false_ne_true, run_bind_pure rfl, peek_of_at hat']
      rfl

theorem parse_eq (tokens : List Token) {n : Nat} (hn : 4 * tokens.length + 4 ≤ n) :
    parse tokens n = some ((parseTokens tokens).mapError .refused) := by
  have hparse : parse tokens n = (Prod.fst <$> (whole tokens n).run ⟨0, 0⟩).run := rfl
  rcases whole_run tokens hn with ⟨a, c, hok, hrun⟩ | ⟨e, herror, hrun⟩
  · rw [hparse, hrun, hok]
    rfl
  · rw [hparse, hrun, herror]
    rfl

end Agreement

end Descent

theorem parseTokens_congr {tokens tokens' : List Token} (hbefore : beforeEnd tokens = beforeEnd tokens')
    (hend : endToken tokens = endToken tokens') : parseTokens tokens = parseTokens tokens' := by
  rw [parseTokens, hbefore, hend, parseTokens]

theorem parseTokens_of_any_list (tokens : List Token) :
    (∀ n, 4 * tokens.length + 4 ≤ n → Descent.parse tokens n = some ((parseTokens tokens).mapError .refused)) ∧
    (∀ ts t us, tokens = ts ++ t :: us → (∀ u ∈ ts, u.kind ≠ .eof) → t.kind = .eof →
      parseTokens tokens = parseTokens (ts ++ [t])) ∧
    ((∀ t ∈ tokens, t.kind ≠ .eof) → parseTokens tokens =
      parseTokens (tokens ++ [⟨.eof, "", .empty ((tokens.getLast?.map fun t => t.span.stop).getD 0)⟩])) := by
  refine ⟨fun n hn => Descent.parse_eq tokens hn, ?_, ?_⟩
  · rintro ts t us rfl hts ht
    apply parseTokens_congr
    · rw [beforeEnd_append_eof hts ht, beforeEnd_append_end hts ht]
    · rw [endToken_append_eof hts ht, endToken_append_eof hts ht]
  · intro hall
    apply parseTokens_congr
    · rw [beforeEnd_of_ne_eof hall, beforeEnd_append_end hall rfl]
    · rw [endToken_of_ne_eof hall, endToken_append_eof hall rfl]
      rfl

theorem parseTokens_of_any_list_by_hand :
    let a : Token := ⟨.identifier, "a", ⟨0, 1⟩⟩
    let op : Token := ⟨.and, "&", ⟨2, 3⟩⟩
    let stop : Token := ⟨.eof, "", ⟨7, 9⟩⟩
    parseTokens [a, op, stop, a] = parseTokens [a, op, stop] ∧
      parseTokens [a, op] = parseTokens [a, op, ⟨.eof, "", .empty 3⟩] ∧
      Descent.parse [] 4 = some (.error (.refused ⟨.expression, .endAt 0⟩)) := by
  intro a op stop
  have hkinds : ∀ t ∈ [a, op], t.kind ≠ .eof := by
    simp [a, op]
  refine ⟨(parseTokens_of_any_list _).2.1 [a, op] stop [a] rfl hkinds rfl, ?_, ?_⟩
  · exact (parseTokens_of_any_list [a, op]).2.2 hkinds
  · exact (parseTokens_of_any_list []).1 4 (Nat.le_refl _)

end PseudoBoolean
