import PseudoBoolean.Expr.Parse

namespace PseudoBoolean

def Tight.kind : Tight → Token.Kind
  | .and => .and
  | .or => .or

def Loose.kind : Loose → Token.Kind
  | .imp => .implies
  | .iff => .equivalent

def Quantifier.kind : Quantifier → Token.Kind
  | .one => .one
  | .all => .all

namespace Frame

variable {φ : Type}

@[simp] theorem depth_nil : depth ([] : List (Frame φ)) = 0 := rfl

@[simp] theorem depth_negation (stack : List (Frame φ)) : depth (.negation :: stack) = depth stack + 1 :=
  List.countP_cons_of_pos rfl

@[simp] theorem depth_group (stack : List (Frame φ)) : depth (.group :: stack) = depth stack + 1 :=
  List.countP_cons_of_pos rfl

@[simp] theorem depth_tight (a : φ) (op : Tight) (stack : List (Frame φ)) :
    depth (.tight a op :: stack) = depth stack :=
  List.countP_cons_of_neg Bool.false_ne_true

@[simp] theorem depth_loose (a : φ) (op : Loose) (stack : List (Frame φ)) :
    depth (.loose a op :: stack) = depth stack :=
  List.countP_cons_of_neg Bool.false_ne_true

inductive Settled : List (Frame φ) → Prop
  | nil : Settled []
  | group {stack} : Settled (.group :: stack)
  | loose {a op stack} : Settled (.loose a op :: stack)

/-- Nothing at all waits for the operand in hand, up to the parenthesis it stands in. -/
inductive Closed : List (Frame φ) → Prop
  | nil : Closed []
  | group {stack} : Closed (.group :: stack)

theorem Closed.settled {stack : List (Frame φ)} (h : Closed stack) : Settled stack := by
  cases h
  · exact .nil
  · exact .group

variable [Formula φ]

theorem take_of_settled {stack : List (Frame φ)} (h : Settled stack) (a : φ) :
    take stack a = (stack, a) := by
  cases h <;> rfl

theorem settle_of_closed {stack : List (Frame φ)} (h : Closed stack) (a : φ) :
    settle stack a = (stack, a) := by
  cases h <;> rfl

theorem closeGroup?_eq_some {stack : List (Frame φ)} {a : φ}
    {p : List (Frame φ) × φ} :
    closeGroup? stack a = some p ↔ ∃ rest e, settle stack a = (.group :: rest, e) ∧ take rest e = p := by
  unfold closeGroup?
  constructor
  · intro h
    split at h
    · exact ⟨_, _, ‹_›, Option.some.inj h⟩
    · cases h
  · rintro ⟨rest, e, hs, rfl⟩
    rw [hs]

theorem depth_take_le (stack : List (Frame φ)) (a : φ) :
    depth (take stack a).1 ≤ depth stack := by
  fun_induction take stack a with
  | case1 a stack ih => simpa using Nat.le_succ_of_le ih
  | case2 => simp
  | case3 => exact Nat.le_refl _

theorem depth_settle (stack : List (Frame φ)) (a : φ) :
    depth (settle stack a).1 = depth stack := by
  fun_cases settle stack a <;> simp

end Frame

namespace ParseState

@[simp] def stack : ParseState → List (Frame (Expr String))
  | .operand stack | .elementName stack _ _ | .membership stack _ _ | .setName stack _ _ | .operator stack _ => stack

inductive Advance : ParseState → Token → ParseState → Prop
  | identifier {stack t} : t.kind = .identifier → Advance (.operand stack) t (after stack (.var t.lexeme))
  | quantifier {stack t} (q : Quantifier) : t.kind = q.kind → Advance (.operand stack) t (.elementName stack q t.lexeme)
  | negation {stack t} : t.kind = .not → Frame.depth stack < nestingLimit →
      Advance (.operand stack) t (.operand (.negation :: stack))
  | group {stack t} : t.kind = .leftParen → Frame.depth stack < nestingLimit →
      Advance (.operand stack) t (.operand (.group :: stack))
  | elementName {stack q word t} : t.kind = .identifier →
      Advance (.elementName stack q word) t (.membership stack q t.lexeme)
  | membership {stack q x t} : t.kind = .memberOf → Advance (.membership stack q x) t (.setName stack q x)
  | setName {stack q x t} : t.kind = .identifier → Advance (.setName stack q x) t (after stack (q.over x t.lexeme))
  | tight {stack a t} (op : Tight) : t.kind = op.kind →
      Advance (.operator stack a) t (.operand (.tight a op :: stack))
  | loose {stack a rest chain t} (op : Loose) : t.kind = op.kind → Frame.settle stack a = (rest, chain) →
      Advance (.operator stack a) t (.operand (.loose chain op :: rest))
  | close {stack a rest e t} : t.kind = .rightParen → Frame.settle stack a = (.group :: rest, e) →
      Advance (.operator stack a) t (after rest e)

theorem advance_of_step {state state' : ParseState} {t : Token} (h : state.step t = .ok state') :
    Advance state t state' := by
  cases state with
  | operand stack =>
    cases hk : t.kind <;> simp only [step, enter, hk, reduceCtorEq] at h
    case identifier => cases h; exact .identifier hk
    case one => cases h; exact .quantifier .one hk
    case all => cases h; exact .quantifier .all hk
    case not =>
      split at h <;> cases h
      exact .negation hk ‹_›
    case leftParen =>
      split at h <;> cases h
      exact .group hk ‹_›
  | elementName stack q word =>
    simp only [step] at h
    split at h <;> cases h
    exact .elementName ‹_›
  | membership stack q x =>
    simp only [step] at h
    split at h <;> cases h
    exact .membership ‹_›
  | setName stack q x =>
    simp only [step] at h
    split at h <;> cases h
    exact .setName ‹_›
  | operator stack a =>
    cases hk : t.kind <;> simp only [step, hk, reduceCtorEq] at h
    case and => cases h; exact .tight .and hk
    case or => cases h; exact .tight .or hk
    case implies => cases h; exact .loose .imp hk rfl
    case equivalent => cases h; exact .loose .iff hk rfl
    case rightParen =>
      split at h
      next hc =>
        obtain ⟨rest, e, hs, ht⟩ := Frame.closeGroup?_eq_some.mp hc
        have hafter : after rest e = state' := by
          simpa [after, ht] using h
        exact hafter ▸ .close hk hs
      · cases h

theorem step_of_advance {state state' : ParseState} {t : Token} (h : Advance state t state') :
    state.step t = .ok state' := by
  cases h with
  | identifier hk => simp [step, hk]
  | quantifier q hk => cases q <;> simp [step, hk, Quantifier.kind]
  | negation hk hd | group hk hd => simp [step, enter, hk, hd]
  | elementName hk | membership hk | setName hk => simp [step, hk]
  | tight op hk => cases op <;> simp [step, hk, Tight.kind]
  | loose op hk hs => cases op <;> simp [step, hk, hs, Loose.kind]
  | close hk hs => simp [step, hk, hs, Frame.closeGroup?, after]

theorem depth_after_le (stack : List (Frame (Expr String))) (a : Expr String) :
    Frame.depth (after stack a).stack ≤ Frame.depth stack := Frame.depth_take_le stack a

theorem Advance.depth_le {state state' : ParseState} {t : Token} (h : Advance state t state')
    (hd : Frame.depth state.stack ≤ nestingLimit) : Frame.depth state'.stack ≤ nestingLimit := by
  cases h with
  | negation _ hlt | group _ hlt => simpa [Nat.succ_le_iff] using hlt
  | identifier | setName => exact Nat.le_trans (depth_after_le _ _) hd
  | quantifier | elementName | membership | tight => simpa using hd
  | @loose stack a rest chain _ _ _ hs =>
    have hsettle := Frame.depth_settle stack a
    rw [hs] at hsettle
    simpa [hsettle] using hd
  | @close stack a rest e _ _ hs =>
    have hsettle := Frame.depth_settle stack a
    rw [hs, Frame.depth_group] at hsettle
    have hafter := depth_after_le rest e
    simp only [ParseState.stack] at hd
    omega

theorem step_iff_advance {state state' : ParseState} {t : Token} :
    state.step t = .ok state' ↔ Advance state t state' := ⟨advance_of_step, step_of_advance⟩

def Runs (state : ParseState) (tokens : List Token) (state' : ParseState) : Prop :=
  tokens.foldlM step state = .ok state'

theorem runs_nil {state state' : ParseState} : Runs state [] state' ↔ state = state' := by
  simp [Runs, pure, Except.pure]

theorem runs_cons {state state' : ParseState} {t : Token} {tokens : List Token} :
    Runs state (t :: tokens) state' ↔ ∃ next, Advance state t next ∧ Runs next tokens state' := by
  simp only [Runs, List.foldlM_cons, ← step_iff_advance]
  cases state.step t <;> simp [bind, Except.bind]

theorem Runs.cons {state next state' : ParseState} {t : Token} {tokens : List Token} (h : Advance state t next)
    (hr : Runs next tokens state') : Runs state (t :: tokens) state' := runs_cons.mpr ⟨next, h, hr⟩

theorem Runs.single {state state' : ParseState} {t : Token} (h : Advance state t state') : Runs state [t] state' :=
  .cons h (runs_nil.mpr rfl)

theorem Runs.append {state next state' : ParseState} {ts us : List Token} (h : Runs state ts next)
    (hr : Runs next us state') : Runs state (ts ++ us) state' := by
  unfold Runs at h
  rw [Runs, List.foldlM_append, h]
  exact hr

theorem Runs.depth_le {state state' : ParseState} {ts : List Token} (h : Runs state ts state')
    (hd : Frame.depth state.stack ≤ nestingLimit) : Frame.depth state'.stack ≤ nestingLimit := by
  induction ts generalizing state with
  | nil => exact runs_nil.mp h ▸ hd
  | cons t ts ih =>
    obtain ⟨next, hadvance, hrest⟩ := runs_cons.mp h
    exact ih hrest (hadvance.depth_le hd)

def Overflows (state : ParseState) (tokens : List Token) : Prop :=
  ∃ t, tokens.foldlM step state = .error ⟨.shallowNesting, t⟩

theorem overflows_of_depth {stack : List (Frame (Expr String))} {t : Token}
    (ht : t.kind = .not ∨ t.kind = .leftParen) (hd : nestingLimit ≤ Frame.depth stack) (tokens : List Token) :
    Overflows (.operand stack) (t :: tokens) := by
  have hstep : step (.operand stack) t = .error ⟨.shallowNesting, t⟩ := by
    rcases ht with ht | ht <;> simp [step, enter, ht, Nat.not_lt.mpr hd]
  refine ⟨t, ?_⟩
  rw [List.foldlM_cons, hstep]
  rfl

theorem Overflows.append {state : ParseState} {ts : List Token} (h : Overflows state ts) (us : List Token) :
    Overflows state (ts ++ us) := by
  obtain ⟨t, h⟩ := h
  refine ⟨t, ?_⟩
  rw [List.foldlM_append, h]
  rfl

theorem Runs.overflows {state next : ParseState} {ts us : List Token} (h : Runs state ts next)
    (ho : Overflows next us) : Overflows state (ts ++ us) := by
  obtain ⟨t, ho⟩ := ho
  unfold Runs at h
  refine ⟨t, ?_⟩
  rw [List.foldlM_append, h]
  exact ho

end ParseState

end PseudoBoolean
