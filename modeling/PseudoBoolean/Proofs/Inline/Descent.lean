import PseudoBoolean.Inline.Reader
import PseudoBoolean.Proofs.Parse.Descent
import PseudoBoolean.Proofs.RoundTrip

/-!
Reading inline expressions by recursive descent. What stands in brackets is one piece of the input and is read as an
input of its own. If an expression ends before its parenthesis does, the rest is passed over, and the whole is refused
when all of it has been read. The reader with a stack of frames, to which brackets are tokens, gives the same answers.
-/

namespace PseudoBoolean.Inline

inductive Stream
  | nil
  | word (text : String) (rest : Stream)
  | literal (text : String) (rest : Stream)
  | sign (text : String) (rest : Stream)
  | other (rest : Stream)
  | group (bracket : Bracket) (content rest : Stream)

namespace Stream

def isEmpty : Stream → Bool
  | nil => true
  | _ => false

def tokens : Stream → List Token
  | nil => []
  | word text rest => .word text :: rest.tokens
  | literal text rest => .literal text :: rest.tokens
  | sign text rest => .sign text :: rest.tokens
  | other rest => .other :: rest.tokens
  | group bracket content rest => .opening bracket :: (content.tokens ++ .closing bracket :: rest.tokens)

def tight? : Stream → Option ((Builder → Builder → Builder) × Stream)
  | sign "&" rest => some (.and, rest)
  | sign "|" rest => some (.or, rest)
  | _ => none

def loose? : Stream → Option ((Builder → Builder → Builder) × Stream)
  | sign "->" rest => some (.imp, rest)
  | sign "==" rest => some (.iff, rest)
  | _ => none

end Stream

structure Input where
  rest : Stream
  leftOver : Bool

/-- A reader of an input. It gives no answer if it has to go deeper than it may. -/
abbrev Descent (α : Type) : Type := StateT Input (ExceptT Error Option) α

namespace Descent

def advance (rest : Stream) : Descent Unit := modify fun i => { i with rest }

def identifier : Descent String := do
  match (← get).rest with
  | .word text rest =>
    if isReserved text then throw .syntactic
    advance rest
    return text
  | _ => throw .syntactic

def literal : Descent String := do
  match (← get).rest with
  | .literal text rest =>
    advance rest
    return text
  | _ => throw .syntactic

def membership : Descent Unit := do
  match (← get).rest with
  | .word "in" rest => advance rest
  | _ => if (← identifier) ≠ "of" then throw .membership

def constructor? : String → Option (String → String → Builder)
  | "one" | "any" => some .one
  | "all" => some .all
  | _ => none

def quantified : Descent Builder := do
  match constructor? (← identifier) with
  | some make =>
    let element ← literal
    membership
    return make element (← literal)
  | none => throw .quantifier

def parenthesized {α : Type} (content rest : Stream) (rule : Descent α) : Descent α := do
  advance content
  let a ← rule
  modify fun i => ⟨rest, i.leftOver || !i.rest.isEmpty⟩
  return a

def unanswered {α : Type} : Descent α := liftM (none : Option α)

mutual

def implication : Nat → Descent Builder
  | 0 => unanswered
  | n + 1 => do implicationRest n (← binary n)

def implicationRest : Nat → Builder → Descent Builder
  | 0, _ => unanswered
  | n + 1, a => do
    match (← get).rest.loose? with
    | some (join, rest) =>
      advance rest
      implicationRest n (join a (← binary n))
    | none => return a

def binary : Nat → Descent Builder
  | 0 => unanswered
  | n + 1 => do binaryRest n (← unary n)

def binaryRest : Nat → Builder → Descent Builder
  | 0, _ => unanswered
  | n + 1, a => do
    match (← get).rest.tight? with
    | some (join, rest) =>
      advance rest
      binaryRest n (join a (← unary n))
    | none => return a

def unary : Nat → Descent Builder
  | 0 => unanswered
  | n + 1 => do
    match (← get).rest with
    | .sign "!" rest =>
      advance rest
      return .not (← unary n)
    | _ => primary n

def primary : Nat → Descent Builder
  | 0 => unanswered
  | n + 1 => do
    match (← get).rest with
    | .group .round content rest => parenthesized content rest (implication n)
    | .literal _ _ => return .atom (← literal)
    | .word _ (.literal _ _) => quantified
    | _ => return .variable (← identifier)

end

def whole (calls : Nat) : Descent Builder := do
  let a ← implication calls
  let i ← get
  if i.leftOver || !i.rest.isEmpty then throw .syntactic else return a

def parse (calls : Nat) (s : Stream) : Option (Except Error Builder) := ((whole calls).run' ⟨s, false⟩).run

end Descent

section Machine

theorem Stream.tight?_eq_some {s rest : Stream} {join : Builder → Builder → Builder}
    (h : s.tight? = some (join, rest)) :
    ∃ op : Tight, s = .sign (Connective.tight op).sign rest ∧ ∀ a b, join a b = op.join a b := by
  unfold tight? at h
  split at h
  · cases h
    exact ⟨.and, rfl, fun _ _ => rfl⟩
  · cases h
    exact ⟨.or, rfl, fun _ _ => rfl⟩
  · cases h

theorem Stream.loose?_eq_some {s rest : Stream} {join : Builder → Builder → Builder}
    (h : s.loose? = some (join, rest)) :
    ∃ op : Loose, s = .sign (Connective.loose op).sign rest ∧ ∀ a b, join a b = op.join a b := by
  unfold loose? at h
  split at h
  · cases h
    exact ⟨.imp, rfl, fun _ _ => rfl⟩
  · cases h
    exact ⟨.iff, rfl, fun _ _ => rfl⟩
  · cases h

def completes (r : Reader) (ts : List Token) : Except Error Builder := do (← ts.foldlM Reader.step r).finish

theorem completes_of_step {r r' : Reader} {t : Token} (h : r.step t = .ok r') (ts : List Token) :
    completes r (t :: ts) = completes r' ts := by
  rw [completes, List.foldlM_cons, h]
  rfl

theorem completes_of_step_error {r : Reader} {t : Token} {e : Error} (h : r.step t = .error e) (ts : List Token) :
    completes r (t :: ts) = .error e := by
  rw [completes, List.foldlM_cons, h]
  rfl

theorem completes_passing (s : Stream) (stack : List (Frame Builder)) (a : Builder) (opened : Nat) (f : Bool)
    (ts : List Token) :
    completes ⟨.passing stack a opened, f⟩ (s.tokens ++ ts) = completes ⟨.passing stack a opened, f⟩ ts := by
  induction s generalizing opened ts with
  | nil => rfl
  | word text rest ih | literal text rest ih | sign text rest ih | other rest ih =>
    rw [Stream.tokens, List.cons_append, completes_of_step rfl, ih]
  | group bracket content rest ihc ihr =>
    rw [Stream.tokens, List.cons_append, List.append_assoc, List.cons_append, completes_of_step rfl, ihc,
      completes_of_step rfl, ihr]

theorem step_tight (stack : List (Frame Builder)) (a : Builder) (f : Bool) (op : Tight) :
    Reader.step ⟨.operator stack a, f⟩ (.sign (Connective.tight op).sign) =
      .ok ⟨.operand (.tight a op :: stack), f⟩ := by
  cases op <;> rfl

theorem step_loose {stack rest : List (Frame Builder)} {a chain : Builder} (h : Frame.settle stack a = (rest, chain))
    (f : Bool) (op : Loose) :
    Reader.step ⟨.operator stack a, f⟩ (.sign (Connective.loose op).sign) =
      .ok ⟨.operand (.loose chain op :: rest), f⟩ := by
  cases op <;> simp [Reader.step, Reader.stepOperator, Connective.sign, h]

/-- What follows an operand of `stack` beyond the input at hand: nothing, or the end of a parenthesis that is open. -/
inductive Ends (stack : List (Frame Builder)) : List Token → Prop
  | nil : Ends stack []
  | closing {b : Bracket} {ts : List Token} :
      (∀ a, ∃ p, Frame.closeGroup? (Frame.take stack a).1 (Frame.take stack a).2 = some p) → Ends stack (.closing b :: ts)

namespace Ends

variable {stack : List (Frame Builder)} {ts : List Token}

theorem negation (h : Ends stack ts) : Ends (.negation :: stack) ts := by
  cases h with
  | nil => exact .nil
  | closing h => exact .closing fun a => h _

theorem tight (h : Ends stack ts) (hs : Frame.Settled stack) (a : Builder) (op : Tight) :
    Ends (.tight a op :: stack) ts := by
  cases h with
  | nil => exact .nil
  | closing h =>
    refine .closing fun b => ?_
    have hclose := h (op.join a b)
    rwa [Frame.take_of_settled hs] at hclose

theorem loose (h : Ends stack ts) (hc : Frame.Closed stack) (a : Builder) (op : Loose) :
    Ends (.loose a op :: stack) ts := by
  cases h with
  | nil => exact .nil
  | closing h =>
    refine .closing fun b => ?_
    have hclose := h (op.join a b)
    rw [Frame.take_of_settled hc.settled, Frame.closeGroup?, Frame.settle_of_closed hc] at hclose
    exact hclose

theorem group (stack : List (Frame Builder)) (b : Bracket) (ts : List Token) :
    Ends (.group :: stack) (.closing b :: ts) :=
  .closing fun _ => ⟨_, rfl⟩

end Ends

section

variable {stack : List (Frame Builder)} {a : Builder} {f : Bool} {ts : List Token}

theorem completes_close {p : List (Frame Builder) × Builder} (h : Frame.closeGroup? stack a = some p) (b : Bracket) :
    completes ⟨.operator stack a, f⟩ (.closing b :: ts) = completes ⟨.operator p.1 p.2, f⟩ ts ∧
      completes ⟨.passing stack a 0, f⟩ (.closing b :: ts) = completes ⟨.operator p.1 p.2, f⟩ ts := by
  have hclose (state : State) : Reader.closeGroup ⟨state, f⟩ stack a = ⟨.operator p.1 p.2, f⟩ := by
    rw [Reader.closeGroup, h]
  have hoperator : Reader.step ⟨.operator stack a, f⟩ (.closing b) = .ok _ := congrArg Except.ok (hclose _)
  have hpassing : Reader.step ⟨.passing stack a 0, f⟩ (.closing b) = .ok _ := congrArg Except.ok (hclose _)
  exact ⟨completes_of_step hoperator ts, completes_of_step hpassing ts⟩

theorem completes_leftOver {s : Stream} (htight : s.tight? = none) (hloose : s.loose? = none) (hs : s.isEmpty = false) :
    completes ⟨.operator stack a, f⟩ (s.tokens ++ ts) = completes ⟨.passing stack a 0, true⟩ ts := by
  cases s with
  | nil => cases hs
  | word text rest | literal text rest | other rest =>
    rw [Stream.tokens, List.cons_append, completes_of_step rfl]
    exact completes_passing rest stack a 0 true ts
  | sign text rest =>
    have hstep : Reader.step ⟨.operator stack a, f⟩ (.sign text) = .ok ⟨.passing stack a 0, true⟩ := by
      simp only [Reader.step, Reader.stepOperator]
      split
      case h_1 heq | h_2 heq =>
        cases heq
        cases htight
      case h_3 heq | h_4 heq =>
        cases heq
        cases hloose
      case h_5 heq => cases heq
      case h_6 => rfl
    rw [Stream.tokens, List.cons_append, completes_of_step hstep]
    exact completes_passing rest stack a 0 true ts
  | group bracket content rest =>
    have hstep : Reader.step ⟨.operator stack a, f⟩ (.opening bracket) = .ok ⟨.passing stack a 1, true⟩ := rfl
    rw [Stream.tokens, List.cons_append, List.append_assoc, List.cons_append, completes_of_step hstep,
      completes_passing content, completes_of_step rfl]
    exact completes_passing rest stack a 0 true ts

theorem completes_leave {s : Stream} (htight : s.tight? = none) (hloose : s.loose? = none)
    {p : List (Frame Builder) × Builder} (hclose : Frame.closeGroup? stack a = some p) (b : Bracket) :
    completes ⟨.operator stack a, f⟩ (s.tokens ++ .closing b :: ts) =
      completes ⟨.operator p.1 p.2, f || !s.isEmpty⟩ ts := by
  cases hs : s.isEmpty with
  | true =>
    cases s <;> cases hs
    rw [Bool.not_true, Bool.or_false]
    exact (completes_close hclose b).1
  | false =>
    rw [Bool.not_false, Bool.or_true, completes_leftOver htight hloose hs]
    exact (completes_close hclose b).2

theorem completes_stop {s : Stream} (htight : s.tight? = none) (hloose : s.loose? = none) :
    completes ⟨.operator stack a, f⟩ (s.tokens ++ []) =
      if s.isEmpty then (⟨.operator stack a, f⟩ : Reader).finish else .error .syntactic := by
  cases hs : s.isEmpty with
  | true => cases s <;> cases hs; rfl
  | false => rw [completes_leftOver htight hloose hs]; rfl

theorem completes_congr {s : Stream} {stack' : List (Frame Builder)} {a' : Builder}
    (h : Frame.settle stack a = Frame.settle stack' a') (hs : Frame.Settled stack) (hends : Ends stack ts)
    (htight : s.tight? = none) :
    completes ⟨.operator stack a, f⟩ (s.tokens ++ ts) = completes ⟨.operator stack' a', f⟩ (s.tokens ++ ts) := by
  cases hloose : s.loose? with
  | some next =>
    obtain ⟨op, rfl, -⟩ := Stream.loose?_eq_some hloose
    rw [Stream.tokens, List.cons_append, completes_of_step (step_loose h f op), completes_of_step (step_loose rfl f op)]
  | none =>
    cases hends with
    | nil =>
      have hfinish : Frame.finish? stack a = Frame.finish? stack' a' := by
        rw [Frame.finish?, h, Frame.finish?]
      simp only [completes_stop htight hloose, Reader.finish, hfinish]
    | closing hends =>
      obtain ⟨p, hclose⟩ := hends a
      rw [Frame.take_of_settled hs] at hclose
      have hclose' : Frame.closeGroup? stack' a' = some p := by
        rw [← hclose, Frame.closeGroup?, ← h, Frame.closeGroup?]
      rw [completes_leave htight hloose hclose, completes_leave htight hloose hclose']

theorem completes_settle {s : Stream} (hc : Frame.Closed stack) (hends : Ends stack ts) (htight : s.tight? = none)
    (op : Loose) (b : Builder) :
    completes ⟨.operator (.loose a op :: stack) b, f⟩ (s.tokens ++ ts) =
      completes ⟨.operator stack (op.join a b), f⟩ (s.tokens ++ ts) := by
  apply completes_congr _ .loose (hends.loose hc a op) htight
  rw [Frame.settle_of_closed hc]
  rfl

theorem completes_word {s : Stream} (hends : Ends stack ts) (hs : ∀ text rest, s ≠ .literal text rest) (w : String) :
    completes ⟨.word stack w, f⟩ (s.tokens ++ ts) =
      completes ⟨Reader.after stack (.variable w), f⟩ (s.tokens ++ ts) := by
  cases s with
  | nil =>
    cases hends with
    | nil => rfl
    | @closing b us hends =>
      obtain ⟨p, hclose⟩ := hends (.variable w)
      have hstep : Reader.step ⟨.word stack w, f⟩ (.closing b) = .ok ⟨.operator p.1 p.2, f⟩ := by
        simp only [Reader.step, Reader.stepOperator, Reader.closeGroup, hclose]
      exact (completes_of_step hstep us).trans (completes_close hclose b).1.symm
  | literal text rest => exact absurd rfl (hs text rest)
  | word text rest | other rest | group bracket content rest => rfl
  | sign text rest =>
    have hstep : Reader.step ⟨.word stack w, f⟩ (.sign text) =
        Reader.step ⟨Reader.after stack (.variable w), f⟩ (.sign text) := by
      simp only [Reader.step, Reader.after, Reader.stepOperator]
      split
      case h_5 heq => cases heq
      all_goals rfl
    rw [Stream.tokens, List.cons_append, completes, completes, List.foldlM_cons, List.foldlM_cons, hstep]

end

end Machine

namespace Input

def length (i : Input) : Nat := i.rest.tokens.length

def completes (i : Input) (ts : List Token) (state : State) : Except Error Builder :=
  Inline.completes ⟨state, i.leftOver⟩ (i.rest.tokens ++ ts)

theorem length_sign (text : String) (rest : Stream) (f : Bool) :
    length ⟨.sign text rest, f⟩ = length ⟨rest, f⟩ + 1 := rfl

theorem length_group (bracket : Bracket) (content rest : Stream) (f : Bool) :
    length ⟨.group bracket content rest, f⟩ = length ⟨content, f⟩ + length ⟨rest, f⟩ + 2 := by
  simp only [length, Stream.tokens, List.length_cons, List.length_append]
  omega

theorem completes_of_step {s rest : Stream} {t : Token} (hs : s.tokens = t :: rest.tokens) {f : Bool} {state state' : State}
    (h : Reader.step ⟨state, f⟩ t = .ok ⟨state', f⟩) (ts : List Token) :
    completes ⟨s, f⟩ ts state = completes ⟨rest, f⟩ ts state' := by
  rw [completes, hs]
  exact Inline.completes_of_step h _

end Input

namespace Descent

/-- The rule gives an answer. It refuses the input, and that is the outcome; or it reads some of it, and the outcome is
what comes after that. -/
inductive Agrees {α : Type} (rule : Descent α) (i : Input) (outcome : Except Error Builder)
    (after : α → Input → Except Error Builder) (post : Input → Prop) : Prop
  | read {a : α} {j : Input} : rule.run i = pure (a, j) → post j → outcome = after a j →
      Agrees rule i outcome after post
  | refused {e : Error} : rule.run i = throw e → outcome = .error e → Agrees rule i outcome after post

namespace Agrees

variable {α β : Type} {i : Input} {outcome : Except Error Builder} {after : α → Input → Except Error Builder}
  {post : Input → Prop}

theorem of_pure {a : α} (hpost : post i) (houtcome : outcome = after a i) : Agrees (pure a) i outcome after post :=
  .read rfl hpost houtcome

theorem of_run {x : Descent β} {b : β} {j : Input} {f : β → Descent α} (hx : x.run i = pure (b, j))
    (hf : Agrees (f b) j outcome after post) : Agrees (x >>= f) i outcome after post := by
  have hrun := run_bind_pure hx f
  cases hf with
  | read hrun' hpost houtcome => exact .read (hrun.trans hrun') hpost houtcome
  | refused hrun' houtcome => exact .refused (hrun.trans hrun') houtcome

theorem bind {x : Descent α} {f : α → Descent β} {after' : β → Input → Except Error Builder} {post' : Input → Prop}
    (hx : Agrees x i outcome after post) (hf : ∀ {a j}, post j → Agrees (f a) j (after a j) after' post') :
    Agrees (x >>= f) i outcome after' post' := by
  cases hx with
  | read hrun hpost houtcome => exact of_run hrun (houtcome ▸ hf hpost)
  | refused hrun houtcome => exact .refused (run_bind_throw hrun f) houtcome

theorem mono {rule : Descent α} {post' : Input → Prop} (h : Agrees rule i outcome after post)
    (hpost : ∀ j, post j → post' j) : Agrees rule i outcome after post' := by
  cases h with
  | read hrun hj houtcome => exact .read hrun (hpost _ hj) houtcome
  | refused hrun houtcome => exact .refused hrun houtcome

end Agrees

-- As in the descent over tokens, four calls are enough for every token that is left, and one more for each rule from
-- the one at hand down to the last.
def UnaryAgrees (length : Nat) : Prop :=
  ∀ {n : Nat} {i : Input} {ts : List Token} {stack : List (Frame Builder)}, Ends stack ts → i.length ≤ length →
    4 * i.length + 2 ≤ n →
    Agrees (unary n) i (i.completes ts (.operand stack)) (fun a j => j.completes ts (Reader.after stack a))
      (fun j => j.length ≤ i.length)

theorem advance_run (rest : Stream) (i : Input) : (advance rest).run i = pure ((), ⟨rest, i.leftOver⟩) := rfl

section Chains

variable {length n : Nat} {i : Input} {ts : List Token} {stack : List (Frame Builder)}

theorem binaryRest_agrees (hunary : UnaryAgrees length) (hends : Ends stack ts) (hs : Frame.Settled stack)
    (hlength : i.length ≤ length) (hn : 4 * i.length + 1 ≤ n) (a : Builder) :
    Agrees (binaryRest n a) i (i.completes ts (.operator stack a)) (fun a j => j.completes ts (.operator stack a))
      (fun j => j.length ≤ i.length ∧ j.rest.tight? = none) := by
  induction n generalizing i a with
  | zero => omega
  | succ n ih =>
    rw [binaryRest]
    refine .of_run rfl ?_
    cases htight : i.rest.tight? with
    | none => exact .of_pure ⟨Nat.le_refl _, htight⟩ rfl
    | some next =>
      obtain ⟨s, f⟩ := i
      obtain ⟨join, rest⟩ := next
      obtain ⟨op, rfl, hjoin⟩ := Stream.tight?_eq_some htight
      rw [Input.length_sign] at hlength hn
      have hright : Agrees (unary n) ⟨rest, f⟩ _ _ _ := hunary (hends.tight hs a op) (by omega) (by omega)
      refine .of_run (advance_run _ _) ?_
      rw [Input.completes_of_step rfl (step_tight stack a f op)]
      refine hright.bind fun {b j} hj => ?_
      rw [hjoin, Input.length_sign]
      exact (ih (i := j) (by omega) (by omega) _).mono fun _ h => ⟨by omega, h.2⟩

theorem binary_agrees (hunary : UnaryAgrees length) (hends : Ends stack ts) (hs : Frame.Settled stack)
    (hlength : i.length ≤ length) (hn : 4 * i.length + 3 ≤ n) :
    Agrees (binary n) i (i.completes ts (.operand stack)) (fun a j => j.completes ts (.operator stack a))
      (fun j => j.length ≤ i.length ∧ j.rest.tight? = none) := by
  cases n with
  | zero => omega
  | succ n =>
    rw [binary]
    refine (hunary hends hlength (by omega)).bind fun {a j} hj => ?_
    have hafter : Reader.after stack a = .operator stack a := by
      rw [Reader.after, Frame.take_of_settled hs]
    rw [hafter]
    exact (binaryRest_agrees hunary hends hs (by omega) (by omega) a).mono fun _ h => ⟨by omega, h.2⟩

theorem implicationRest_agrees (hunary : UnaryAgrees length) (hends : Ends stack ts) (hc : Frame.Closed stack)
    (hlength : i.length ≤ length) (hn : 4 * i.length + 1 ≤ n) (htight : i.rest.tight? = none) (a : Builder) :
    Agrees (implicationRest n a) i (i.completes ts (.operator stack a)) (fun a j => j.completes ts (.operator stack a))
      (fun j => j.length ≤ i.length ∧ j.rest.tight? = none ∧ j.rest.loose? = none) := by
  induction n generalizing i a with
  | zero => omega
  | succ n ih =>
    rw [implicationRest]
    refine .of_run rfl ?_
    cases hloose : i.rest.loose? with
    | none => exact .of_pure ⟨Nat.le_refl _, htight, hloose⟩ rfl
    | some next =>
      obtain ⟨s, f⟩ := i
      obtain ⟨join, rest⟩ := next
      obtain ⟨op, rfl, hjoin⟩ := Stream.loose?_eq_some hloose
      rw [Input.length_sign] at hlength hn
      have hright : Agrees (binary n) ⟨rest, f⟩ _ _ _ :=
        binary_agrees hunary (hends.loose hc a op) .loose (by omega) (by omega)
      refine .of_run (advance_run _ _) ?_
      rw [Input.completes_of_step rfl (step_loose (Frame.settle_of_closed hc a) f op)]
      refine hright.bind fun {b j} hj => ?_
      -- the stack keeps the operator until it sees what follows, the descent joins at once
      rw [hjoin, Input.length_sign, Input.completes, completes_settle hc hends hj.2]
      exact (ih (i := j) (by omega) (by omega) hj.2 _).mono fun _ h => ⟨by omega, h.2⟩

theorem implication_agrees (hunary : UnaryAgrees length) (hends : Ends stack ts) (hc : Frame.Closed stack)
    (hlength : i.length ≤ length) (hn : 4 * i.length + 4 ≤ n) :
    Agrees (implication n) i (i.completes ts (.operand stack)) (fun a j => j.completes ts (.operator stack a))
      (fun j => j.length ≤ i.length ∧ j.rest.tight? = none ∧ j.rest.loose? = none) := by
  cases n with
  | zero => omega
  | succ n =>
    rw [implication]
    refine (binary_agrees hunary hends hc.settled hlength (by omega)).bind fun {a j} hj => ?_
    exact (implicationRest_agrees hunary hends hc (by omega) (by omega) hj.2 a).mono fun _ h => ⟨by omega, h.2⟩

end Chains

section Operands

variable {length n : Nat} {i : Input} {ts : List Token} {stack : List (Frame Builder)}

theorem completes_nil (hends : Ends stack ts) {state : State} {f : Bool}
    (hstep : ∀ b, Reader.step ⟨state, f⟩ (.closing b) = .error .syntactic)
    (hfinish : Reader.finish ⟨state, f⟩ = .error .syntactic) :
    Input.completes ⟨.nil, f⟩ ts state = .error .syntactic := by
  cases hends with
  | nil => exact hfinish
  | @closing b us => exact completes_of_step_error (hstep b) us

theorem step_word {text : String} (h : isReserved text = false) (stack : List (Frame Builder)) (f : Bool) :
    Reader.step ⟨.operand stack, f⟩ (.word text) = .ok ⟨.word stack text, f⟩ := by
  simp only [Reader.step, h, Bool.false_eq_true, if_false]

theorem step_word_reserved {text : String} (h : isReserved text = true) (stack : List (Frame Builder)) (f : Bool) :
    Reader.step ⟨.operand stack, f⟩ (.word text) = .error .syntactic := by
  simp only [Reader.step, h, if_true]

theorem identifier_run {text : String} (h : isReserved text = false) (rest : Stream) (f : Bool) :
    identifier.run ⟨.word text rest, f⟩ = pure (text, ⟨rest, f⟩) := by
  rw [identifier, run_bind_pure rfl]
  simp only [h]
  rfl

theorem identifier_run_reserved {text : String} (h : isReserved text = true) (rest : Stream) (f : Bool) :
    identifier.run ⟨.word text rest, f⟩ = throw .syntactic := by
  rw [identifier, run_bind_pure rfl]
  simp only [h]
  rfl

theorem membership_run {s : Stream} {f : Bool} (h : ∀ rest, s ≠ .word "in" rest) :
    membership.run ⟨s, f⟩ = (do if (← identifier) ≠ "of" then throw .membership : Descent Unit).run ⟨s, f⟩ := by
  rw [membership, run_bind_pure rfl]
  split
  · exact absurd ‹_› (h _)
  · rfl

theorem membership_agrees (hends : Ends stack ts) (q : Quantifier) (element : String) :
    Agrees membership i (i.completes ts (.membership stack q element))
      (fun _ j => j.completes ts (.setName stack q element)) (fun j => j.length ≤ i.length) := by
  obtain ⟨s, f⟩ := i
  cases s with
  | nil => exact .refused rfl (completes_nil hends (fun _ => rfl) rfl)
  | literal | sign | other | group => exact .refused rfl (completes_of_step_error rfl _)
  | word text rest =>
    have hstep : Reader.step ⟨.membership stack q element, f⟩ (.word text) =
        if text = "in" ∨ text = "of" then .ok ⟨.setName stack q element, f⟩
        else if isReserved text then .error .syntactic else .error .membership := rfl
    by_cases hin : text = "in"
    · subst hin
      exact .read rfl (Nat.le_succ _) (Input.completes_of_step rfl hstep ts)
    have hrun := membership_run (s := .word text rest) (f := f) (by rintro _ ⟨⟩; exact hin rfl)
    cases hreserved : isReserved text with
    | true =>
      have hof : text ≠ "of" := by
        rintro rfl
        cases hreserved
      simp only [hin, hof, hreserved, or_self, if_false, if_true] at hstep
      refine .refused (hrun.trans ?_) (completes_of_step_error hstep _)
      exact run_bind_throw (identifier_run_reserved hreserved rest f) _
    | false =>
      rw [run_bind_pure (identifier_run hreserved rest f)] at hrun
      by_cases hof : text = "of"
      · subst hof
        exact .read hrun (Nat.le_succ _) (Input.completes_of_step rfl hstep ts)
      · simp only [hin, hof, hreserved, or_self, if_false, Bool.false_eq_true] at hstep
        simp only [ne_eq, hof, not_false_eq_true, if_true] at hrun
        exact .refused hrun (completes_of_step_error hstep _)

theorem literal_agrees (hends : Ends stack ts) (q : Quantifier) (element : String) :
    Agrees literal i (i.completes ts (.setName stack q element))
      (fun set j => j.completes ts (Reader.after stack (build element set q))) (fun j => j.length ≤ i.length) := by
  obtain ⟨s, f⟩ := i
  cases s with
  | nil => exact .refused rfl (completes_nil hends (fun _ => rfl) rfl)
  | word | sign | other | group => exact .refused rfl (completes_of_step_error rfl _)
  | literal text rest => exact .read rfl (Nat.le_succ _) (Input.completes_of_step rfl rfl ts)

theorem constructor?_eq (keyword : String) :
    constructor? keyword = (quantifier? keyword).map fun q element set => build element set q := by
  unfold constructor? quantifier?
  split
  case h_1 | h_2 | h_3 => rfl
  case h_4 => simp only [Option.map_none]

theorem quantified_agrees (hends : Ends stack ts) (keyword element : String) (rest : Stream) (f : Bool) :
    Agrees quantified ⟨.word keyword (.literal element rest), f⟩
      (Input.completes ⟨.word keyword (.literal element rest), f⟩ ts (.operand stack))
      (fun a j => j.completes ts (Reader.after stack a))
      (fun j => j.length ≤ Input.length ⟨.word keyword (.literal element rest), f⟩) := by
  rw [quantified]
  cases hreserved : isReserved keyword with
  | true =>
    exact .refused (run_bind_throw (identifier_run_reserved hreserved _ f) _)
      (completes_of_step_error (step_word_reserved hreserved stack f) _)
  | false =>
    refine .of_run (identifier_run hreserved _ f) ?_
    rw [Input.completes_of_step rfl (step_word hreserved stack f), constructor?_eq]
    cases hq : quantifier? keyword with
    | none =>
      refine .refused rfl (completes_of_step_error ?_ _)
      simp only [Reader.step, hq]
    | some q =>
      have hstep : Reader.step ⟨.word stack keyword, f⟩ (.literal element) = .ok ⟨.membership stack q element, f⟩ := by
        simp only [Reader.step, hq]
      refine .of_run (b := element) (j := ⟨rest, f⟩) rfl ?_
      rw [Input.completes_of_step rfl hstep]
      refine (membership_agrees hends q element).bind fun {_ j} hj => ?_
      refine (literal_agrees hends q element).bind fun {set j'} hj' => .of_pure ?_ rfl
      have hlength : Input.length ⟨.word keyword (.literal element rest), f⟩ = Input.length ⟨rest, f⟩ + 2 := rfl
      omega

theorem parenthesized_run {α : Type} {rule : Descent α} {content : Stream} {f : Bool} {a : α} {j : Input}
    (h : rule.run ⟨content, f⟩ = pure (a, j)) (rest : Stream) (s : Stream) :
    (parenthesized content rest rule).run ⟨s, f⟩ = pure (a, ⟨rest, j.leftOver || !j.rest.isEmpty⟩) := by
  rw [parenthesized, run_bind_pure (advance_run _ _), run_bind_pure h]
  rfl

theorem group_agrees {content : Stream} {f : Bool} (hunary : UnaryAgrees (Input.length ⟨content, f⟩))
    (hn : 4 * Input.length ⟨content, f⟩ + 4 ≤ n) (rest : Stream) (ts : List Token) (stack : List (Frame Builder)) :
    Agrees (parenthesized content rest (implication n)) ⟨.group .round content rest, f⟩
      (Input.completes ⟨.group .round content rest, f⟩ ts (.operand stack))
      (fun a j => j.completes ts (Reader.after stack a)) (fun j => j.length = Input.length ⟨rest, f⟩) := by
  have hinner : Agrees (implication n) ⟨content, f⟩ _ _ _ :=
    implication_agrees hunary (.group stack .round (rest.tokens ++ ts)) .group (Nat.le_refl _) hn
  have hopen : Input.completes ⟨.group .round content rest, f⟩ ts (.operand stack) =
      Input.completes ⟨content, f⟩ (.closing .round :: (rest.tokens ++ ts)) (.operand (.group :: stack)) := by
    rw [Input.completes, Stream.tokens, List.cons_append, List.append_assoc, List.cons_append]
    exact completes_of_step rfl _
  cases hinner with
  | @read a j hrun hj houtcome =>
    refine .read (parenthesized_run hrun rest _) rfl (hopen.trans (houtcome.trans ?_))
    exact completes_leave hj.2.1 hj.2.2 rfl .round
  | refused hrun houtcome =>
    refine .refused ?_ (hopen.trans houtcome)
    rw [parenthesized, run_bind_pure (advance_run _ _), run_bind_throw hrun]

theorem variable_agrees (hends : Ends stack ts) (text : String) {rest : Stream}
    (hrest : ∀ literal s, rest ≠ .literal literal s) (f : Bool) :
    Agrees (do return Builder.variable (← identifier)) ⟨.word text rest, f⟩
      (Input.completes ⟨.word text rest, f⟩ ts (.operand stack)) (fun a j => j.completes ts (Reader.after stack a))
      (fun j => j.length ≤ Input.length ⟨.word text rest, f⟩) := by
  cases hreserved : isReserved text with
  | true =>
    exact .refused (run_bind_throw (identifier_run_reserved hreserved rest f) _)
      (completes_of_step_error (step_word_reserved hreserved stack f) _)
  | false =>
    refine .of_run (identifier_run hreserved rest f) (.of_pure (Nat.le_succ _) ?_)
    rw [Input.completes_of_step rfl (step_word hreserved stack f)]
    exact completes_word hends hrest text

theorem primary_agrees (hunary : ∀ m < length, UnaryAgrees m) (hends : Ends stack ts) (hlength : i.length ≤ length)
    (hn : 4 * i.length + 1 ≤ n) (hnot : ∀ rest, i.rest ≠ .sign "!" rest) :
    Agrees (primary n) i (i.completes ts (.operand stack)) (fun a j => j.completes ts (Reader.after stack a))
      (fun j => j.length ≤ i.length) := by
  cases n with
  | zero => omega
  | succ n =>
    obtain ⟨s, f⟩ := i
    rw [primary]
    refine .of_run rfl ?_
    cases s with
    | nil => exact .refused rfl (completes_nil hends (fun _ => rfl) rfl)
    | other => exact .refused rfl (completes_of_step_error rfl _)
    | literal text rest => exact .read rfl (Nat.le_succ _) (Input.completes_of_step rfl rfl ts)
    | sign text rest =>
      have hstep : Reader.step ⟨.operand stack, f⟩ (.sign text) = .error .syntactic := by
        simp only [Reader.step]
        split
        case h_1 heq =>
          cases heq
          exact absurd rfl (hnot rest)
        case h_2 heq | h_3 heq | h_4 heq => cases heq
        case h_5 => rfl
      exact .refused rfl (completes_of_step_error hstep _)
    | word text rest =>
      cases rest with
      | literal element rest => exact quantified_agrees hends text element rest f
      | nil | word | sign | other | group =>
        apply variable_agrees hends text _ f
        simp
    | group bracket content rest =>
      cases bracket with
      | square | curly => exact .refused rfl (completes_of_step_error rfl _)
      | round =>
        rw [Input.length_group] at hlength hn ⊢
        have hcontent : UnaryAgrees (Input.length ⟨content, f⟩) := hunary _ (by omega)
        exact (group_agrees hcontent (by omega) rest ts stack).mono fun _ h => by omega

theorem unary_run {s : Stream} (h : ∀ rest, s ≠ .sign "!" rest) (n : Nat) (f : Bool) :
    (unary (n + 1)).run ⟨s, f⟩ = (primary n).run ⟨s, f⟩ := by
  rw [unary, run_bind_pure rfl]
  split
  · exact absurd ‹_› (h _)
  · rfl

theorem unaryAgrees_of_shorter (hunary : ∀ m < length, UnaryAgrees m) : UnaryAgrees length := by
  intro n i ts stack hends hlength hn
  cases n with
  | zero => omega
  | succ n =>
    obtain ⟨s, f⟩ := i
    by_cases hnot : ∃ rest, s = .sign "!" rest
    · obtain ⟨rest, rfl⟩ := hnot
      rw [Input.length_sign] at hlength hn ⊢
      have hinner : Agrees (unary n) ⟨rest, f⟩ _ _ _ :=
        hunary (Input.length ⟨rest, f⟩) (by omega) hends.negation (Nat.le_refl _) (by omega)
      rw [unary, Input.completes_of_step rfl rfl]
      refine .of_run rfl (.of_run (advance_run rest _) ?_)
      exact hinner.bind fun hj => .of_pure (by omega) rfl
    · have hs : ∀ rest, s ≠ .sign "!" rest := fun rest h => hnot ⟨rest, h⟩
      have hprimary := primary_agrees hunary hends hlength (n := n) (by omega) hs
      cases hprimary with
      | read hrun hj houtcome => exact .read ((unary_run hs n f).trans hrun) hj houtcome
      | refused hrun houtcome => exact .refused ((unary_run hs n f).trans hrun) houtcome

theorem unary_agrees (length : Nat) : UnaryAgrees length := by
  induction length using Nat.strongRecOn with
  | ind length ih => exact unaryAgrees_of_shorter ih

end Operands

theorem parse_eq (s : Stream) {n : Nat} (hn : 4 * s.tokens.length + 4 ≤ n) :
    parse n s = some (completes {} s.tokens) := by
  have hagrees : Agrees (implication n) ⟨s, false⟩ _ _ _ :=
    implication_agrees (unary_agrees _) Ends.nil .nil (Nat.le_refl _) hn
  have hparse : parse n s = (Prod.fst <$> (whole n).run ⟨s, false⟩).run := rfl
  rw [Input.completes, List.append_nil] at hagrees
  cases hagrees with
  | refused hrun houtcome =>
    rw [hparse, whole, run_bind_throw hrun, houtcome]
    rfl
  | @read a j hrun hj houtcome =>
    rw [hparse, whole, run_bind_pure hrun, run_bind_pure rfl, houtcome, Input.completes, completes_stop hj.2.1 hj.2.2]
    rcases j with ⟨rest, _ | _⟩ <;> cases rest.isEmpty <;> rfl

end Descent

/-- The tokens of a stream, and after it, for each bracket that is still open, its end and the stream behind that. -/
def Stream.tokensFrom (s : Stream) : List (Bracket × Stream) → List Token
  | [] => s.tokens
  | (b, t) :: rest => s.tokens ++ .closing b :: t.tokensFrom rest

theorem Stream.tokensFrom_of_tokens {s t : Stream} (ts : List Token) (h : s.tokens = ts ++ t.tokens)
    (rest : List (Bracket × Stream)) : s.tokensFrom rest = ts ++ t.tokensFrom rest := by
  cases rest <;> simp [tokensFrom, h]

theorem exists_tokensFrom_cons {opened : List Bracket} {t : Token} {ts : List Token} (make : Stream → Stream)
    (hmake : ∀ s, (make s).tokens = t :: s.tokens)
    (h : ∃ (s : Stream) (rest : List (Bracket × Stream)), rest.map Prod.fst = opened ∧ s.tokensFrom rest = ts) :
    ∃ (s : Stream) (rest : List (Bracket × Stream)), rest.map Prod.fst = opened ∧ s.tokensFrom rest = t :: ts := by
  obtain ⟨s, rest, hrest, rfl⟩ := h
  exact ⟨make s, rest, hrest, Stream.tokensFrom_of_tokens [t] (hmake s) rest⟩

theorem exists_tokensFrom_of_balanced (opened : List Bracket) {ts : List Token} (h : balanced opened ts = true) :
    ∃ (s : Stream) (rest : List (Bracket × Stream)), rest.map Prod.fst = opened ∧ s.tokensFrom rest = ts := by
  induction ts generalizing opened with
  | nil =>
    obtain rfl : opened = [] := List.isEmpty_iff.mp h
    exact ⟨.nil, [], rfl, rfl⟩
  | cons t ts ih =>
    cases t with
    | word text => exact exists_tokensFrom_cons (.word text) (fun _ => rfl) (ih opened h)
    | literal text => exact exists_tokensFrom_cons (.literal text) (fun _ => rfl) (ih opened h)
    | sign text => exact exists_tokensFrom_cons (.sign text) (fun _ => rfl) (ih opened h)
    | other => exact exists_tokensFrom_cons .other (fun _ => rfl) (ih opened h)
    | opening b =>
      obtain ⟨content, _ | ⟨⟨c, s⟩, rest⟩, hrest, rfl⟩ := ih (b :: opened) h
      · cases hrest
      · obtain ⟨rfl, hopened⟩ := List.cons.inj hrest
        have htokens : (Stream.group c content s).tokens =
            (.opening c :: (content.tokens ++ [.closing c])) ++ s.tokens := by
          simp [Stream.tokens]
        refine ⟨.group c content s, rest, hopened, ?_⟩
        rw [Stream.tokensFrom_of_tokens _ htokens]
        simp [Stream.tokensFrom]
    | closing b =>
      cases opened with
      | nil => cases h
      | cons c opened =>
        simp only [balanced, Bool.and_eq_true, decide_eq_true_eq] at h
        obtain ⟨rfl, h⟩ := h
        obtain ⟨s, rest, hrest, rfl⟩ := ih opened h
        exact ⟨.nil, (c, s) :: rest, congrArg (c :: ·) hrest, rfl⟩

theorem balanced_of_tokenize? {source : String} {ts : List Token} (h : tokenize? source = some ts) :
    balanced [] ts = true := by
  obtain ⟨us, -, hus⟩ := Option.bind_eq_some_iff.mp h
  split at hus
  next hbalanced =>
    obtain rfl := Option.some.inj hus
    exact hbalanced
  · cases hus

theorem read_eq_parse {source : String} {ts : List Token} (h : tokenize? source = some ts) :
    (∃ s : Stream, s.tokens = ts) ∧ ∀ (s : Stream) (n : Nat), s.tokens = ts → 4 * ts.length + 4 ≤ n →
      Descent.parse n s = some (read source) := by
  constructor
  · obtain ⟨s, rest, hrest, hs⟩ := exists_tokensFrom_of_balanced [] (balanced_of_tokenize? h)
    obtain rfl := List.map_eq_nil_iff.mp hrest
    exact ⟨s, hs⟩
  · rintro s n rfl hn
    rw [Descent.parse_eq s hn, read, h]
    rfl

end PseudoBoolean.Inline
