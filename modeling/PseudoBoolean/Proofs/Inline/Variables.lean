import PseudoBoolean.Inline.Reader
import PseudoBoolean.Proofs.Parse.Step

namespace PseudoBoolean.Inline

namespace Builder

def variableNames : Builder → List String
  | .variable name => [name]
  | .atom _ | .one _ _ | .all _ _ => []
  | .not a => a.variableNames
  | .and a b | .or a b | .imp a b | .iff a b => a.variableNames ++ b.variableNames

theorem variableNames_tight (op : Tight) (a b : Builder) : (op.join a b).variableNames = a.variableNames ++ b.variableNames := by
  cases op <;> rfl

theorem variableNames_loose (op : Loose) (a b : Builder) : (op.join a b).variableNames = a.variableNames ++ b.variableNames := by
  cases op <;> rfl

end Builder

def frameVariables : Frame Builder → List String
  | .negation | .group => []
  | .tight a _ | .loose a _ => a.variableNames

def stackVariables (stack : List (Frame Builder)) : List String := stack.reverse.flatMap frameVariables

theorem stackVariables_cons (frame : Frame Builder) (stack : List (Frame Builder)) :
    stackVariables (frame :: stack) = stackVariables stack ++ frameVariables frame := by
  simp [stackVariables]

def held (stack : List (Frame Builder)) (value : Builder) : List String := stackVariables stack ++ value.variableNames

theorem held_variable (stack : List (Frame Builder)) (word : String) : held stack (.variable word) ≠ [] := by
  simp [held, Builder.variableNames]

theorem held_take (stack : List (Frame Builder)) (a : Builder) :
    held (Frame.take stack a).1 (Frame.take stack a).2 = held stack a := by
  fun_induction Frame.take stack a with
  | case1 a stack ih =>
    rw [ih, held, held, stackVariables_cons]
    simp [frameVariables, Builder.variableNames, Formula.not]
  | case2 left op stack a =>
    rw [held, held, stackVariables_cons, Builder.variableNames_tight, List.append_assoc]
    rfl
  | case3 => rfl

theorem held_settle (stack : List (Frame Builder)) (a : Builder) :
    held (Frame.settle stack a).1 (Frame.settle stack a).2 = held stack a := by
  fun_cases Frame.settle stack a with
  | case1 left op stack a =>
    rw [held, held, stackVariables_cons, Builder.variableNames_loose, List.append_assoc]
    rfl
  | case2 => rfl

theorem held_closeGroup {stack : List (Frame Builder)} {a : Builder} {p : List (Frame Builder) × Builder}
    (h : Frame.closeGroup? stack a = some p) : held p.1 p.2 = held stack a := by
  obtain ⟨rest, e, hsettle, rfl⟩ := Frame.closeGroup?_eq_some.mp h
  have hheld := held_settle stack a
  rw [hsettle] at hheld
  rw [held_take, ← hheld, held, held, stackVariables_cons]
  simp [frameVariables]

theorem held_finish {stack : List (Frame Builder)} {a b : Builder} (h : Frame.finish? stack a = some b) :
    b.variableNames = held stack a := by
  have hheld := held_settle stack a
  unfold Frame.finish? at h
  split at h
  next e hsettle =>
    obtain rfl := Option.some.inj h
    rw [hsettle] at hheld
    simpa [held, stackVariables] using hheld
  · cases h

def State.variableNames : State → List String
  | .operand stack | .membership stack _ _ | .setName stack _ _ => stackVariables stack
  | .word stack text => stackVariables stack ++ if (quantifier? text).isSome then [] else [text]
  | .operator stack value | .passing stack value _ => held stack value

namespace Reader

def Clean (r : Reader) : Prop := r.leftOver = false ∧ r.state.variableNames = []

theorem clean_of_closeGroup {r : Reader} {stack : List (Frame Builder)} {value : Builder}
    (h : (r.closeGroup stack value).Clean) : r.leftOver = false ∧ held stack value = [] := by
  unfold closeGroup at h
  split at h
  next hclose =>
    refine ⟨h.1, ?_⟩
    rw [← held_closeGroup hclose]
    exact h.2
  · cases h.1

theorem clean_of_stepOperator {r : Reader} {stack : List (Frame Builder)} {value : Builder} {t : Token}
    (h : (r.stepOperator stack value t).Clean) : r.leftOver = false ∧ held stack value = [] := by
  have hheld := held_settle stack value
  rcases hsettle : Frame.settle stack value with ⟨rest, chain⟩
  rw [hsettle] at hheld
  simp only [stepOperator, hsettle] at h
  split at h
  · exact ⟨h.1, (stackVariables_cons (.tight value .and) stack).symm.trans h.2⟩
  · exact ⟨h.1, (stackVariables_cons (.tight value .or) stack).symm.trans h.2⟩
  · exact ⟨h.1, hheld.symm.trans ((stackVariables_cons (.loose chain .imp) rest).symm.trans h.2)⟩
  · exact ⟨h.1, hheld.symm.trans ((stackVariables_cons (.loose chain .iff) rest).symm.trans h.2)⟩
  · exact clean_of_closeGroup h
  · cases h.1

theorem not_clean_variable {r : Reader} {stack : List (Frame Builder)} {word : String} {t : Token} :
    ¬ (r.stepOperator (Frame.take stack (.variable word)).1 (Frame.take stack (.variable word)).2 t).Clean := by
  intro h
  have hheld := (clean_of_stepOperator h).2
  rw [held_take] at hheld
  exact held_variable stack word hheld

theorem clean_of_after {stack : List (Frame Builder)} {value : Builder} (hvalue : value.variableNames = [])
    (h : (after stack value).variableNames = []) : stackVariables stack = [] := by
  have hheld : held stack value = [] := (held_take stack value).symm.trans h
  rwa [held, hvalue, List.append_nil] at hheld

theorem clean_of_step {r r' : Reader} {t : Token} (h : r.step t = .ok r') (hclean : r'.Clean) : r.Clean := by
  obtain ⟨state, leftOver⟩ := r
  cases state with
  | operand stack =>
    simp only [step] at h
    split at h
    · cases h
      exact ⟨hclean.1, by simpa [State.variableNames, stackVariables_cons, frameVariables] using hclean.2⟩
    · cases h
      exact ⟨hclean.1, by simpa [State.variableNames, stackVariables_cons, frameVariables] using hclean.2⟩
    · cases h
      exact ⟨hclean.1, clean_of_after rfl hclean.2⟩
    · split at h <;> cases h
      exact ⟨hclean.1, (List.append_eq_nil_iff.mp hclean.2).1⟩
    · cases h
  | word stack word =>
    simp only [step] at h
    split at h
    · split at h <;> cases h
      next hq => exact ⟨hclean.1, by simpa [State.variableNames, hq] using hclean.2⟩
    · cases h
      exact absurd hclean not_clean_variable
  | membership stack q x =>
    simp only [step] at h
    split at h
    · split at h
      · cases h
        exact hclean
      · split at h <;> cases h
    · cases h
  | setName stack q x =>
    simp only [step] at h
    split at h
    · cases h
      exact ⟨hclean.1, clean_of_after (by cases q <;> rfl) hclean.2⟩
    · cases h
  | operator stack value =>
    cases h
    exact clean_of_stepOperator hclean
  | passing stack value opened =>
    simp only [step] at h
    split at h <;> cases h
    · exact hclean
    · exact clean_of_closeGroup hclean
    · exact hclean
    · exact hclean

theorem run_cons {t : Token} {ts : List Token} {r r' : Reader} :
    (t :: ts).foldlM step r = .ok r' ↔ ∃ next, r.step t = .ok next ∧ ts.foldlM step next = .ok r' := by
  rw [List.foldlM_cons]
  cases r.step t <;> simp [bind, Except.bind]

theorem clean_of_run {ts : List Token} {r r' : Reader} (h : ts.foldlM step r = .ok r') (hclean : r'.Clean) :
    r.Clean := by
  induction ts generalizing r with
  | nil =>
    cases h
    exact hclean
  | cons t ts ih =>
    obtain ⟨next, hstep, hrest⟩ := run_cons.mp h
    exact clean_of_step hstep (ih hrest)

theorem finish_eq_ok {r : Reader} {b : Builder} (h : r.finish = .ok b) : r.leftOver = false ∧
    ((∃ stack value, r.state = .operator stack value ∧ Frame.finish? stack value = some b) ∨
      ∃ stack word, r.state = .word stack word ∧ b.variableNames = held stack (.variable word)) := by
  obtain ⟨state, leftOver⟩ := r
  simp only [finish] at h
  split at h
  next value hvalue =>
    split at h <;> cases h
    next hleft =>
      refine ⟨Bool.eq_false_iff.mpr hleft, ?_⟩
      cases state with
      | operand | membership | setName | passing => cases hvalue
      | operator stack value => exact .inl ⟨stack, value, rfl, hvalue⟩
      | word stack word =>
        refine .inr ⟨stack, word, rfl, ?_⟩
        rw [held_finish hvalue, held_take]
  · cases h

theorem clean_of_finish {r : Reader} {b : Builder} (h : r.finish = .ok b) (hb : b.variableNames = []) : r.Clean := by
  obtain ⟨hleft, ⟨stack, value, hstate, hfinish⟩ | ⟨stack, word, hstate, hvariables⟩⟩ := finish_eq_ok h
  · refine ⟨hleft, ?_⟩
    rw [hstate, State.variableNames, ← held_finish hfinish, hb]
  · exact absurd (hvariables.symm.trans hb) (held_variable stack word)

end Reader

end PseudoBoolean.Inline
