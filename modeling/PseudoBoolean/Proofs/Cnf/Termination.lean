import PseudoBoolean.Proofs.Cnf.Rewriting
import Mathlib.Order.WellFounded

namespace PseudoBoolean

open Relation

variable {α : Type}

namespace Expr

theorem expand_eq_literal_iff {e : Expr α} {l : Literal α} : e.expand = .literal l ↔ e.literal? = some l := by
  constructor
  · intro h
    unfold expand at h
    split at h <;> cases h <;> rfl
  · intro h
    obtain rfl := literal?_eq_some.mp h
    rcases l with ⟨_ | _, a⟩ <;> rfl

theorem isLiteral_of_conjunction {e : Expr α} {parts : List (List (Expr α))} (h : e.expand = .conjunction parts) :
    e.isLiteral = false := by
  apply Bool.eq_false_iff.mpr
  intro hl
  obtain ⟨l, hl⟩ := Option.isSome_iff_exists.mp hl
  rw [← expand_eq_literal_iff, h] at hl
  cases hl

end Expr

variable [Ordered α]

structure Work (α : Type) [Ordered α] where
  disjunctions : List (Disjunction α)
  progress : Progress α

namespace Work

/-- What a step makes of the work; `none` if it has to replace a member for which there are no parts. -/
inductive Step : Work α → Option (Work α) → Prop
  | finish {literals p} (before after : List (Disjunction α)) :
      Step ⟨before ++ ⟨literals, []⟩ :: after, p⟩
        (some ⟨before ++ after, { p with clauses := p.clauses.insert literals }⟩)
  | keep {literals e l p} (before after : List (Disjunction α)) (es fs : List (Expr α)) : e.literal? = some l →
      Step ⟨before ++ ⟨literals, es ++ e :: fs⟩ :: after, p⟩
        (some ⟨before ++ ⟨literals.insert l, es ++ fs⟩ :: after, p⟩)
  | replace {literals e parts p} (before after : List (Disjunction α)) (es fs : List (Expr α)) :
      e.isLiteral = false → e.expand = .conjunction parts →
      Step ⟨before ++ ⟨literals, es ++ e :: fs⟩ :: after, p⟩
        (some ⟨before ++ (Disjunction.extend literals (es ++ fs) parts ++ after),
          { p with expanded := e :: p.expanded }⟩)
  | unreachable {literals e l p} (before after : List (Disjunction α)) (es fs : List (Expr α)) :
      e.isLiteral = false → e.expand = .literal l →
      Step ⟨before ++ ⟨literals, es ++ e :: fs⟩ :: after, p⟩ none

theorem not_step_none (w : Work α) : ¬ Step w none := by
  intro h
  cases h with
  | unreachable _ _ _ _ hnot hl =>
    rw [Expr.isLiteral, Expr.expand_eq_literal_iff.mp hl] at hnot
    cases hnot

def Steps (w w' : Work α) : Prop := Step w (some w')

def effort (w : Work α) : Nat := PseudoBoolean.effort (w.disjunctions.map Disjunction.pending)

theorem rewrites_middle {d : Disjunction α} {ds : List (Disjunction α)} (h : d.Rewrites ds)
    (before after : List (Disjunction α)) : Rewrites (before ++ d :: after) (before ++ (ds ++ after)) := by
  induction before with
  | nil => exact .head h
  | cons b before ih => exact .tail ih

theorem Steps.effort_lt {w w' : Work α} (h : Steps w w') : w'.effort < w.effort := by
  cases h with
  | finish before after =>
    simp only [effort, List.map_append, List.map_cons, effort_append, effort_cons]
    have hpos : 0 < 1 <<< weight ([] : List (Expr α)) := by
      rw [Nat.one_shiftLeft]
      exact Nat.two_pow_pos _
    omega
  | keep before after es fs hl =>
    have he := Expr.expand_eq_literal_iff.mpr hl
    exact (rewrites_middle (.literal es fs he) before after).effort_lt
  | replace before after es fs _ he =>
    exact (rewrites_middle (.conjunction es fs he) before after).effort_lt

theorem steps_wellFounded : WellFounded fun w' w : Work α => Steps w w' :=
  Subrelation.wf (fun h => h.effort_lt) (measure effort).wf

theorem exists_steps {w : Work α} (h : w.disjunctions ≠ []) : ∃ w', Steps w w' := by
  obtain ⟨disjunctions, p⟩ := w
  obtain ⟨⟨literals, pending⟩, after, rfl⟩ := List.exists_cons_of_ne_nil h
  cases pending with
  | nil => exact ⟨_, .finish [] after⟩
  | cons e pending =>
    cases he : e.expand with
    | literal l => exact ⟨_, .keep [] after [] pending (Expr.expand_eq_literal_iff.mp he)⟩
    | conjunction parts => exact ⟨_, .replace [] after [] pending (Expr.isLiteral_of_conjunction he) he⟩

theorem Steps.expanded {w w' : Work α} (h : Steps w w') : ∃ es, w'.progress.expanded = es ++ w.progress.expanded ∧
    ∀ e ∈ es, e.isLiteral = false := by
  cases h with
  | finish | keep => exact ⟨[], rfl, by simp⟩
  | @replace literals e parts p before after es fs hnot he => exact ⟨[e], rfl, by simpa using hnot⟩

theorem expanded_of_run {w w' : Work α} (h : ReflTransGen Steps w w') :
    ∃ es, w'.progress.expanded = es ++ w.progress.expanded ∧ ∀ e ∈ es, e.isLiteral = false := by
  induction h with
  | refl => exact ⟨[], rfl, by simp⟩
  | tail _ hstep ih =>
    obtain ⟨es, hes, hnot⟩ := ih
    obtain ⟨fs, hfs, hnot'⟩ := hstep.expanded
    refine ⟨fs ++ es, ?_, List.forall_mem_append.mpr ⟨hnot', hnot⟩⟩
    rw [hfs, hes, List.append_assoc]

theorem run_work (ds : List (Disjunction α)) (p : Progress α) :
    ReflTransGen Steps ⟨ds, p⟩ ⟨[], Progress.work ds p⟩ := by
  -- the first pending member of the first disjunction is always the next
  fun_induction Progress.work ds p with
  | case1 p => exact .refl
  | case2 p literals ds ih => exact .head (.finish [] ds) ih
  | case3 p ds literals e pending l h ih =>
    exact .head (.keep [] _ [] _ (Expr.expand_eq_literal_iff.mp h)) ih
  | case4 p ds literals e pending parts h ih =>
    exact .head (.replace [] _ [] _ (Expr.isLiteral_of_conjunction h) h) ih

theorem every_run_ends (α : Type) [Ordered α] :
    (¬ ∃ run : ℕ → Work α, ∀ n, Steps (run n) (run (n + 1))) ∧
    (∀ w : Work α, ¬ Step w none) ∧
    (∀ w : Work α, w.disjunctions ≠ [] → ∃ w', Steps w w') ∧
    (∀ w w' : Work α, ReflTransGen Steps w w' →
      ∃ es, w'.progress.expanded = es ++ w.progress.expanded ∧ ∀ e ∈ es, e.isLiteral = false) ∧
    ∀ (ds : List (Disjunction α)) (p : Progress α), ReflTransGen Steps ⟨ds, p⟩ ⟨[], Progress.work ds p⟩ := by
  refine ⟨?_, not_step_none, fun w => exists_steps, fun w w' => expanded_of_run, run_work⟩
  rintro ⟨run, hrun⟩
  exact (wellFounded_iff_isEmpty_descending_chain.mp steps_wellFounded).false ⟨run, hrun⟩

theorem every_run_ends_last_first :
    let e : Expr Nat := .and (.var 0) (.var 1)
    let w : Work Nat := ⟨[⟨∅, []⟩, ⟨∅, [.var 2, e]⟩], {}⟩
    let w' : Work Nat := ⟨[⟨∅, []⟩, ⟨∅, [.var 1, .var 2]⟩, ⟨∅, [.var 0, .var 2]⟩], { expanded := [e] }⟩
    ReflTransGen Steps w w' ∧ (∃ es, w'.progress.expanded = es ++ w.progress.expanded ∧ ∀ m ∈ es, m.isLiteral = false) ∧
      w'.disjunctions ≠ [] ∧ ∃ w'', Steps w' w'' := by
  intro e w w'
  have hexpand : e.expand = .conjunction [[.var 0], [.var 1]] := rfl
  have hrun : ReflTransGen Steps w w' := .single (.replace [⟨∅, []⟩] [] [.var 2] [] rfl hexpand)
  obtain ⟨-, -, hnext, hexpanded, -⟩ := every_run_ends Nat
  have hne : w'.disjunctions ≠ [] := List.cons_ne_nil _ _
  exact ⟨hrun, hexpanded w w' hrun, hne, hnext w' hne⟩

end Work

end PseudoBoolean
