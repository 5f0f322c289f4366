import PseudoBoolean.Proofs.Cnf.Clauses
import Mathlib.Logic.Relation

/-!
The rewriting of disjunctions with every choice left open: a step looks at any pending member of any
disjunction. Every run ends, and it ends with exactly the clauses of the disjunctions it started from, so
the order of the steps does not matter. Conversion is one of the runs, and keeps the minimal clauses.
-/

namespace PseudoBoolean

open Relation

variable {α : Type} [Ordered α]

inductive Disjunction.Rewrites : Disjunction α → List (Disjunction α) → Prop
  | literal {literals e l} (before after : List (Expr α)) : e.expand = .literal l →
      Rewrites ⟨literals, before ++ e :: after⟩ [⟨literals.insert l, before ++ after⟩]
  | conjunction {literals e parts} (before after : List (Expr α)) : e.expand = .conjunction parts →
      Rewrites ⟨literals, before ++ e :: after⟩ (extend literals (before ++ after) parts)

inductive Rewrites : List (Disjunction α) → List (Disjunction α) → Prop
  | head {d ds rest} : d.Rewrites ds → Rewrites (d :: rest) (ds ++ rest)
  | tail {d ds ds'} : Rewrites ds ds' → Rewrites (d :: ds) (d :: ds')

theorem product_middle (before after : List (Expr α)) (e : Expr α) :
    product (before ++ e :: after) = product (e :: (before ++ after)) := by
  rw [product_append, product, product, product_append, Set.sups_left_comm]

theorem Disjunction.clauses_middle (literals : Clause α) (before after : List (Expr α)) (e : Expr α) :
    clauses ⟨literals, before ++ e :: after⟩ = clauses ⟨literals, e :: (before ++ after)⟩ := by
  rw [clauses, clauses, product_middle]

theorem Disjunction.Rewrites.mem_clauses {d : Disjunction α} {ds : List (Disjunction α)} (h : d.Rewrites ds)
    (c : Clause α) : (∃ d' ∈ ds, c ∈ d'.clauses) ↔ c ∈ d.clauses := by
  cases h with
  | literal before after he =>
    rw [clauses_middle, clauses_literal he]
    simp
  | conjunction before after he => rw [clauses_middle, clauses_extend he]

theorem Rewrites.exists_iff {P : Disjunction α → Prop} (hP : ∀ d ds, d.Rewrites ds → ((∃ d' ∈ ds, P d') ↔ P d))
    {ds ds' : List (Disjunction α)} (h : Rewrites ds ds') : (∃ d ∈ ds', P d) ↔ ∃ d ∈ ds, P d := by
  induction h with
  | head h =>
    rw [List.exists_mem_cons_iff, ← hP _ _ h]
    simp only [List.mem_append, or_and_right, exists_or]
  | tail _ ih => rw [List.exists_mem_cons_iff, List.exists_mem_cons_iff, ih]

theorem exists_iff_of_run {P : Disjunction α → Prop} (hP : ∀ d ds, d.Rewrites ds → ((∃ d' ∈ ds, P d') ↔ P d))
    {ds ds' : List (Disjunction α)} (h : ReflTransGen Rewrites ds ds') : (∃ d ∈ ds', P d) ↔ ∃ d ∈ ds, P d := by
  induction h with
  | refl => rfl
  | tail _ hstep ih => rw [hstep.exists_iff hP, ih]

theorem mem_clauses_of_run {ds ds' : List (Disjunction α)} (h : ReflTransGen Rewrites ds ds') (c : Clause α) :
    (∃ d ∈ ds', c ∈ d.clauses) ↔ ∃ d ∈ ds, c ∈ d.clauses :=
  exists_iff_of_run (fun _ _ hd => hd.mem_clauses c) h

omit [Ordered α] in
theorem weight_middle (before after : List (Expr α)) (e : Expr α) :
    weight (before ++ e :: after) = e.weight true + weight (before ++ after) := by
  induction before with
  | nil => rfl
  | cons f before ih =>
    have hcons (es : List (Expr α)) : weight (f :: es) = f.weight true + weight es := rfl
    rw [List.cons_append, List.cons_append, hcons, hcons, ih]
    omega

theorem Disjunction.Rewrites.effort_lt {d : Disjunction α} {ds : List (Disjunction α)} (h : d.Rewrites ds) :
    effort (ds.map Disjunction.pending) < 1 <<< weight d.pending := by
  cases h with
  | @literal literals e l before after he =>
    have hpos := e.weight_pos true
    have hlt : weight (before ++ after) < weight (before ++ e :: after) := by
      rw [weight_middle]
      omega
    exact one_shiftLeft_lt hlt
  | @conjunction literals e parts before after he =>
    -- every copy has all else that is pending, so the efforts of the parts are multiplied by one factor
    have hlt := Nat.mul_lt_mul_of_pos_right (effort_expand_lt he) (Nat.two_pow_pos (weight (before ++ after)))
    rw [← Nat.shiftLeft_eq, ← Nat.shiftLeft_eq, ← Nat.shiftLeft_add] at hlt
    rw [effort_extend, weight_middle]
    exact hlt

theorem Rewrites.effort_lt {ds ds' : List (Disjunction α)} (h : Rewrites ds ds') :
    effort (ds'.map Disjunction.pending) < effort (ds.map Disjunction.pending) := by
  induction h with
  | head h =>
    rw [List.map_append, effort_append, List.map_cons, effort_cons]
    exact Nat.add_lt_add_right h.effort_lt _
  | tail _ ih =>
    rw [List.map_cons, effort_cons, List.map_cons, effort_cons]
    exact Nat.add_lt_add_left ih _

theorem rewrites_wellFounded : WellFounded fun ds' ds : List (Disjunction α) => Rewrites ds ds' :=
  Subrelation.wf (fun h => h.effort_lt)
    (measure fun ds : List (Disjunction α) => effort (ds.map Disjunction.pending)).wf

theorem exists_rewrites {ds : List (Disjunction α)} {d : Disjunction α} (hd : d ∈ ds) (hp : d.pending ≠ []) :
    ∃ ds', Rewrites ds ds' := by
  induction ds with
  | nil => cases hd
  | cons d' ds ih =>
    rcases List.mem_cons.mp hd with rfl | hd
    · obtain ⟨literals, pending⟩ := d
      obtain ⟨e, pending, rfl⟩ := List.exists_cons_of_ne_nil hp
      cases he : e.expand with
      | literal l => exact ⟨_, .head (.literal [] _ he)⟩
      | conjunction parts => exact ⟨_, .head (.conjunction [] _ he)⟩
    · obtain ⟨ds', h⟩ := ih hd
      exact ⟨_, .tail h⟩

theorem forall_not_rewrites_iff {ds : List (Disjunction α)} :
    (∀ ds', ¬ Rewrites ds ds') ↔ ∀ d ∈ ds, d.pending = [] := by
  constructor
  · intro h d hd
    by_contra hp
    obtain ⟨ds', hstep⟩ := exists_rewrites hd hp
    exact h ds' hstep
  · intro h ds' hstep
    induction hstep with
    | @head d ds rest hd =>
      have hp := h d List.mem_cons_self
      cases hd <;> simp at hp
    | tail _ ih => exact ih fun d hd => h d (List.mem_cons_of_mem _ hd)

theorem Disjunction.clauses_start (e : Expr α) : clauses ⟨∅, [e]⟩ = e.clauses true := by
  rw [clauses, product_singleton, OrderedSet.empty_eq_bot, Set.singleton_sups]
  simp

theorem mem_literals_of_finished {ds : List (Disjunction α)} (h : ∀ d ∈ ds, d.pending = []) (c : Clause α) :
    c ∈ ds.map Disjunction.literals ↔ ∃ d ∈ ds, c ∈ d.clauses := by
  rw [List.mem_map]
  apply exists_congr
  rintro ⟨literals, pending⟩
  apply and_congr_right
  intro hd
  obtain rfl : pending = [] := h _ hd
  rw [Disjunction.clauses_finished, Set.mem_singleton_iff, eq_comm]

theorem Progress.exists_run_work (ds : List (Disjunction α)) (p : Progress α) :
    ∃ ds', ReflTransGen Rewrites ds ds' ∧ (∀ d ∈ ds', d.pending = []) ∧
      ∀ c, c ∈ (work ds p).clauses ↔ c ∈ p.clauses ∨ c ∈ ds'.map Disjunction.literals := by
  -- the first pending member of the first unfinished disjunction is always the next
  fun_induction work ds p with
  | case1 p => exact ⟨[], .refl, by simp, by simp⟩
  | case2 p literals ds ih =>
    obtain ⟨ds', hrun, hfinished, hmem⟩ := ih
    refine ⟨⟨literals, []⟩ :: ds', hrun.lift _ fun _ _ => .tail, ?_, ?_⟩
    · rintro d (_ | ⟨_, hd⟩)
      · rfl
      · exact hfinished d hd
    · intro c
      rw [hmem, OrderedSet.mem_insert, List.map_cons, List.mem_cons, or_left_comm, or_assoc]
  | case3 p ds literals e pending l h ih =>
    obtain ⟨ds', hrun, hrest⟩ := ih
    exact ⟨ds', hrun.head (.head (.literal [] _ h)), hrest⟩
  | case4 p ds literals e pending parts h ih =>
    obtain ⟨ds', hrun, hrest⟩ := ih
    exact ⟨ds', hrun.head (.head (.conjunction [] _ h)), hrest⟩

theorem Progress.mem_work (ds : List (Disjunction α)) (p : Progress α) (c : Clause α) :
    c ∈ (work ds p).clauses ↔ c ∈ p.clauses ∨ ∃ d ∈ ds, c ∈ d.clauses := by
  obtain ⟨ds', hrun, hfinished, hmem⟩ := exists_run_work ds p
  rw [hmem, mem_literals_of_finished hfinished, mem_clauses_of_run hrun]

theorem Expr.mem_found (e : Expr α) (c : Clause α) : c ∈ e.convert.found ↔ c ∈ e.clauses true := by
  have h := Progress.mem_work [⟨∅, [e]⟩] {} c
  rw [or_iff_right OrderedSet.not_mem_empty, List.exists_mem_cons_iff, Disjunction.clauses_start] at h
  simpa [convert] using h

theorem Cnf.subsumes_iff_lt {f : Cnf α} {c : Clause α} : f.subsumes c = true ↔ ∃ d ∈ f, d < c := by
  simp only [subsumes_iff, OrderedSet.lt_iff_size_lt]

theorem Cnf.mem_minimal_iff {f : Cnf α} {c : Clause α} : c ∈ f.minimal ↔ Minimal (· ∈ f) c := by
  rw [mem_minimal, minimal_iff_forall_lt, ← Bool.not_eq_true, subsumes_iff_lt]
  simp only [not_exists, not_and, imp_not_comm]

theorem Expr.mem_toCnf (e : Expr α) (c : Clause α) : c ∈ e.toCnf ↔ Minimal (· ∈ e.clauses true) c := by
  rw [toCnf, Conversion.cnf, Cnf.mem_minimal_iff]
  simp only [mem_found]

theorem Expr.clauses_of_every_run (e : Expr α) :
    Acc (fun ds' ds => Rewrites ds ds') [⟨∅, [e]⟩] ∧
    (∀ ds, ReflTransGen Rewrites [⟨∅, [e]⟩] ds → (∀ ds', ¬ Rewrites ds ds') →
      (∀ d ∈ ds, d.pending = []) ∧ ∀ c, c ∈ ds.map Disjunction.literals ↔ c ∈ e.clauses true) ∧
    (∃ ds, ReflTransGen Rewrites [⟨∅, [e]⟩] ds ∧ (∀ ds', ¬ Rewrites ds ds') ∧
      ∀ c, c ∈ e.convert.found ↔ c ∈ ds.map Disjunction.literals) ∧
    ∀ c, c ∈ e.toCnf ↔ Minimal (· ∈ e.clauses true) c := by
  refine ⟨rewrites_wellFounded.apply _, ?_, ?_, e.mem_toCnf⟩
  · intro ds hrun hend
    have hfinished := forall_not_rewrites_iff.mp hend
    refine ⟨hfinished, fun c => ?_⟩
    rw [mem_literals_of_finished hfinished, mem_clauses_of_run hrun, ← Disjunction.clauses_start]
    simp
  · obtain ⟨ds, hrun, hfinished, hmem⟩ := Progress.exists_run_work [⟨∅, [e]⟩] {}
    refine ⟨ds, hrun, forall_not_rewrites_iff.mpr hfinished, fun c => ?_⟩
    have hc := hmem c
    rwa [or_iff_right OrderedSet.not_mem_empty] at hc

theorem Expr.clauses_of_every_run_split_first :
    let a : Literal Nat := ⟨true, .plain 0⟩
    let b : Literal Nat := ⟨true, .plain 1⟩
    let c : Literal Nat := ⟨true, .plain 2⟩
    let e : Expr Nat := .or (.and a.toExpr b.toExpr) c.toExpr
    let ds : List (Disjunction Nat) :=
      [⟨(OrderedSet.empty.insert b).insert c, []⟩, ⟨(OrderedSet.empty.insert c).insert a, []⟩]
    ReflTransGen Rewrites [⟨∅, [e]⟩] ds ∧ (∀ ds', ¬ Rewrites ds ds') ∧
      ∀ d, d ∈ ds.map Disjunction.literals ↔ d ∈ e.clauses true := by
  intro a b c e ds
  have hrun : ReflTransGen Rewrites [⟨∅, [e]⟩] ds :=
    .head (.head (.conjunction [] [] rfl)) <|
    .head (.head (.conjunction [c.toExpr] [] rfl)) <|
    .head (.tail (.head (.literal [a.toExpr] [] rfl))) <|
    .head (.head (.literal [] [c.toExpr] rfl)) <|
    .head (.tail (.head (.literal [] [] rfl))) <|
    .single (.head (.literal [] [] rfl))
  have hend : ∀ ds', ¬ Rewrites ds ds' := forall_not_rewrites_iff.mpr (by simp [ds])
  exact ⟨hrun, hend, (e.clauses_of_every_run.2.1 ds hrun hend).2⟩

end PseudoBoolean
