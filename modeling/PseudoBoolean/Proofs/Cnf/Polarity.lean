import PseudoBoolean.Proofs.Cnf.Rewriting

namespace PseudoBoolean

open Relation

variable {α : Type}

namespace Expr

/-- The atoms of an expression, or of its negation, each with the sign of the position it stands at; below an
equivalence an atom stands at both. -/
def literals (positive : Bool) : Expr α → List (Literal α)
  | .atom a => [⟨positive, a⟩]
  | .not a => a.literals !positive
  | .and a b | .or a b => a.literals positive ++ b.literals positive
  | .imp a b => a.literals (!positive) ++ b.literals positive
  | .iff a b => a.literals true ++ a.literals false ++ (b.literals true ++ b.literals false)

theorem atom_mem_leaves {e : Expr α} {positive : Bool} {l : Literal α} (h : l ∈ e.literals positive) :
    l.atom ∈ e.leaves := by
  induction e generalizing positive with
  | atom a => simp_all [literals, leaves]
  | not a ih => exact ih h
  | and a b iha ihb | or a b iha ihb | imp a b iha ihb =>
    rcases List.mem_append.mp h with h | h
    · exact List.mem_append_left _ (iha h)
    · exact List.mem_append_right _ (ihb h)
  | iff a b iha ihb =>
    rcases List.mem_append.mp h with h | h
    · exact List.mem_append_left _ ((List.mem_append.mp h).elim iha iha)
    · exact List.mem_append_right _ ((List.mem_append.mp h).elim ihb ihb)

theorem literals_of_literal {e : Expr α} {l : Literal α} (h : e.expand = .literal l) : e.literals true = [l] := by
  unfold expand at h
  split at h <;> cases h <;> rfl

theorem parts_ne_nil {e : Expr α} {parts : List (List (Expr α))} (h : e.expand = .conjunction parts) : parts ≠ [] := by
  unfold expand at h
  split at h <;> cases h <;> simp

theorem mem_literals_of_conjunction {e : Expr α} {parts : List (List (Expr α))} (h : e.expand = .conjunction parts)
    (l : Literal α) : l ∈ e.literals true ↔ ∃ part ∈ parts, ∃ m ∈ part, l ∈ m.literals true := by
  unfold expand at h
  split at h <;> cases h <;> simp [literals] <;> tauto

end Expr

variable [Ordered α]

namespace Disjunction

def signedAtoms (d : Disjunction α) : List (Literal α) := d.literals.toList ++ d.pending.flatMap (Expr.literals true)

theorem signedAtoms_start (e : Expr α) : signedAtoms ⟨∅, [e]⟩ = e.literals true := by
  simp [signedAtoms]

theorem signedAtoms_of_pending {d : Disjunction α} (h : d.pending = []) : d.signedAtoms = d.literals.toList := by
  simp [signedAtoms, h]

theorem mem_signedAtoms_insert {literals : Clause α} {pending : List (Expr α)} {m l : Literal α} :
    l ∈ signedAtoms ⟨literals.insert m, pending⟩ ↔ l = m ∨ l ∈ signedAtoms ⟨literals, pending⟩ := by
  simp [signedAtoms, ← OrderedSet.mem_def, or_assoc]

theorem mem_signedAtoms_append {literals : Clause α} {part pending : List (Expr α)} {l : Literal α} :
    l ∈ signedAtoms ⟨literals, part ++ pending⟩ ↔
      (∃ m ∈ part, l ∈ m.literals true) ∨ l ∈ signedAtoms ⟨literals, pending⟩ := by
  simp [signedAtoms, or_left_comm]

theorem mem_signedAtoms_middle {literals : Clause α} {before after : List (Expr α)} {e : Expr α} {l : Literal α} :
    l ∈ signedAtoms ⟨literals, before ++ e :: after⟩ ↔
      l ∈ e.literals true ∨ l ∈ signedAtoms ⟨literals, before ++ after⟩ := by
  rw [mem_signedAtoms_append, mem_signedAtoms_append, ← List.singleton_append, mem_signedAtoms_append, or_left_comm]
  simp

theorem Rewrites.mem_signedAtoms {d : Disjunction α} {ds : List (Disjunction α)} (h : d.Rewrites ds)
    (l : Literal α) : (∃ d' ∈ ds, l ∈ d'.signedAtoms) ↔ l ∈ d.signedAtoms := by
  cases h with
  | literal before after he =>
    rw [mem_signedAtoms_middle, Expr.literals_of_literal he, List.mem_singleton, ← mem_signedAtoms_insert]
    simp
  | @conjunction literals e parts before after he =>
    -- every copy has what stands beside the member, and there is a copy
    have hcopy : ∃ part, part ∈ parts := List.exists_mem_of_ne_nil parts (Expr.parts_ne_nil he)
    rw [mem_signedAtoms_middle, Expr.mem_literals_of_conjunction he]
    simp only [extend, List.mem_reverse, List.mem_map, exists_exists_and_eq_and, mem_signedAtoms_append, and_or_left,
      exists_or, exists_and_right, hcopy, true_and]

end Disjunction

theorem signedAtoms_of_run {e : Expr α} {ds : List (Disjunction α)} (h : ReflTransGen Rewrites [⟨∅, [e]⟩] ds)
    (l : Literal α) : (∃ d ∈ ds, l ∈ d.signedAtoms) ↔ l ∈ e.literals true := by
  rw [exists_iff_of_run (fun _ _ hd => hd.mem_signedAtoms l) h, ← Disjunction.signedAtoms_start]
  simp

namespace Expr

theorem exists_mem_found_iff (e : Expr α) (l : Literal α) : (∃ c ∈ e.convert.found, l ∈ c) ↔ l ∈ e.literals true := by
  obtain ⟨ds, hrun, hfinished, hmem⟩ := Progress.exists_run_work [⟨∅, [e]⟩] {}
  have hfound (c : Clause α) : c ∈ e.convert.found ↔ ∃ d ∈ ds, d.literals = c := by
    have hc := hmem c
    rwa [or_iff_right OrderedSet.not_mem_empty, List.mem_map] at hc
  rw [← signedAtoms_of_run hrun]
  simp only [hfound, exists_exists_and_eq_and]
  apply exists_congr
  intro d
  apply and_congr_right
  intro hd
  rw [Disjunction.signedAtoms_of_pending (hfinished d hd), OrderedSet.mem_def]

theorem mem_literals_of_toCnf {e : Expr α} {c : Clause α} (hc : c ∈ e.toCnf) {l : Literal α} (hl : l ∈ c) :
    l ∈ e.literals true :=
  (e.exists_mem_found_iff l).mp ⟨c, (Cnf.mem_minimal.mp hc).1, hl⟩

theorem atom_mem_leaves_of_toCnf {e : Expr α} {c : Clause α} (hc : c ∈ e.toCnf) : ∀ l ∈ c, l.atom ∈ e.leaves :=
  fun _ hl => atom_mem_leaves (mem_literals_of_toCnf hc hl)

theorem mem_vars {e : Expr α} {a : α} : a ∈ e.vars ↔ .plain a ∈ e.leaves := by
  simp only [vars, OrderedSet.mem_ofList, List.mem_filterMap]
  constructor
  · rintro ⟨b, hb, h⟩
    cases b <;> cases h
    exact hb
  · exact fun h => ⟨_, h, rfl⟩

theorem mem_sets {e : Expr α} {s : α} : s ∈ e.sets ↔ ∃ b ∈ e.leaves, ∃ r, b.range? = some r ∧ r.set = s := by
  simp [sets]

theorem toCnf_keeps_polarity (e : Expr α) :
    (∀ c ∈ e.toCnf, ∀ l ∈ c, l ∈ e.literals true) ∧
    (∀ c ∈ e.toCnf, ∀ l ∈ c, (∀ a, l.atom = .plain a → a ∈ e.vars) ∧
      ∀ r, l.atom.range? = some r → r.set ∈ e.sets ∧ ∃ b ∈ e.leaves, b.range? = some r) ∧
    (∀ ds, ReflTransGen Rewrites [⟨∅, [e]⟩] ds → ∀ l, (∃ d ∈ ds, l ∈ d.signedAtoms) ↔ l ∈ e.literals true) ∧
    ∀ l, (∃ c ∈ e.convert.found, l ∈ c) ↔ l ∈ e.literals true := by
  refine ⟨fun c hc l hl => mem_literals_of_toCnf hc hl, fun c hc l hl => ?_, fun ds h => signedAtoms_of_run h,
    e.exists_mem_found_iff⟩
  have hleaf := atom_mem_leaves_of_toCnf hc l hl
  constructor
  · intro a ha
    rw [ha] at hleaf
    exact mem_vars.mpr hleaf
  · intro r hr
    exact ⟨mem_sets.mpr ⟨_, hleaf, r, hr, rfl⟩, _, hleaf, hr⟩

theorem toCnf_keeps_polarity_equivalence :
    let e : Expr Nat := .not (.imp (.var 0) (.iff (.var 1) (.one 2 3)))
    let l : Literal Nat := ⟨false, .one ⟨2, 3⟩⟩
    let c : Clause Nat := .ofList [⟨false, .plain 1⟩, l]
    let d : Disjunction Nat := ⟨∅, [.and (.var 0) (.not (.iff (.var 1) (.one 2 3)))]⟩
    c ∈ e.toCnf ∧ l ∈ c ∧ l ∈ e.literals true ∧ 3 ∈ e.sets ∧ (∃ b ∈ e.leaves, b.range? = some ⟨2, 3⟩) ∧
      ReflTransGen Rewrites [⟨∅, [e]⟩] [d] ∧ l ∈ d.signedAtoms ∧ ⟨false, .plain 0⟩ ∉ e.literals true := by
  intro e l c d
  have hc : c ∈ e.toCnf := by decide +kernel
  have hl : l ∈ c := by decide +kernel
  have hexpand : e.expand = .conjunction [d.pending] := rfl
  have hrun : ReflTransGen Rewrites [⟨∅, [e]⟩] [d] := .single (.head (.conjunction [] [] hexpand))
  obtain ⟨hsigned, hoccur, hruns, -⟩ := e.toCnf_keeps_polarity
  have hle := hsigned c hc l hl
  obtain ⟨hset, hrange⟩ := (hoccur c hc l hl).2 ⟨2, 3⟩ rfl
  obtain ⟨_, hd, hld⟩ := (hruns [d] hrun l).mpr hle
  rw [List.mem_singleton.mp hd] at hld
  exact ⟨hc, hl, hle, hset, hrange, hrun, hld, by decide⟩

end Expr

end PseudoBoolean
