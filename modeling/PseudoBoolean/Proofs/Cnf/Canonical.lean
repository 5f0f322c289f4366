import PseudoBoolean.Proofs.Cnf.Valuation

namespace PseudoBoolean

variable {α : Type} [Ordered α]

theorem exists_le_of_satisfied {s t : Set (Clause α)} (h : ∀ v, Satisfied v t → Satisfied v s) {c : Clause α}
    (hc : c ∈ s) : ∃ d ∈ t, d ≤ c := by
  -- only the literals of `c` are false, so a clause is false exactly if it is a part of `c`
  by_contra hne
  have ht : Satisfied (fun l => !c.contains l) t := by
    intro d hd
    by_contra hfalse
    apply hne
    refine ⟨d, hd, fun l hl => ?_⟩
    by_contra hlc
    exact hfalse ⟨l, hl, by simpa [← Bool.not_eq_true] using hlc⟩
  obtain ⟨l, hl, hv⟩ := h _ ht c hc
  have hcontains : c.contains l = true := OrderedSet.contains_iff_mem.mpr hl
  simp [hcontains] at hv

theorem minimal_of_satisfied {s t : Set (Clause α)} (h : ∀ v, Satisfied v s ↔ Satisfied v t) {c : Clause α}
    (hc : Minimal (· ∈ s) c) : Minimal (· ∈ t) c := by
  have hst {d : Clause α} (hd : d ∈ t) (hle : d ≤ c) : c ≤ d := by
    obtain ⟨c', hc', hle'⟩ := exists_le_of_satisfied (fun v => (h v).mp) hd
    exact (hc.le_of_le hc' (hle'.trans hle)).trans hle'
  obtain ⟨d, hd, hle⟩ := exists_le_of_satisfied (fun v => (h v).mpr) hc.prop
  obtain rfl := hle.antisymm (hst hd hle)
  exact ⟨hd, fun d' hd' hle' => hst hd' hle'⟩

theorem minimal_iff_of_satisfied {s t : Set (Clause α)} :
    (∀ c, Minimal (· ∈ s) c ↔ Minimal (· ∈ t) c) ↔ ∀ v, Satisfied v s ↔ Satisfied v t := by
  constructor
  · intro h v
    rw [← satisfied_minimal v s, ← satisfied_minimal v t]
    simp only [h]
  · intro h c
    exact ⟨minimal_of_satisfied h, minimal_of_satisfied fun v => (h v).symm⟩

namespace Expr

omit [Ordered α]

inductive Rearranges : Expr α → Expr α → Prop
  | refl (a) : Rearranges a a
  | symm {a b} : Rearranges a b → Rearranges b a
  | trans {a b c} : Rearranges a b → Rearranges b c → Rearranges a c
  | not {a b} : Rearranges a b → Rearranges (.not a) (.not b)
  | and {a b c d} : Rearranges a b → Rearranges c d → Rearranges (.and a c) (.and b d)
  | or {a b c d} : Rearranges a b → Rearranges c d → Rearranges (.or a c) (.or b d)
  | imp {a b c d} : Rearranges a b → Rearranges c d → Rearranges (.imp a c) (.imp b d)
  | iff {a b c d} : Rearranges a b → Rearranges c d → Rearranges (.iff a c) (.iff b d)
  | and_comm (a b) : Rearranges (.and a b) (.and b a)
  | or_comm (a b) : Rearranges (.or a b) (.or b a)
  | and_assoc (a b c) : Rearranges (.and (.and a b) c) (.and a (.and b c))
  | or_assoc (a b c) : Rearranges (.or (.or a b) c) (.or a (.or b c))
  | and_or (a b c) : Rearranges (.and a (.or b c)) (.or (.and a b) (.and a c))
  | or_and (a b c) : Rearranges (.or a (.and b c)) (.and (.or a b) (.or a c))
  | and_absorb (a b) : Rearranges (.and a (.or a b)) a
  | or_absorb (a b) : Rearranges (.or a (.and a b)) a
  | and_self (a) : Rearranges (.and a a) a
  | or_self (a) : Rearranges (.or a a) a
  | not_and (a b) : Rearranges (.not (.and a b)) (.or (.not a) (.not b))
  | not_or (a b) : Rearranges (.not (.or a b)) (.and (.not a) (.not b))
  | not_not (a) : Rearranges (.not (.not a)) a
  | imp_or (a b) : Rearranges (.imp a b) (.or (.not a) b)

theorem Rearranges.value_eq {a b : Expr α} (h : Rearranges a b) (v : Literal α → Bool) (positive : Bool) :
    a.value v positive = b.value v positive := by
  induction h generalizing positive with
  | refl => rfl
  | symm _ ih => exact (ih positive).symm
  | trans _ _ ih ih' => exact (ih positive).trans (ih' positive)
  | not _ ih => simp only [value, ih]
  | and _ _ ih ih' | or _ _ ih ih' | imp _ _ ih ih' | iff _ _ ih ih' => cases positive <;> simp only [value, ih, ih']
  | and_comm | or_comm => cases positive <;> simp only [value, Bool.and_comm, Bool.or_comm]
  | and_assoc | or_assoc => cases positive <;> simp only [value, Bool.and_assoc, Bool.or_assoc]
  | and_or =>
    cases positive
    · exact Bool.or_and_distrib_left _ _ _
    · exact Bool.and_or_distrib_left _ _ _
  | or_and =>
    cases positive
    · exact Bool.and_or_distrib_left _ _ _
    · exact Bool.or_and_distrib_left _ _ _
  | and_absorb a b | or_absorb a b =>
    cases positive <;> simp only [value] <;> cases a.value v _ <;> simp
  | and_self | or_self => cases positive <;> simp only [value, Bool.and_self, Bool.or_self]
  | not_and | not_or | not_not | imp_or => cases positive <;> rfl

end Expr

theorem Expr.toCnf_eq_toCnf_iff (e₁ e₂ : Expr α) :
    (e₁.toCnf = e₂.toCnf ↔ ∀ v : Literal α → Bool, e₁.value v true = e₂.value v true) ∧
    (Rearranges e₁ e₂ → e₁.toCnf = e₂.toCnf) := by
  have hmem : e₁.toCnf = e₂.toCnf ↔ ∀ c, c ∈ e₁.toCnf ↔ c ∈ e₂.toCnf :=
    ⟨fun h c => by rw [h], OrderedSet.ext_mem⟩
  have hvalue : e₁.toCnf = e₂.toCnf ↔ ∀ v, e₁.value v true = e₂.value v true := by
    rw [hmem]
    simp only [mem_toCnf, minimal_iff_of_satisfied, satisfied_clauses, ← Bool.eq_iff_iff]
  refine ⟨hvalue, fun h => ?_⟩
  rw [hvalue]
  intro v
  exact h.value_eq v true

theorem Expr.toCnf_eq_toCnf_iff_distributed :
    let e₁ : Expr Nat := .imp (.not (.not (.var 0))) (.and (.var 1) (.one 2 3))
    let e₂ : Expr Nat := .and (.or (.not (.var 0)) (.var 1)) (.or (.not (.var 0)) (.one 2 3))
    Rearranges e₁ e₂ ∧ e₁.toCnf = e₂.toCnf := by
  intro e₁ e₂
  have h : Rearranges e₁ e₂ :=
    .trans (.imp (.not_not _) (.refl _)) (.trans (.imp_or _ _) (.or_and _ _ _))
  exact ⟨h, (toCnf_eq_toCnf_iff e₁ e₂).2 h⟩

end PseudoBoolean
