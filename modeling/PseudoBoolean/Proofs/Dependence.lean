import PseudoBoolean.Proofs.Cnf.Meaning
import PseudoBoolean.Proofs.Cnf.Polarity
import PseudoBoolean.Proofs.Constraint.Recovery

namespace PseudoBoolean

variable {α : Type} [Ordered α]

namespace Interpretation

/-- Two interpretations agree on the truth values of labels, on the members of sets, and on the truth values of these
members. -/
structure AgreeOn (I J : Interpretation α) (labels sets : OrderedSet α) : Prop where
  value : ∀ a ∈ labels, I.value a = J.value a
  members : ∀ s ∈ sets, I.members s = J.members s
  memberValue : ∀ s ∈ sets, ∀ a ∈ I.members s, I.value a = J.value a

end Interpretation

def Atom.Within (labels sets : OrderedSet α) : Atom α → Prop
  | .plain a => a ∈ labels
  | .one r | .all r => r.set ∈ sets

theorem Atom.Within.set_mem {labels sets : OrderedSet α} {a : Atom α} (ha : a.Within labels sets) {r : Range α}
    (hr : a.range? = some r) : r.set ∈ sets := by
  cases a <;> cases hr <;> exact ha

theorem set_mem_of_quantified {labels sets : OrderedSet α} {c : Clause α} (hc : ∀ l ∈ c, l.atom.Within labels sets)
    {r : Range α} (hr : r ∈ (Constraint.ofClause c).quantified) : r.set ∈ sets := by
  obtain ⟨l, hl, hlr⟩ := (Constraint.mem_quantified_ofClause c r).mp hr
  exact (hc l hl).set_mem (Literal.range?_of_quantified? hlr)

theorem Expr.within_of_mem_leaves {e : Expr α} {a : Atom α} (ha : a ∈ e.leaves) : a.Within e.vars e.sets := by
  cases a with
  | plain a => exact mem_vars.mpr ha
  | one r | all r => exact mem_sets.mpr ⟨_, ha, r, rfl, rfl⟩

omit [Ordered α] in
theorem Expr.eval_congr {e : Expr α} {I J : Interpretation α} (h : ∀ a ∈ e.leaves, a.eval I = a.eval J) :
    e.eval I = e.eval J := by
  induction e with
  | atom a => exact h a (by simp [leaves])
  | not a ih => rw [eval, eval, ih h]
  | and a b iha ihb | or a b iha ihb | imp a b iha ihb | iff a b iha ihb =>
    have ha := iha fun c hc => h c (List.mem_append_left _ hc)
    have hb := ihb fun c hc => h c (List.mem_append_right _ hc)
    rw [eval, eval, ha, hb]

namespace Interpretation.AgreeOn

variable {I J : Interpretation α} {labels sets : OrderedSet α}

theorem map_value (h : I.AgreeOn J labels sets) {s : α} (hs : s ∈ sets) :
    (I.members s).map I.value = (J.members s).map J.value := by
  rw [← h.members s hs]
  exact List.map_congr_left (h.memberValue s hs)

theorem any_members (h : I.AgreeOn J labels sets) {s : α} (hs : s ∈ sets) (p : Bool → Bool) :
    ((I.members s).any fun a => p (I.value a)) = (J.members s).any fun a => p (J.value a) := by
  have hany := congrArg (List.any · p) (h.map_value hs)
  rwa [List.any_map, List.any_map] at hany

theorem eval_atom (h : I.AgreeOn J labels sets) {a : Atom α} (ha : a.Within labels sets) : a.eval I = a.eval J := by
  cases a with
  | plain a => exact h.value a ha
  | one r => exact h.any_members ha id
  | all r =>
    have hall := congrArg (List.all · id) (h.map_value ha)
    rwa [List.all_map, List.all_map] at hall

theorem evalAt_literal (h : I.AgreeOn J labels sets) {binding : α → α} {l : Literal α}
    (hl : l.atom.Within labels sets) (hname : ∀ a, l.name? = some a → I.value (binding a) = J.value (binding a)) :
    l.evalAt I binding = l.evalAt J binding := by
  rcases l with ⟨_ | _, a | r | r⟩
  case false.plain | true.plain => simp only [Literal.evalAt, hname a rfl]
  case false.one | true.all => simp only [Literal.evalAt, hname r.element rfl]
  case false.all => exact h.any_members hl not
  case true.one => exact h.any_members hl id

theorem value_bindAll (h : I.AgreeOn J labels sets) {rs : List (Range α)} (hsets : ∀ r ∈ rs, r.set ∈ sets)
    {choice : Range α → α} (hchoice : ∀ r ∈ rs, choice r ∈ I.members r.set) {a : α}
    (ha : a ∈ labels ∨ ∃ r ∈ rs, r.element = a) :
    I.value (bindAll choice rs id a) = J.value (bindAll choice rs id a) := by
  by_cases hbound : ∃ r ∈ rs, r.element = a
  · obtain ⟨ss, r, ts, rfl, rfl, hts⟩ := exists_last_range hbound
    rw [bindAll_last choice ss hts]
    exact h.memberValue r.set (hsets r (by simp)) _ (hchoice r (by simp))
  · have hfree : ∀ r ∈ rs, r.element ≠ a := fun r hr he => hbound ⟨r, hr, he⟩
    rw [bindAll_of_not_element choice id hfree]
    exact h.value a (ha.resolve_right hbound)

theorem evalAt_bindAll (h : I.AgreeOn J labels sets) {c : Clause α} (hc : ∀ l ∈ c, l.atom.Within labels sets)
    {choice : Range α → α} (hchoice : ∀ r ∈ (Constraint.ofClause c).quantified, choice r ∈ I.members r.set) :
    ∀ l ∈ c, l.evalAt I (bindAll choice (Constraint.ofClause c).quantified.toList id) =
      l.evalAt J (bindAll choice (Constraint.ofClause c).quantified.toList id) := by
  intro l hl
  apply h.evalAt_literal (hc l hl)
  intro a ha
  apply h.value_bindAll _ hchoice
  · rcases Literal.name?_eq_some.mp ha with hplain | ⟨r, hr, he⟩
    · have hlabel := hc l hl
      rw [hplain] at hlabel
      exact .inl hlabel
    · exact .inr ⟨r, (Constraint.mem_quantified_ofClause c r).mpr ⟨l, hl, hr⟩, he⟩
  · intro r hr
    exact set_mem_of_quantified hc hr

theorem holds_ofClause (h : I.AgreeOn J labels sets) {c : Clause α} (hc : ∀ l ∈ c, l.atom.Within labels sets) :
    (Constraint.ofClause c).holds I = (Constraint.ofClause c).holds J := by
  rw [Bool.eq_iff_iff, Constraint.holds, Constraint.holds, Constraint.holdsFor_iff I _ (OrderedSet.nodup _),
    Constraint.holdsFor_iff J _ (OrderedSet.nodup _)]
  simp only [Constraint.holdsAt_ofClause]
  apply forall_congr'
  intro choice
  have hmembers : (∀ r ∈ (Constraint.ofClause c).quantified.toList, choice r ∈ I.members r.set) ↔
      ∀ r ∈ (Constraint.ofClause c).quantified.toList, choice r ∈ J.members r.set := by
    apply forall₂_congr
    intro r hr
    rw [h.members r.set (set_mem_of_quantified hc hr)]
  rw [← hmembers]
  apply imp_congr_right
  intro hchoice
  apply exists_congr
  intro l
  apply and_congr_right
  intro hl
  rw [h.evalAt_bindAll hc hchoice l hl]

end Interpretation.AgreeOn

theorem Expr.eval_eq_of_agreeOn {e : Expr α} {I J : Interpretation α} (h : I.AgreeOn J e.vars e.sets) :
    e.eval I = e.eval J ∧ e.toCnf.eval I = e.toCnf.eval J ∧ ∀ k ∈ e.toCnf.constraints, k.holds I = k.holds J := by
  have heval : e.eval I = e.eval J := eval_congr fun a ha => h.eval_atom (within_of_mem_leaves ha)
  refine ⟨heval, ?_, ?_⟩
  · rw [toCnf, Conversion.cnf, Cnf.eval_minimal, Cnf.eval_minimal, eval_found, eval_found, heval]
  · rw [Cnf.constraints, List.forall_mem_map]
    intro c hc
    apply h.holds_ofClause
    intro l hl
    exact within_of_mem_leaves (atom_mem_leaves_of_toCnf hc l hl)

theorem Expr.eval_eq_of_agreeOn_shared_elements :
    let e : Expr String := .or (.imp (.one "x" "X") (.all "x" "Y")) (.and (.var "a") (.all "a" "X"))
    let I : Interpretation String :=
      ⟨fun b => b == "a" || b == "p", fun s => if s == "X" then ["p", "q", "p"] else if s == "Y" then ["q"] else []⟩
    let J := (I.set "x" true).define "Z" ["a"]
    I.value "x" ≠ J.value "x" ∧ I.members "Z" ≠ J.members "Z" ∧ I.AgreeOn J e.vars e.sets ∧ e.eval I = e.eval J ∧
      e.toCnf.eval I = e.toCnf.eval J ∧ ∀ k ∈ e.toCnf.constraints, k.holds I = k.holds J := by
  intro e I J
  have h : I.AgreeOn J e.vars e.sets := ⟨by decide +kernel, by decide +kernel, by decide +kernel⟩
  exact ⟨by decide, by decide, h, eval_eq_of_agreeOn h⟩

end PseudoBoolean
