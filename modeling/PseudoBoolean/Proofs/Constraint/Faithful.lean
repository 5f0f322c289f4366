import PseudoBoolean.Proofs.Constraint.Binding
import PseudoBoolean.Proofs.Constraint.Inequality
import PseudoBoolean.Proofs.OrderedSet
import Mathlib.Data.List.Pairwise

namespace PseudoBoolean

variable {α : Type}

def Literal.quantified? (l : Literal α) : Option (Range α) :=
  match l.positive, l.atom with
  | false, .one r | true, .all r => some r
  | _, _ => none

theorem Literal.quantified?_eq_some {l : Literal α} {r : Range α} :
    l.quantified? = some r ↔ l = ⟨false, .one r⟩ ∨ l = ⟨true, .all r⟩ := by
  rcases l with ⟨_ | _, a | s | s⟩ <;> simp [quantified?]

theorem Literal.range?_of_quantified? {l : Literal α} {r : Range α} (h : l.quantified? = some r) :
    l.atom.range? = some r := by
  rcases quantified?_eq_some.mp h with rfl | rfl <;> rfl

theorem Literal.exists_refuting_member {I : Interpretation α} (l : Literal α) {r : Range α}
    (hr : l.quantified? = some r) (hf : l.eval I = false) : ∃ a ∈ I.members r.set, I.value a = !l.positive := by
  rcases quantified?_eq_some.mp hr with rfl | rfl
  · simpa [eval, Atom.eval] using hf
  · simpa [eval, Atom.eval] using hf

theorem Literal.evalAt_of_eval {I : Interpretation α} {binding : α → α} (l : Literal α) (ht : l.eval I = true)
    (hlabel : ∀ a, l.atom = .plain a → binding a = a)
    (helement : ∀ r, l.quantified? = some r → binding r.element ∈ I.members r.set) :
    l.evalAt I binding = true := by
  rcases l with ⟨_ | _, a | r | r⟩
  case false.plain | true.plain => simpa [evalAt, eval, Atom.eval, hlabel a rfl] using ht
  case false.one =>
    have hall : ∀ a ∈ I.members r.set, I.value a = false := by simpa [eval, Atom.eval] using ht
    simpa [evalAt] using hall _ (helement r rfl)
  case true.all =>
    have hall : ∀ a ∈ I.members r.set, I.value a = true := by simpa [eval, Atom.eval] using ht
    simpa [evalAt] using hall _ (helement r rfl)
  case true.one | false.all => simpa [evalAt, eval, Atom.eval] using ht

theorem Literal.evalAt_eq_false {I : Interpretation α} {binding : α → α} (l : Literal α) (hf : l.eval I = false)
    (hlabel : ∀ a, l.atom = .plain a → binding a = a)
    (helement : ∀ r, l.quantified? = some r → I.value (binding r.element) = !l.positive) :
    l.evalAt I binding = false := by
  rcases l with ⟨_ | _, a | r | r⟩
  case false.plain | true.plain => simpa [evalAt, eval, Atom.eval, hlabel a rfl] using hf
  case false.one | true.all => simpa [evalAt] using helement r rfl
  case true.one | false.all => simpa [evalAt, eval, Atom.eval] using hf

variable [Ordered α]

/-- No two literals that are gone through share an element, and no variable has the name of one. -/
structure Clause.Separated (c : Clause α) : Prop where
  elements : ∀ l ∈ c, ∀ m ∈ c, ∀ r ∈ l.quantified?, ∀ s ∈ m.quantified?, r.element = s.element → l = m
  labels : ∀ l ∈ c, ∀ m ∈ c, ∀ r ∈ l.quantified?, m.atom ≠ .plain r.element

namespace Constraint

theorem mem_quantified_addLiteral (k : Constraint α) (l : Literal α) (r : Range α) :
    r ∈ (k.addLiteral l).quantified ↔ r ∈ k.quantified ∨ l.quantified? = some r := by
  rcases l with ⟨_ | _, a | s | s⟩ <;> simp [addLiteral, Literal.quantified?, or_comm, eq_comm]

theorem mem_quantified_foldl (ls : List (Literal α)) (k : Constraint α) (r : Range α) :
    r ∈ (ls.foldl addLiteral k).quantified ↔ r ∈ k.quantified ∨ ∃ l ∈ ls, l.quantified? = some r := by
  induction ls generalizing k with
  | nil => simp
  | cons l ls ih => rw [List.foldl_cons, ih, mem_quantified_addLiteral, List.exists_mem_cons_iff, or_assoc]

theorem mem_quantified_ofClause (c : Clause α) (r : Range α) :
    r ∈ (ofClause c).quantified ↔ ∃ l ∈ c, l.quantified? = some r := by
  rw [ofClause, mem_quantified_foldl]
  simp [unsatisfiable, OrderedSet.mem_def]

end Constraint

theorem Clause.Separated.bindAll_label {c : Clause α} (hs : c.Separated) (choice : Range α → α) {l : Literal α}
    (hl : l ∈ c) {a : α} (ha : l.atom = .plain a) :
    bindAll choice (Constraint.ofClause c).quantified.toList id a = a := by
  apply bindAll_of_not_element
  rintro r hr rfl
  obtain ⟨m, hm, hmr⟩ := (Constraint.mem_quantified_ofClause c r).mp hr
  exact hs.labels m hm l hl r hmr ha

theorem Clause.Separated.bindAll_element {c : Clause α} (hs : c.Separated) (choice : Range α → α) {l : Literal α}
    (hl : l ∈ c) {r : Range α} (hr : l.quantified? = some r) :
    bindAll choice (Constraint.ofClause c).quantified.toList id r.element = choice r := by
  apply PseudoBoolean.bindAll_element
  · exact (Constraint.mem_quantified_ofClause c r).mpr ⟨l, hl, hr⟩
  · intro s hs' he
    obtain ⟨m, hm, hms⟩ := (Constraint.mem_quantified_ofClause c s).mp hs'
    obtain rfl := hs.elements m hm l hl s hms r hr he
    exact Option.some.inj (hms.symm.trans hr)

theorem Clause.Separated.exists_refuting_choice {c : Clause α} (hs : c.Separated) {I : Interpretation α}
    (hf : ∀ l ∈ c, l.eval I = false) :
    ∃ choice : Range α → α, ∀ r, ∀ l ∈ c, l.quantified? = some r →
      choice r ∈ I.members r.set ∧ I.value (choice r) = !l.positive := by
  have hrefute : ∀ r, ∃ a, ∀ l ∈ c, l.quantified? = some r → a ∈ I.members r.set ∧ I.value a = !l.positive := by
    intro r
    by_cases hr : ∃ l ∈ c, l.quantified? = some r
    · obtain ⟨l, hl, hlr⟩ := hr
      obtain ⟨a, ha, hv⟩ := l.exists_refuting_member hlr (hf l hl)
      refine ⟨a, fun m hm hmr => ?_⟩
      obtain rfl := hs.elements l hl m hm r hlr r hmr rfl
      exact ⟨ha, hv⟩
    · exact ⟨r.element, fun l hl hlr => absurd ⟨l, hl, hlr⟩ hr⟩
  choose choice hchoice using hrefute
  exact ⟨choice, hchoice⟩

theorem Constraint.holds_ofClause {c : Clause α} (hs : c.Separated) (I : Interpretation α) :
    (ofClause c).holds I = true ↔ c.eval I = true := by
  rw [holds, holdsFor_iff I _ (OrderedSet.nodup _)]
  simp only [holdsAt_ofClause]
  constructor
  · intro h
    by_contra hf
    have hfalse : ∀ l ∈ c, l.eval I = false := by
      intro l hl
      by_contra ht
      exact hf (Clause.eval_iff.mpr ⟨l, hl, by simpa using ht⟩)
    obtain ⟨choice, hchoice⟩ := hs.exists_refuting_choice hfalse
    have hmember : ∀ r ∈ (ofClause c).quantified.toList, choice r ∈ I.members r.set := by
      intro r hr
      obtain ⟨l, hl, hlr⟩ := (mem_quantified_ofClause c r).mp hr
      exact (hchoice r l hl hlr).1
    obtain ⟨l, hl, ht⟩ := h choice hmember
    have hat : l.evalAt I (bindAll choice (ofClause c).quantified.toList id) = false := by
      apply l.evalAt_eq_false (hfalse l hl)
      · intro a ha
        exact hs.bindAll_label choice hl ha
      · intro r hr
        rw [hs.bindAll_element choice hl hr]
        exact (hchoice r l hl hr).2
    rw [hat] at ht
    cases ht
  · intro h choice hc
    obtain ⟨l, hl, ht⟩ := Clause.eval_iff.mp h
    refine ⟨l, hl, ?_⟩
    apply l.evalAt_of_eval ht
    · intro a ha
      exact hs.bindAll_label choice hl ha
    · intro r hr
      rw [hs.bindAll_element choice hl hr]
      exact hc r ((mem_quantified_ofClause c r).mpr ⟨l, hl, hr⟩)

theorem eq_of_nodup_filterMap {β γ : Type} {f : β → Option γ} {l : List β} (h : (l.filterMap f).Nodup) {a b : β}
    (ha : a ∈ l) (hb : b ∈ l) {x : γ} (hax : f a = some x) (hbx : f b = some x) : a = b := by
  have hpair := List.pairwise_filterMap.mp h
  have hsymm : Std.Symm fun a b => ∀ x, f a = some x → ∀ y, f b = some y → x ≠ y :=
    ⟨fun a b hab x hx y hy hxy => hab y hy x hx hxy.symm⟩
  by_contra hne
  exact hpair.forall ha hb hne x hax x hbx rfl

namespace Clause

def elements (c : Clause α) : List α := c.toList.filterMap fun l => l.quantified?.map Range.element

def vars (c : Clause α) : List α := c.toList.filterMap fun l => l.atom.label?

theorem separated_of_nodup {c : Clause α} (helements : c.elements.Nodup)
    (hvars : ∀ x ∈ c.elements, x ∉ c.vars) : c.Separated where
  elements l hl m hm r hr s hs hrs := by
    apply eq_of_nodup_filterMap helements hl hm
    · rw [hr, Option.map_some]
    · rw [hs, Option.map_some, hrs]
  labels l hl m hm r hr ha := by
    apply hvars r.element
    · exact List.mem_filterMap.mpr ⟨l, hl, by rw [hr, Option.map_some]⟩
    · exact List.mem_filterMap.mpr ⟨m, hm, by rw [ha, Atom.label?]⟩

end Clause

theorem Constraint.holds_ofClause_eq_eval {c : Clause α} (helements : c.elements.Nodup)
    (hvars : ∀ x ∈ c.elements, x ∉ c.vars) (I : Interpretation α) : (ofClause c).holds I = c.eval I := by
  rw [Bool.eq_iff_iff]
  exact holds_ofClause (Clause.separated_of_nodup helements hvars) I

theorem Constraint.holds_ofClause_eq_eval_shared_elements :
    let c : Clause String := .ofList [⟨false, .one ⟨"x", "X"⟩⟩, ⟨true, .all ⟨"y", "X"⟩⟩, ⟨true, .one ⟨"x", "Y"⟩⟩,
      ⟨false, .all ⟨"a", "Z"⟩⟩, ⟨true, .plain "a"⟩]
    let I : Interpretation String := ⟨fun a => a == "p", fun s => if s == "X" then ["p", "q", "p"] else []⟩
    c.elements = ["x", "y"] ∧ c.vars = ["a"] ∧ (ofClause c).holds I = c.eval I ∧ c.eval I = false := by
  intro c I
  have helements : c.elements = ["x", "y"] := by decide +kernel
  have hvars : c.vars = ["a"] := by decide +kernel
  refine ⟨helements, hvars, holds_ofClause_eq_eval ?_ ?_ I, by decide +kernel⟩
  · rw [helements]
    decide
  · rw [helements, hvars]
    decide

def Clause.Clashes (c : Clause α) : Prop := ∃ r, ⟨false, .one r⟩ ∈ c ∧ ⟨true, .all r⟩ ∈ c

instance (c : Clause α) : Decidable c.Clashes :=
  decidable_of_iff (∃ l ∈ c.toList, ∃ r ∈ l.quantified?, ⟨false, .one r⟩ ∈ c ∧ ⟨true, .all r⟩ ∈ c) <| by
    constructor
    · rintro ⟨-, -, r, -, h⟩
      exact ⟨r, h⟩
    · rintro ⟨r, h⟩
      exact ⟨_, h.1, r, rfl, h⟩

theorem Constraint.holds_of_clashes {c : Clause α} (h : c.Clashes) (I : Interpretation α) :
    (ofClause c).holds I = true := by
  obtain ⟨r, hone, hall⟩ := h
  rw [holds, holdsFor_iff I _ (OrderedSet.nodup _)]
  intro choice _
  rw [holdsAt_ofClause]
  cases hv : I.value (bindAll choice (ofClause c).quantified.toList id r.element) with
  | false => exact ⟨_, hone, by simp [Literal.evalAt, hv]⟩
  | true => exact ⟨_, hall, by simp [Literal.evalAt, hv]⟩

end PseudoBoolean
