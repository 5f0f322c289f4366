import PseudoBoolean.Proofs.Constraint.Faithful
import PseudoBoolean.Proofs.Constraint.Search

namespace PseudoBoolean

variable {α : Type}

/-- When a literal is true where some names are bound. A variable reads what it is bound to, or itself; the element of
a set that is gone through reads what it is bound to; any other literal looks for a member of its set. -/
inductive Literal.TrueUnder (I : Interpretation α) (binding : α → Option α) : Literal α → Prop
  | bound {a m : α} {b : Bool} (hm : binding a = some m) (hv : I.value m = b) : TrueUnder I binding ⟨b, .plain a⟩
  | free {a : α} {b : Bool} (hm : binding a = none) (hv : I.value a = b) : TrueUnder I binding ⟨b, .plain a⟩
  | notOne {r : Range α} {m : α} (hm : binding r.element = some m) (hv : I.value m = false) :
    TrueUnder I binding ⟨false, .one r⟩
  | all {r : Range α} {m : α} (hm : binding r.element = some m) (hv : I.value m = true) :
    TrueUnder I binding ⟨true, .all r⟩
  | one {r : Range α} {m : α} (hm : m ∈ I.members r.set) (hv : I.value m = true) : TrueUnder I binding ⟨true, .one r⟩
  | notAll {r : Range α} {m : α} (hm : m ∈ I.members r.set) (hv : I.value m = false) :
    TrueUnder I binding ⟨false, .all r⟩

namespace Literal

theorem evalAt_of_trueUnder {I : Interpretation α} {binding : α → Option α} {l : Literal α}
    (h : l.TrueUnder I binding) : l.evalAt I (standing binding) = true := by
  cases h with
  | @bound a m b hm hv => cases b <;> simp [evalAt, standing, hm, hv]
  | @free a b hm hv => cases b <;> simp [evalAt, standing, hm, hv]
  | notOne hm hv | all hm hv => simp [evalAt, standing, hm, hv]
  | one hm hv | notAll hm hv => exact List.any_eq_true.mpr ⟨_, hm, by simp [hv]⟩

theorem trueUnder_plain {I : Interpretation α} {binding : α → Option α} {a : α} {b : Bool}
    (h : I.value (standing binding a) = b) : TrueUnder I binding ⟨b, .plain a⟩ := by
  cases hm : binding a with
  | none =>
    apply TrueUnder.free hm
    rwa [standing, hm] at h
  | some m =>
    apply TrueUnder.bound hm
    rwa [standing, hm] at h

theorem trueUnder_of_evalAt {I : Interpretation α} {binding : α → Option α} {l : Literal α}
    (hbound : ∀ r, l.quantified? = some r → (binding r.element).isSome = true)
    (h : l.evalAt I (standing binding) = true) : l.TrueUnder I binding := by
  rcases l with ⟨_ | _, a | r | r⟩
  case false.plain | true.plain =>
    apply trueUnder_plain
    simpa [evalAt] using h
  case false.one =>
    obtain ⟨m, hm⟩ := Option.isSome_iff_exists.mp (hbound r rfl)
    apply TrueUnder.notOne hm
    simpa [evalAt, standing, hm] using h
  case true.all =>
    obtain ⟨m, hm⟩ := Option.isSome_iff_exists.mp (hbound r rfl)
    apply TrueUnder.all hm
    simpa [evalAt, standing, hm] using h
  case true.one =>
    obtain ⟨m, hm, hv⟩ := List.any_eq_true.mp h
    exact TrueUnder.one hm hv
  case false.all =>
    obtain ⟨m, hm, hv⟩ := List.any_eq_true.mp h
    apply TrueUnder.notAll hm
    simpa using hv

end Literal

variable [Ordered α]

namespace Constraint

theorem holdsAt_ofClause_iff_trueUnder (c : Clause α) (I : Interpretation α) (binding : α → Option α)
    (hbound : ∀ r ∈ (ofClause c).quantified, (binding r.element).isSome = true) :
    (ofClause c).holdsAt I (standing binding) = true ↔ ∃ l ∈ c, l.TrueUnder I binding := by
  rw [holdsAt_ofClause]
  constructor
  · rintro ⟨l, hl, h⟩
    refine ⟨l, hl, Literal.trueUnder_of_evalAt ?_ h⟩
    intro r hr
    exact hbound r ((mem_quantified_ofClause c r).mpr ⟨l, hl, hr⟩)
  · rintro ⟨l, hl, h⟩
    exact ⟨l, hl, Literal.evalAt_of_trueUnder h⟩

theorem holdsAt_ofClause_iff_trueUnder_shared_name :
    let c : Clause String := .ofList [⟨true, .plain "x"⟩, ⟨false, .plain "a"⟩, ⟨true, .all ⟨"x", "X"⟩⟩,
      ⟨true, .all ⟨"x", "Y"⟩⟩, ⟨false, .one ⟨"y", "Y"⟩⟩, ⟨true, .one ⟨"x", "X"⟩⟩, ⟨false, .all ⟨"a", "Y"⟩⟩]
    let I : Interpretation String :=
      ⟨fun a => a == "a" || a == "q", fun s => if s == "X" then ["p", "p"] else ["q", "q"]⟩
    let binding (m : String) : String → Option String := fun a =>
      if a == "x" then some m else if a == "y" then some "q" else none
    (∀ m, ∀ r ∈ (ofClause c).quantified, (binding m r.element).isSome = true) ∧
    (¬ ∃ l ∈ c, l.TrueUnder I (binding "p")) ∧ (ofClause c).holdsAt I (standing (binding "q")) = true := by
  intro c I binding
  have hquantified : (ofClause c).quantified.toList = [⟨"x", "X"⟩, ⟨"x", "Y"⟩, ⟨"y", "Y"⟩] := by decide +kernel
  have hbound : ∀ m, ∀ r ∈ (ofClause c).quantified, (binding m r.element).isSome = true := by
    intro m r hr
    rw [OrderedSet.mem_def, hquantified] at hr
    simp only [List.mem_cons, List.not_mem_nil, or_false] at hr
    rcases hr with rfl | rfl | rfl <;> rfl
  refine ⟨hbound, ?_, ?_⟩
  · rw [← holdsAt_ofClause_iff_trueUnder c I (binding "p") (hbound "p")]
    decide +kernel
  · apply (holdsAt_ofClause_iff_trueUnder c I (binding "q") (hbound "q")).mpr
    exact ⟨⟨true, .plain "x"⟩, by decide +kernel, .bound rfl rfl⟩

end Constraint

end PseudoBoolean
