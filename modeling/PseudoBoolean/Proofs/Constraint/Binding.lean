import PseudoBoolean.Constraint.Holds
import Mathlib.Data.List.Nodup

namespace PseudoBoolean

variable {α : Type} [Ordered α]

/-- What the elements of the ranges stand for under a choice of members; of several ranges with one
element the last decides. -/
def bindAll (choice : Range α → α) (rs : List (Range α)) (binding : α → α) : α → α :=
  rs.foldl (fun binding r => Interpretation.update binding r.element (choice r)) binding

theorem bindAll_congr {choice choice' : Range α → α} {rs : List (Range α)} (h : ∀ r ∈ rs, choice r = choice' r)
    (binding : α → α) : bindAll choice rs binding = bindAll choice' rs binding := by
  apply List.foldl_ext
  intro binding r hr
  rw [h r hr]

theorem bindAll_of_not_element (choice : Range α → α) {rs : List (Range α)} (binding : α → α) {a : α}
    (h : ∀ r ∈ rs, r.element ≠ a) : bindAll choice rs binding a = binding a := by
  classical
  induction rs generalizing binding with
  | nil => rfl
  | cons r rs ih =>
    have hr : a ≠ r.element := fun ha => h r (by simp) ha.symm
    have htail := ih (Interpretation.update binding r.element (choice r)) fun s hs => h s (by simp [hs])
    rw [Interpretation.update_apply, if_neg hr] at htail
    exact htail

theorem bindAll_last (choice : Range α → α) (rs : List (Range α)) {r : Range α} {ss : List (Range α)}
    (h : ∀ s ∈ ss, s.element ≠ r.element) (binding : α → α) :
    bindAll choice (rs ++ r :: ss) binding r.element = choice r := by
  classical
  have hlast := bindAll_of_not_element choice
    (Interpretation.update (bindAll choice rs binding) r.element (choice r)) h
  rw [Interpretation.update_apply, if_pos rfl] at hlast
  rw [bindAll, List.foldl_append]
  exact hlast

omit [Ordered α] in
theorem exists_last_range {rs : List (Range α)} {a : α} (h : ∃ r ∈ rs, r.element = a) :
    ∃ ss r ts, rs = ss ++ r :: ts ∧ r.element = a ∧ ∀ t ∈ ts, t.element ≠ a := by
  induction rs with
  | nil => simp at h
  | cons r rs ih =>
    by_cases hlater : ∃ s ∈ rs, s.element = a
    · obtain ⟨ss, s, ts, rfl, hs, hts⟩ := ih hlater
      exact ⟨r :: ss, s, ts, rfl, hs, hts⟩
    · have hnone : ∀ s ∈ rs, s.element ≠ a := fun s hs he => hlater ⟨s, hs, he⟩
      obtain ⟨s, hs, he⟩ := h
      rcases List.mem_cons.mp hs with rfl | hs
      · exact ⟨[], s, rs, rfl, he, hnone⟩
      · exact absurd he (hnone s hs)

theorem bindAll_element (choice : Range α → α) {rs : List (Range α)} (binding : α → α) {r : Range α} (hr : r ∈ rs)
    (h : ∀ s ∈ rs, s.element = r.element → s = r) : bindAll choice rs binding r.element = choice r := by
  obtain ⟨ss, s, ts, rfl, he, hts⟩ := exists_last_range ⟨r, hr, rfl⟩
  obtain rfl := h s (by simp) he
  exact bindAll_last choice ss hts binding

theorem forall_choice_cons {I : Interpretation α} {r : Range α} {rs : List (Range α)} (hr : r ∉ rs)
    (binding : α → α) (p : (α → α) → Prop) :
    (∀ choice : Range α → α, (∀ s ∈ r :: rs, choice s ∈ I.members s.set) → p (bindAll choice (r :: rs) binding)) ↔
      ∀ a ∈ I.members r.set, ∀ choice : Range α → α, (∀ s ∈ rs, choice s ∈ I.members s.set) →
        p (bindAll choice rs (Interpretation.update binding r.element a)) := by
  classical
  constructor
  · intro h a ha choice hc
    have hne : ∀ s ∈ rs, s ≠ r := fun s hs he => hr (he ▸ hs)
    have hall := h (Function.update choice r a) (by
      intro s hs
      rcases List.mem_cons.mp hs with rfl | hs
      · simpa using ha
      · simpa [hne s hs] using hc s hs)
    have hrest : bindAll (Function.update choice r a) rs = bindAll choice rs := by
      funext b
      exact bindAll_congr (fun s hs => Function.update_of_ne (hne s hs) _ _) b
    rw [bindAll, List.foldl_cons, ← bindAll, Function.update_self, hrest] at hall
    exact hall
  · intro h choice hc
    exact h (choice r) (hc r (by simp)) choice fun s hs => hc s (by simp [hs])

namespace Constraint

theorem holdsFor_iff (I : Interpretation α) (k : Constraint α) {rs : List (Range α)} (hrs : rs.Nodup)
    (binding : α → α) :
    k.holdsFor I rs binding = true ↔ ∀ choice : Range α → α, (∀ r ∈ rs, choice r ∈ I.members r.set) →
      k.holdsAt I (bindAll choice rs binding) = true := by
  induction rs generalizing binding with
  | nil => exact ⟨fun h _ _ => h, fun h => h Range.element (by simp)⟩
  | cons r rs ih =>
    obtain ⟨hr, hrs⟩ := List.nodup_cons.mp hrs
    rw [forall_choice_cons hr binding fun b => k.holdsAt I b = true]
    simp only [holdsFor, List.all_eq_true, ih hrs]

end Constraint

end PseudoBoolean
