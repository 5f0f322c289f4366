import PseudoBoolean.Proofs.Constraint.Arithmetic
import PseudoBoolean.Proofs.Constraint.Binding
import PseudoBoolean.Proofs.OrderedSet

/-!
A constraint is found to hold if its inequality is true however a member is chosen for each of its ranges. Its table
keeps what was entered for other choices, but what is read of it has been entered on the way to where the search stands.
-/

namespace PseudoBoolean

variable {α : Type}

theorem total_eq_sum {β : Type} (c : β → Nat) (l : List β) : total (fun b => (c b : Int)) l = ((l.map c).sum : Int) := by
  induction l with
  | nil => rfl
  | cons b l ih => rw [total_cons, ih, List.map_cons, List.sum_cons, Nat.cast_add]

theorem total_truth (v : α → Bool) (l : List α) : total (fun a => truth (v a)) l = l.countP v := by
  simp only [truth_eq_toNat, total_eq_sum, sum_map_toNat]

theorem allM_eq_some_true_iff {β : Type} {p : β → Option Bool} {l : List β} :
    l.allM p = some true ↔ ∀ b ∈ l, p b = some true := by
  induction l with
  | nil => simp [List.allM]
  | cons b l ih =>
    rw [List.forall_mem_cons, ← ih, List.allM]
    rcases p b with _ | _ | _ <;> simp

theorem allM_some {β : Type} (q : β → Bool) (l : List β) : l.allM (fun b => some (q b)) = some (l.all q) := by
  induction l with
  | nil => rfl
  | cons b l ih =>
    rw [List.allM, ih, List.all_cons]
    cases q b <;> rfl

theorem run_allM {β σ : Type} {f : β → StateT σ Option Bool} {p : β → Option Bool} (reached : σ → Prop)
    (hf : ∀ b s, reached s → ((f b).run s).map Prod.fst = p b ∧ ∀ x ∈ (f b).run s, reached x.2) (l : List β) {s : σ}
    (hs : reached s) : ((l.allM f).run s).map Prod.fst = l.allM p ∧ ∀ x ∈ (l.allM f).run s, reached x.2 := by
  induction l generalizing s with
  | nil => exact ⟨rfl, by simpa [List.allM] using hs⟩
  | cons b l ih =>
    obtain ⟨hvalue, hnext⟩ := hf b s hs
    rw [List.allM, List.allM, StateT.run_bind, ← hvalue]
    rcases hrun : (f b).run s with _ | ⟨_ | _, t⟩
    · exact ⟨rfl, by simp⟩
    · exact ⟨rfl, by simpa using hnext _ hrun⟩
    · exact ih (hnext _ hrun)

variable [Ordered α]

def SameOutside {β : Type} (rs : List (Range α)) (f g : α → β) : Prop := ∀ a, (∀ r ∈ rs, r.element ≠ a) → f a = g a

namespace SameOutside

variable {β : Type} {r : Range α} {rs : List (Range α)} {f g : α → β}

theorem update (h : SameOutside (r :: rs) f g) (b : β) :
    SameOutside rs (Interpretation.update f r.element b) (Interpretation.update g r.element b) := by
  classical
  intro a ha
  rw [Interpretation.update_apply, Interpretation.update_apply]
  split
  next => rfl
  next hne =>
    apply h a
    intro s hs
    rcases List.mem_cons.mp hs with rfl | hs
    · exact fun he => hne he.symm
    · exact ha s hs

theorem of_update {b : β} (h : SameOutside rs f (Interpretation.update g r.element b)) : SameOutside (r :: rs) f g := by
  classical
  intro a ha
  have hne : a ≠ r.element := fun he => ha r List.mem_cons_self he.symm
  rw [h a fun s hs => ha s (List.mem_cons_of_mem _ hs), Interpretation.update_apply, if_neg hne]

end SameOutside

namespace Constraint

/-- The truth values of names when a member has been chosen for every range: an element has that of the member chosen
for the last of its ranges, and any other name has its own. -/
structure IsReading (k : Constraint α) (I : Interpretation α) (choice : Range α → α) (v : α → Bool) : Prop where
  element : ∀ r ∈ k.quantified, (∀ s ∈ k.quantified, s.element = r.element → compare s r ≠ .gt) →
    v r.element = I.value (choice r)
  other : ∀ a, (∀ r ∈ k.quantified, r.element ≠ a) → v a = I.value a

theorem holdsAt_eq_decide (I : Interpretation α) (k : Constraint α) (binding : α → α) :
    k.holdsAt I binding = decide (k.IsTrueFor I fun a => I.value (binding a)) := by
  have htrue (l : List (Range α)) : total (fun r => (I.trueCount r.set : Int)) l = _ := total_eq_sum _ l
  have hall (l : List (Range α)) : total (fun r => (I.cardinality r.set : Int)) l = _ := total_eq_sum _ l
  rw [holdsAt, LinearSum.value, Bound.value, total_truth, total_truth, htrue, htrue, hall]
  rfl

theorem forall_not_gt_iff {k : Constraint α} {ss ts : List (Range α)} {r : Range α}
    (hsplit : k.quantified.toList = ss ++ r :: ts) :
    (∀ s ∈ k.quantified, s.element = r.element → compare s r ≠ .gt) ↔ ∀ t ∈ ts, t.element ≠ r.element := by
  have hincreasing := k.quantified.increasing
  rw [hsplit, List.pairwise_append, List.pairwise_cons] at hincreasing
  obtain ⟨-, ⟨hafter, -⟩, hbefore⟩ := hincreasing
  simp only [OrderedSet.mem_def, hsplit, List.mem_append, List.mem_cons]
  constructor
  · intro h t ht he
    exact h t (.inr (.inr ht)) he (Std.OrientedCmp.gt_of_lt (hafter t ht))
  · rintro h s (hs | rfl | hs) he
    · rw [hbefore s hs r List.mem_cons_self]
      decide
    · rw [Std.ReflOrd.compare_self]
      decide
    · exact absurd he (h s hs)

theorem isReading_iff {k : Constraint α} {I : Interpretation α} {choice : Range α → α} {v : α → Bool} :
    k.IsReading I choice v ↔ v = fun a => I.value (bindAll choice k.quantified.toList id a) := by
  constructor
  · intro h
    funext a
    by_cases ha : ∃ r ∈ k.quantified.toList, r.element = a
    · obtain ⟨ss, r, ts, hsplit, rfl, hts⟩ := exists_last_range ha
      have hr : r ∈ k.quantified := by
        rw [OrderedSet.mem_def, hsplit]
        simp
      rw [h.element r hr ((forall_not_gt_iff hsplit).mpr hts), hsplit, bindAll_last choice ss hts]
    · have hnone : ∀ r ∈ k.quantified.toList, r.element ≠ a := fun r hr he => ha ⟨r, hr, he⟩
      rw [h.other a hnone, bindAll_of_not_element choice id hnone]
      rfl
  · rintro rfl
    constructor
    · intro r hr hlast
      obtain ⟨ss, ts, hsplit⟩ := List.append_of_mem (OrderedSet.mem_def.mp hr)
      simp only [hsplit, bindAll_last choice ss ((forall_not_gt_iff hsplit).mp hlast)]
    · intro a ha
      simp only [bindAll_of_not_element choice id ha, id]

theorem holds_iff_forall_reading (I : Interpretation α) (k : Constraint α) :
    k.holds I = true ↔ ∀ choice : Range α → α, (∀ r ∈ k.quantified, choice r ∈ I.members r.set) →
      ∀ v, k.IsReading I choice v → k.IsTrueFor I v := by
  rw [holds, holdsFor_iff I k k.quantified.nodup]
  simp only [holdsAt_eq_decide, decide_eq_true_eq, isReading_iff, forall_eq]
  exact Iff.rfl

end Constraint

def everyChoice (I : Interpretation α) (test : (α → α) → Option Bool) : List (Range α) → (α → α) → Option Bool
  | [], binding => test binding
  | r :: rs, binding =>
    (I.members r.set).allM fun a => everyChoice I test rs (Interpretation.update binding r.element a)

section

variable (I : Interpretation α) {rs : List (Range α)}

theorem everyChoice_congr (test : (α → α) → Option Bool) {f g : α → α} (h : SameOutside rs f g) :
    everyChoice I test rs f = everyChoice I test rs g := by
  induction rs generalizing f g with
  | nil =>
    have hfg : f = g := funext fun a => h a (by simp)
    rw [hfg]
  | cons r rs ih =>
    simp only [everyChoice]
    congr 1
    funext a
    exact ih (h.update a)

theorem everyChoice_eq_some_true_iff (test : (α → α) → Option Bool) (hrs : rs.Nodup) (binding : α → α) :
    everyChoice I test rs binding = some true ↔ ∀ choice : Range α → α, (∀ r ∈ rs, choice r ∈ I.members r.set) →
      test (bindAll choice rs binding) = some true := by
  induction rs generalizing binding with
  | nil => exact ⟨fun h _ _ => h, fun h => h Range.element (by simp)⟩
  | cons r rs ih =>
    obtain ⟨hr, hrs⟩ := List.nodup_cons.mp hrs
    rw [forall_choice_cons hr binding fun b => test b = some true, everyChoice, allM_eq_some_true_iff]
    simp only [ih hrs]

theorem everyChoice_const {x : Option Bool} (hx : x ≠ some true) (hmembers : ∀ r ∈ rs, I.members r.set ≠ [])
    (binding : α → α) : everyChoice I (fun _ => x) rs binding = x := by
  induction rs generalizing binding with
  | nil => rfl
  | cons r rs ih =>
    obtain ⟨hr, hrs⟩ := List.forall_mem_cons.mp hmembers
    obtain ⟨a, members, hcons⟩ := List.exists_cons_of_ne_nil hr
    rw [everyChoice, hcons, List.allM, ih hrs]
    rcases x with _ | _ | _
    · rfl
    · rfl
    · exact absurd rfl hx

theorem everyChoice_holdsAt (k : Constraint α) (binding : α → α) :
    everyChoice I (fun b => some (k.holdsAt I b)) rs binding = some (k.holdsFor I rs binding) := by
  induction rs generalizing binding with
  | nil => rfl
  | cons r rs ih =>
    simp only [everyChoice, ih, Constraint.holdsFor]
    exact allM_some _ _

end

theorem standing_update (table : α → Option α) (a b : α) :
    standing (Interpretation.update table a (some b)) = Interpretation.update (standing table) a b := by
  classical
  funext x
  rw [standing, Interpretation.update_apply, Interpretation.update_apply]
  split <;> rfl

namespace Constraint

theorem run_search (o : Overflow) (I : Interpretation α) (k : Constraint α) (rs : List (Range α))
    (table : α → Option α) :
    ((k.search o I rs).run table).map Prod.fst =
        everyChoice I (fun b => k.inequality o I fun a => I.value (b a)) rs (standing table) ∧
      ∀ x ∈ (k.search o I rs).run table, SameOutside rs x.2 table := by
  induction rs generalizing table with
  | nil =>
    have hrun : (k.search o I []).run table =
        (k.inequality o I fun a => I.value (standing table a)).bind fun b => some (b, table) := rfl
    rw [hrun, everyChoice]
    cases k.inequality o I fun a => I.value (standing table a) with
    | none => exact ⟨rfl, by simp⟩
    | some b =>
      refine ⟨rfl, ?_⟩
      rintro _ ⟨⟩
      exact fun _ _ => rfl
  | cons r rs ih =>
    -- the invariant of the loop over the members: earlier ones have changed the table only where it is written again
    apply run_allM fun t => SameOutside (r :: rs) t table
    · intro a t ht
      obtain ⟨hvalue, hframe⟩ := ih (Interpretation.update t r.element (some a))
      have hstanding : SameOutside (r :: rs) (standing t) (standing table) := by
        intro b hb
        rw [standing, standing, ht b hb]
      constructor
      · rw [standing_update, everyChoice_congr I _ (hstanding.update a)] at hvalue
        exact hvalue
      · intro x hx b hb
        exact ((hframe x hx).of_update b hb).trans (ht b hb)
    · exact fun _ _ => rfl

theorem check_eq_everyChoice (o : Overflow) (I : Interpretation α) (k : Constraint α) :
    k.check o I = everyChoice I (fun b => k.inequality o I fun a => I.value (b a)) k.quantified.toList id :=
  (run_search o I k _ _).1

theorem check_eq_some_true_iff (o : Overflow) (I : Interpretation α) (k : Constraint α) :
    k.check o I = some true ↔ ∀ choice : Range α → α, (∀ r ∈ k.quantified, choice r ∈ I.members r.set) →
      ∀ v, k.IsReading I choice v → k.inequality o I v = some true := by
  rw [check_eq_everyChoice, everyChoice_eq_some_true_iff I _ k.quantified.nodup]
  simp only [isReading_iff, forall_eq]
  exact Iff.rfl

theorem check_of_members_eq_nil (o : Overflow) {I : Interpretation α} {k : Constraint α} {r : Range α}
    (hr : r ∈ k.quantified) (hempty : I.members r.set = []) : k.check o I = some true := by
  rw [check_eq_some_true_iff]
  intro choice hchoice
  have hmember := hchoice r hr
  rw [hempty] at hmember
  cases hmember

theorem Sized.check_eq_some_holds {I : Interpretation α} {k : Constraint α} (h : k.Sized I)
    (hdemand : -2 ^ 63 ≤ k.demand I) (o : Overflow) : k.check o I = some (k.holds I) := by
  rw [check_eq_everyChoice, holds, ← everyChoice_holdsAt]
  simp only [h.inequality_eq_isTrueFor o hdemand, holdsAt_eq_decide]

end Constraint

end PseudoBoolean
