import PseudoBoolean.Constraint.Basic
import PseudoBoolean.Proofs.Cnf.WellFormed

namespace PseudoBoolean

variable {α : Type}

theorem literals?_eq (ms : List (Expr α)) :
    literals? ms =
      match ms.find? fun m => !m.isLiteral with
      | some m => .error ⟨m⟩
      | none => .ok (ms.filterMap Expr.literal?) := by
  induction ms with
  | nil => rfl
  | cons m ms ih =>
    rw [literals?, ih]
    cases hm : m.literal? with
    | none => simp [Expr.isLiteral, hm]
    | some l =>
      rw [List.find?_cons_of_neg (by simp [Expr.isLiteral, hm]), List.filterMap_cons_some hm]
      cases ms.find? fun m => !m.isLiteral <;> rfl

def memberSets (mss : List (List (Expr α))) : Set (Set (Expr α)) := (fun ms => {m | m ∈ ms}) '' {ms | ms ∈ mss}

theorem memberSets_subset {mss nss : List (List (Expr α))} (h : ∀ ms ∈ mss, ∃ ns ∈ nss, ms ⊆ ns ∧ ns ⊆ ms) :
    memberSets mss ⊆ memberSets nss := by
  rintro _ ⟨ms, hms, rfl⟩
  obtain ⟨ns, hns, hsub, hsup⟩ := h ms hms
  refine ⟨ns, hns, ?_⟩
  ext m
  exact ⟨fun hm => hsup hm, fun hm => hsub hm⟩

variable [Ordered α]

namespace Clause

def ofMembers (ms : List (Expr α)) : Clause α := .ofList (ms.filterMap Expr.literal?)

theorem ofExprs?_eq (ms : List (Expr α)) :
    ofExprs? ms =
      match ms.find? fun m => !m.isLiteral with
      | some m => .error ⟨m⟩
      | none => .ok (ofMembers ms) := by
  rw [ofExprs?, literals?_eq]
  cases ms.find? fun m => !m.isLiteral <;> rfl

theorem ofExprs?_eq_error_iff {ms : List (Expr α)} {m : Expr α} :
    ofExprs? ms = .error ⟨m⟩ ↔ ∃ before after, ms = before ++ m :: after ∧ (∀ n ∈ before, n.isLiteral = true) ∧
      m.isLiteral = false := by
  have hfirst : ofExprs? ms = .error ⟨m⟩ ↔ (ms.find? fun m => !m.isLiteral) = some m := by
    rw [ofExprs?_eq]
    cases ms.find? fun m => !m.isLiteral <;> simp
  rw [hfirst, List.find?_eq_some_iff_append]
  simp only [Bool.not_eq_true', Bool.not_not]
  constructor
  · rintro ⟨hm, before, after, hsplit, hbefore⟩
    exact ⟨before, after, hsplit, hbefore, hm⟩
  · rintro ⟨before, after, hsplit, hbefore, hm⟩
    exact ⟨hm, before, after, hsplit, hbefore⟩

theorem ofExprs?_eq_ok {ms : List (Expr α)} (h : ∀ m ∈ ms, m.isLiteral = true) : ofExprs? ms = .ok (ofMembers ms) := by
  have hnone : (ms.find? fun m => !m.isLiteral) = none := by simpa using h
  rw [ofExprs?_eq, hnone]

theorem exists_ofExprs?_eq_ok_iff {ms : List (Expr α)} :
    (∃ c, ofExprs? ms = .ok c) ↔ ∀ m ∈ ms, m.isLiteral = true := by
  constructor
  · rintro ⟨c, hc⟩
    rw [ofExprs?_eq] at hc
    cases hnone : ms.find? fun m => !m.isLiteral with
    | none => simpa using hnone
    | some m =>
      rw [hnone] at hc
      cases hc
  · exact fun h => ⟨_, ofExprs?_eq_ok h⟩

theorem eq_ofMembers {ms : List (Expr α)} {c : Clause α} (h : ofExprs? ms = .ok c) : c = ofMembers ms := by
  have hok := ofExprs?_eq_ok (exists_ofExprs?_eq_ok_iff.mp ⟨c, h⟩)
  exact Except.ok.inj (h.symm.trans hok)

theorem toExpr_mem_exprs {c : Clause α} {l : Literal α} : l.toExpr ∈ c.exprs ↔ l ∈ c :=
  List.mem_map_of_injective fun _ _ => Literal.toExpr_injective

theorem mem_ofMembers {ms : List (Expr α)} {l : Literal α} : l ∈ ofMembers ms ↔ l.toExpr ∈ ms := by
  simp only [ofMembers, OrderedSet.mem_ofList, List.mem_filterMap, Expr.literal?_eq_some, exists_eq_right]

theorem mem_exprs_ofMembers {ms : List (Expr α)} (h : ∀ m ∈ ms, m.isLiteral = true) (m : Expr α) :
    m ∈ (ofMembers ms).exprs ↔ m ∈ ms := by
  constructor
  · intro hm
    obtain ⟨l, hl, rfl⟩ := List.mem_map.mp hm
    exact mem_ofMembers.mp hl
  · intro hm
    obtain ⟨l, hl⟩ := Option.isSome_iff_exists.mp (h m hm)
    obtain rfl := Expr.literal?_eq_some.mp hl
    exact toExpr_mem_exprs.mpr (mem_ofMembers.mpr hm)

theorem setOf_exprs_injective : Function.Injective fun c : Clause α => {m | m ∈ c.exprs} := by
  intro c d h
  apply OrderedSet.ext_mem
  intro l
  rw [← toExpr_mem_exprs, ← toExpr_mem_exprs]
  exact Set.ext_iff.mp h l.toExpr

end Clause

namespace Cnf

def ofExprs? (mss : List (List (Expr α))) : Except (NonLiteral α) (Cnf α) :=
  (mss.mapM Clause.ofExprs?).map OrderedSet.ofList

theorem ofExprs?_eq_ok {mss : List (List (Expr α))} (h : ∀ ms ∈ mss, ∀ m ∈ ms, m.isLiteral = true) :
    ofExprs? mss = .ok (.ofList (mss.map Clause.ofMembers)) := by
  have hclauses : mss.mapM Clause.ofExprs? = .ok (mss.map Clause.ofMembers) := by
    induction mss with
    | nil => rfl
    | cons ms mss ih =>
      rw [List.mapM_cons, Clause.ofExprs?_eq_ok (h ms List.mem_cons_self),
        ih fun ns hns => h ns (List.mem_cons_of_mem _ hns)]
      rfl
  rw [ofExprs?, hclauses]
  rfl

theorem memberSets_eq {mss : List (List (Expr α))} (h : ∀ ms ∈ mss, ∀ m ∈ ms, m.isLiteral = true) :
    memberSets mss =
      (fun c : Clause α => {m | m ∈ c.exprs}) '' {c | c ∈ OrderedSet.ofList (mss.map Clause.ofMembers)} := by
  have hclauses : {c | c ∈ OrderedSet.ofList (mss.map Clause.ofMembers)} = Clause.ofMembers '' {ms | ms ∈ mss} := by
    ext c
    simp
  rw [hclauses, Set.image_image, memberSets]
  apply Set.image_congr
  intro ms hms
  ext m
  exact (Clause.mem_exprs_ofMembers (h ms hms) m).symm

theorem memberSets_eq_iff {mss nss : List (List (Expr α))} (hm : ∀ ms ∈ mss, ∀ m ∈ ms, m.isLiteral = true)
    (hn : ∀ ns ∈ nss, ∀ n ∈ ns, n.isLiteral = true) :
    memberSets mss = memberSets nss ↔
      OrderedSet.ofList (mss.map Clause.ofMembers) = OrderedSet.ofList (nss.map Clause.ofMembers) := by
  rw [memberSets_eq hm, memberSets_eq hn, Set.image_eq_image Clause.setOf_exprs_injective]
  constructor
  · intro h
    exact OrderedSet.ext_mem (Set.ext_iff.mp h)
  · intro h
    rw [h]

theorem determined_by_memberSets (α : Type) [Ordered α] :
    (∀ ms : List (Expr α), ((∃ c, Clause.ofExprs? ms = .ok c) ↔ ∀ m ∈ ms, m.isLiteral = true) ∧
      (∀ m, Clause.ofExprs? ms = .error ⟨m⟩ ↔ ∃ before after, ms = before ++ m :: after ∧
        (∀ n ∈ before, n.isLiteral = true) ∧ m.isLiteral = false) ∧
      ∀ c, Clause.ofExprs? ms = .ok c → ∀ m, m ∈ c.exprs ↔ m ∈ ms) ∧
    ∀ mss nss : List (List (Expr α)), (∀ ms ∈ mss, ∀ m ∈ ms, m.isLiteral = true) →
      (∀ ns ∈ nss, ∀ n ∈ ns, n.isLiteral = true) →
      ∃ f g, ofExprs? mss = .ok f ∧ ofExprs? nss = .ok g ∧ (memberSets mss = memberSets nss ↔ f = g) ∧
        (memberSets mss = memberSets nss → f.toList = g.toList ∧ f.constraints = g.constraints ∧
          ∀ [ToString α] (style : Style), f.render style = g.render style) := by
  refine ⟨fun ms => ⟨Clause.exists_ofExprs?_eq_ok_iff, fun m => Clause.ofExprs?_eq_error_iff, ?_⟩, ?_⟩
  · intro c hc
    rw [Clause.eq_ofMembers hc]
    exact Clause.mem_exprs_ofMembers (Clause.exists_ofExprs?_eq_ok_iff.mp ⟨c, hc⟩)
  intro mss nss hm hn
  have heq := memberSets_eq_iff hm hn
  refine ⟨_, _, ofExprs?_eq_ok hm, ofExprs?_eq_ok hn, heq, fun h => ?_⟩
  rw [heq.mp h]
  exact ⟨rfl, rfl, fun _ => rfl⟩

theorem determined_by_memberSets_repeated :
    let a : Expr Nat := .var 0
    let b : Expr Nat := .not (.all 1 2)
    let mss := [[a, b], [b], [b, a, b]]
    let nss := [[b, b], [b, a]]
    (∃ c, Clause.ofExprs? [b, a, b] = .ok c ∧ ∀ m, m ∈ c.exprs ↔ m ∈ [b, a, b]) ∧
    memberSets mss = memberSets nss ∧ ∃ f g, ofExprs? mss = .ok f ∧ ofExprs? nss = .ok g ∧ f = g ∧
      f.toList = g.toList ∧ f.constraints = g.constraints ∧ ∀ style : Style, f.render style = g.render style := by
  intro a b mss nss
  have hsets : memberSets mss = memberSets nss :=
    Set.Subset.antisymm (memberSets_subset (by decide)) (memberSets_subset (by decide))
  obtain ⟨hclause, hcnf⟩ := determined_by_memberSets Nat
  obtain ⟨hok, -, hmembers⟩ := hclause [b, a, b]
  obtain ⟨c, hc⟩ := hok.mpr (by decide)
  obtain ⟨f, g, hf, hg, heq, hsame⟩ := hcnf mss nss (by decide) (by decide)
  obtain ⟨horder, hconstraints, htext⟩ := hsame hsets
  exact ⟨⟨c, hc, hmembers c hc⟩, hsets, f, g, hf, hg, heq.mp hsets, horder, hconstraints, fun style => htext style⟩

end Cnf

end PseudoBoolean
