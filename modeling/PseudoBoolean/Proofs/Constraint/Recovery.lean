import PseudoBoolean.Proofs.Constraint.Faithful

namespace PseudoBoolean

variable {α : Type}

namespace Literal

def through (positive : Bool) (r : Range α) : Literal α := ⟨positive, if positive then .all r else .one r⟩

def counting (positive : Bool) (r : Range α) : Literal α := ⟨positive, if positive then .one r else .all r⟩

@[elab_as_elim] theorem sign_cases {motive : Literal α → Prop} (plain : ∀ b a, motive ⟨b, .plain a⟩)
    (through : ∀ b r, motive (.through b r)) (counting : ∀ b r, motive (.counting b r)) (l : Literal α) : motive l := by
  rcases l with ⟨_ | _, a | r | r⟩
  case false.plain | true.plain => exact plain _ a
  case false.one | true.all => exact through _ r
  case false.all | true.one => exact counting _ r

def name? (l : Literal α) : Option α :=
  match l.positive, l.atom with
  | _, .plain a => some a
  | false, .one r | true, .all r => some r.element
  | _, _ => none

def counted? (l : Literal α) : Option (Range α) :=
  match l.positive, l.atom with
  | true, .one r | false, .all r => some r
  | _, _ => none

theorem quantified?_through (b : Bool) (r : Range α) : (through b r).quantified? = some r := by
  cases b <;> rfl

theorem name?_eq_some {l : Literal α} {a : α} :
    l.name? = some a ↔ l.atom = .plain a ∨ ∃ r, l.quantified? = some r ∧ r.element = a := by
  rcases l with ⟨_ | _, b | r | r⟩ <;> simp [name?, quantified?]

theorem counted?_eq_some {l : Literal α} {r : Range α} : l.counted? = some r ↔ l = counting l.positive r := by
  rcases l with ⟨_ | _, b | s | s⟩ <;> simp [counted?, counting]

theorem quantified?_eq_some_iff_through {l : Literal α} {r : Range α} :
    l.quantified? = some r ↔ l = through l.positive r := by
  rcases l with ⟨_ | _, b | s | s⟩ <;> simp [quantified?, through]

end Literal

namespace LinearSum

def names (s : LinearSum α) (positive : Bool) : List α := if positive then s.plus else s.minus

def ranges (s : LinearSum α) (positive : Bool) : List (Range α) := if positive then s.plusSets else s.minusSets

end LinearSum

variable [Ordered α]

namespace Constraint

theorem names_foldl (b : Bool) (ls : List (Literal α)) (k : Constraint α) :
    (ls.foldl addLiteral k).sum.names b =
      k.sum.names b ++ (ls.filter fun l => l.positive == b).filterMap Literal.name? := by
  induction ls generalizing k with
  | nil => simp
  | cons l ls ih =>
    rw [List.foldl_cons, ih]
    rcases l with ⟨_ | _, a | r | r⟩ <;> cases b <;>
      simp [addLiteral, LinearSum.names, List.filterMap_cons, Literal.name?]

theorem ranges_foldl (b : Bool) (ls : List (Literal α)) (k : Constraint α) :
    (ls.foldl addLiteral k).sum.ranges b =
      k.sum.ranges b ++ (ls.filter fun l => l.positive == b).filterMap Literal.counted? := by
  induction ls generalizing k with
  | nil => simp
  | cons l ls ih =>
    rw [List.foldl_cons, ih]
    rcases l with ⟨_ | _, a | r | r⟩ <;> cases b <;>
      simp [addLiteral, LinearSum.ranges, List.filterMap_cons, Literal.counted?]

theorem bound_foldl {ls : List (Literal α)} {k : Constraint α}
    (h : k.bound = ⟨1 - (k.sum.minus.length : Int), k.sum.minusSets⟩) :
    (ls.foldl addLiteral k).bound =
      ⟨1 - ((ls.foldl addLiteral k).sum.minus.length : Int), (ls.foldl addLiteral k).sum.minusSets⟩ := by
  induction ls generalizing k with
  | nil => exact h
  | cons l ls ih =>
    apply ih
    rcases l with ⟨_ | _, a | r | r⟩
    case false.plain | false.one =>
      simp only [addLiteral, h, List.length_append, List.length_singleton, Bound.mk.injEq, and_true]
      omega
    case false.all | true.plain | true.one | true.all => simp [addLiteral, h]

theorem mem_names_ofClause {c : Clause α} {b : Bool} {a : α} :
    a ∈ (ofClause c).sum.names b ↔ ∃ l ∈ c, l.positive = b ∧ l.name? = some a := by
  have hnone : (unsatisfiable : Constraint α).sum.names b = [] := by cases b <;> rfl
  rw [ofClause, names_foldl, hnone, List.nil_append, List.mem_filterMap]
  simp [OrderedSet.mem_def, and_assoc]

theorem mem_ranges_ofClause {c : Clause α} {b : Bool} {r : Range α} :
    r ∈ (ofClause c).sum.ranges b ↔ .counting b r ∈ c := by
  have hnone : (unsatisfiable : Constraint α).sum.ranges b = [] := by cases b <;> rfl
  rw [ofClause, ranges_foldl, hnone, List.nil_append, List.mem_filterMap]
  simp only [List.mem_filter, beq_iff_eq, Literal.counted?_eq_some]
  constructor
  · rintro ⟨l, ⟨hl, rfl⟩, hr⟩
    exact hr ▸ hl
  · intro hl
    exact ⟨_, ⟨hl, rfl⟩, rfl⟩

theorem bound_ofClause (c : Clause α) :
    (ofClause c).bound = ⟨1 - ((ofClause c).sum.minus.length : Int), (ofClause c).sum.minusSets⟩ :=
  bound_foldl rfl

/-- The literals of a sign that a constraint is read as. A name is a variable unless it is an element, and a range is
gone through with the sign that its element has. -/
def literals (k : Constraint α) (b : Bool) : List (Literal α) :=
  let elements : OrderedSet α := .ofList (k.quantified.toList.map Range.element)
  let names : OrderedSet α := .ofList (k.sum.names b)
  ((k.sum.names b).filter (· ∉ elements)).map (⟨b, .plain ·⟩) ++
    (k.quantified.toList.filter (·.element ∈ names)).map (.through b) ++ (k.sum.ranges b).map (.counting b)

def clause (k : Constraint α) : Clause α := .ofList (k.literals true ++ k.literals false)

theorem mem_clause_plain {k : Constraint α} {b : Bool} {a : α} :
    ⟨b, .plain a⟩ ∈ k.clause ↔ a ∈ k.sum.names b ∧ ∀ r ∈ k.quantified, r.element ≠ a := by
  cases b <;> simp [clause, literals, Literal.through, Literal.counting, ← OrderedSet.mem_def]

theorem mem_clause_through {k : Constraint α} {b : Bool} {r : Range α} :
    .through b r ∈ k.clause ↔ r ∈ k.quantified ∧ r.element ∈ k.sum.names b := by
  cases b <;> simp [clause, literals, Literal.through, Literal.counting, ← OrderedSet.mem_def]

theorem mem_clause_counting {k : Constraint α} {b : Bool} {r : Range α} :
    .counting b r ∈ k.clause ↔ r ∈ k.sum.ranges b := by
  cases b <;> simp [clause, literals, Literal.through, Literal.counting]

theorem clause_ofClause {c : Clause α} (hs : c.Separated) : (ofClause c).clause = c := by
  apply OrderedSet.ext_mem
  intro l
  cases l using Literal.sign_cases with
  | plain b a =>
    simp only [mem_clause_plain, mem_names_ofClause, mem_quantified_ofClause, Literal.name?_eq_some]
    constructor
    · rintro ⟨⟨l, hl, rfl, ha | ⟨r, hr, he⟩⟩, hfree⟩
      · rw [← ha]
        exact hl
      · exact absurd he (hfree r ⟨l, hl, hr⟩)
    · intro hl
      refine ⟨⟨_, hl, rfl, .inl rfl⟩, ?_⟩
      rintro r ⟨m, hm, hr⟩ rfl
      exact hs.labels m hm _ hl r hr rfl
  | through b r =>
    simp only [mem_clause_through, mem_names_ofClause, mem_quantified_ofClause, Literal.name?_eq_some]
    constructor
    · -- whatever contributes the element is the literal that goes through the range
      rintro ⟨⟨m, hm, hr⟩, l, hl, rfl, ha | ⟨s, hls, he⟩⟩
      · exact absurd ha (hs.labels m hm l hl r hr)
      · obtain rfl := hs.elements l hl m hm s hls r hr he
        rw [← Literal.quantified?_eq_some_iff_through.mp hr]
        exact hl
    · intro hl
      have hr := Literal.quantified?_through b r
      exact ⟨⟨_, hl, hr⟩, _, hl, rfl, .inr ⟨r, hr, rfl⟩⟩
  | counting b r => rw [mem_clause_counting, mem_ranges_ofClause]

theorem eq_of_ofClause_eq {c d : Clause α} (hc : c.elements.Nodup) (hcv : ∀ x ∈ c.elements, x ∉ c.vars)
    (hd : d.elements.Nodup) (hdv : ∀ x ∈ d.elements, x ∉ d.vars) (h : ofClause c = ofClause d) : c = d := by
  rw [← clause_ofClause (Clause.separated_of_nodup hc hcv), h, clause_ofClause (Clause.separated_of_nodup hd hdv)]

theorem eq_of_ofClause_eq_every_kind :
    let ls : List (Literal String) := [⟨true, .plain "a"⟩, ⟨false, .plain "a"⟩, .through true ⟨"x", "X"⟩,
      .through false ⟨"y", "X"⟩, .counting true ⟨"x", "X"⟩, .counting false ⟨"a", "X"⟩]
    let c : Clause String := .ofList ls
    let d : Clause String := .ofList ls.reverse
    c.elements = ["y", "x"] ∧ c.vars = ["a", "a"] ∧ ofClause c = ofClause d ∧ c = d := by
  intro ls c d
  have hc : c.elements = ["y", "x"] := by decide +kernel
  have hcv : c.vars = ["a", "a"] := by decide +kernel
  have hd : d.elements = ["y", "x"] := by decide +kernel
  have hdv : d.vars = ["a", "a"] := by decide +kernel
  have h : ofClause c = ofClause d :=
    ext (OrderedSet.ext (by decide +kernel)) (by decide +kernel) (by decide +kernel)
  refine ⟨hc, hcv, h, eq_of_ofClause_eq ?_ ?_ ?_ ?_ h⟩
  · rw [hc]
    decide
  · rw [hc, hcv]
    decide
  · rw [hd]
    decide
  · rw [hd, hdv]
    decide

-- with one element for two ranges it is lost which of them belongs to which literal
example :
    let c : Clause String := .ofList [.through true ⟨"x", "X"⟩, .through false ⟨"x", "Y"⟩]
    let d : Clause String := .ofList [.through false ⟨"x", "X"⟩, .through true ⟨"x", "Y"⟩]
    ofClause c = ofClause d ∧ c.toList ≠ d.toList :=
  ⟨ext (OrderedSet.ext (by decide +kernel)) (by decide +kernel) (by decide +kernel), by decide +kernel⟩

end Constraint

end PseudoBoolean
