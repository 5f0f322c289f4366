import PseudoBoolean.Proofs.Cnf.Polarity
import PseudoBoolean.Proofs.Constraint.Recovery

namespace PseudoBoolean

open scoped SetFamily

variable {α β : Type}

def Range.map (f : α → β) (r : Range α) : Range β := ⟨f r.element, f r.set⟩

def Atom.map (f : α → β) : Atom α → Atom β
  | .plain a => .plain (f a)
  | .one r => .one (r.map f)
  | .all r => .all (r.map f)

def Literal.map (f : α → β) (l : Literal α) : Literal β := ⟨l.positive, l.atom.map f⟩

def Expr.map (f : α → β) : Expr α → Expr β
  | .atom a => .atom (a.map f)
  | .not a => .not (a.map f)
  | .and a b => .and (a.map f) (b.map f)
  | .or a b => .or (a.map f) (b.map f)
  | .imp a b => .imp (a.map f) (b.map f)
  | .iff a b => .iff (a.map f) (b.map f)

theorem Range.eq_of_map_eq {f : α → β} {r s : Range α}
    (hf : ∀ x ∈ [r.element, r.set], ∀ y ∈ [s.element, s.set], f x = f y → x = y) (h : r.map f = s.map f) : r = s := by
  obtain ⟨helement, hset⟩ := Range.mk.inj h
  have he := hf r.element (by simp) s.element (by simp) helement
  have hs := hf r.set (by simp) s.set (by simp) hset
  exact congrArg₂ Range.mk he hs

theorem Atom.eq_of_map_eq {f : α → β} {a b : Atom α} (hf : ∀ x ∈ a.labels, ∀ y ∈ b.labels, f x = f y → x = y)
    (h : a.map f = b.map f) : a = b := by
  rcases a with x | r | r <;> rcases b with y | s | s <;>
    simp only [map, plain.injEq, one.injEq, all.injEq, reduceCtorEq] at h
  · rw [hf x (by simp [labels]) y (by simp [labels]) h]
  · rw [Range.eq_of_map_eq hf h]
  · rw [Range.eq_of_map_eq hf h]

theorem Literal.injOn_map {e : Expr α} {f : α → β} (hf : Set.InjOn f {a | a ∈ e.labels}) :
    Set.InjOn (Literal.map f) {l | l.atom ∈ e.leaves} := by
  intro l hl m hm h
  obtain ⟨hsign, hatom⟩ := Literal.mk.inj h
  have hlabel {a : Atom α} (ha : a ∈ e.leaves) {x : α} (hx : x ∈ a.labels) : x ∈ e.labels :=
    List.mem_flatMap.mpr ⟨a, ha, hx⟩
  have heq := Atom.eq_of_map_eq (fun x hx y hy => hf (hlabel hl hx) (hlabel hm hy)) hatom
  exact congrArg₂ Literal.mk hsign heq

variable [Ordered α] [Ordered β]

namespace Expr

theorem clauses_map (f : α → β) (e : Expr α) (positive : Bool) :
    (e.map f).clauses positive = OrderedSet.map (Literal.map f) '' e.clauses positive := by
  have hsups (s t : Set (Clause α)) : OrderedSet.map (Literal.map f) '' (s ⊻ t) =
      OrderedSet.map (Literal.map f) '' s ⊻ OrderedSet.map (Literal.map f) '' t :=
    Set.image_image2_distrib (OrderedSet.map_sup _)
  induction e generalizing positive with
  | atom a =>
    rw [map, clauses, clauses, Set.image_singleton, OrderedSet.map_ofList]
    rfl
  | not a ih => exact ih _
  | and a b iha ihb | or a b iha ihb | imp a b iha ihb | iff a b iha ihb =>
    cases positive <;> simp only [map, clauses, Set.image_union, hsups, iha, ihb]

theorem atom_mem_leaves_of_clauses {e : Expr α} {c : Clause α} (hc : c ∈ e.clauses true) : ∀ l ∈ c, l.atom ∈ e.leaves :=
  fun l hl => atom_mem_leaves ((e.exists_mem_found_iff l).mp ⟨c, (e.mem_found c).mpr hc, hl⟩)

theorem map_le_map_iff_of_clauses {e : Expr α} {f : α → β} (hf : Set.InjOn f {a | a ∈ e.labels}) {c d : Clause α}
    (hc : c ∈ e.clauses true) (hd : d ∈ e.clauses true) :
    c.map (Literal.map f) ≤ d.map (Literal.map f) ↔ c ≤ d := by
  apply OrderedSet.map_le_map_iff
  apply (Literal.injOn_map hf).mono
  rintro l (hl | hl)
  · exact atom_mem_leaves_of_clauses hc l hl
  · exact atom_mem_leaves_of_clauses hd l hl

theorem toCnf_map {e : Expr α} {f : α → β} (hf : Set.InjOn f {a | a ∈ e.labels}) :
    (e.map f).toCnf = e.toCnf.map (OrderedSet.map (Literal.map f)) := by
  have himage := image_monotone_setOfPred_minimal_mem fun c d => map_le_map_iff_of_clauses hf (c := c) (d := d)
  apply OrderedSet.ext_mem
  intro d
  simp only [OrderedSet.mem_map, mem_toCnf, clauses_map]
  exact (Set.ext_iff.mp himage d).symm

theorem injOn_map_toCnf {e : Expr α} {f : α → β} (hf : Set.InjOn f {a | a ∈ e.labels}) :
    Set.InjOn (OrderedSet.map (Literal.map f)) {c | c ∈ e.toCnf} := by
  intro c hc d hd h
  have hc := ((e.mem_toCnf c).mp hc).prop
  have hd := ((e.mem_toCnf d).mp hd).prop
  apply le_antisymm
  · exact (map_le_map_iff_of_clauses hf hc hd).mp h.le
  · exact (map_le_map_iff_of_clauses hf hd hc).mp h.ge

end Expr

def LinearSum.map (f : α → β) (s : LinearSum α) : LinearSum β :=
  ⟨s.plus.map f, s.minus.map f, s.plusSets.map (Range.map f), s.minusSets.map (Range.map f)⟩

def Bound.map (f : α → β) (b : Bound α) : Bound β := ⟨b.constant, b.minusCardinalities.map (Range.map f)⟩

namespace Constraint

def map (f : α → β) (k : Constraint α) : Constraint β :=
  ⟨k.quantified.map (Range.map f), k.sum.map f, k.bound.map f⟩

theorem map_addLiteral (f : α → β) (k : Constraint α) (l : Literal α) :
    (k.addLiteral l).map f = (k.map f).addLiteral (l.map f) := by
  rcases l with ⟨_ | _, a | r | r⟩ <;>
    simp [addLiteral, map, Literal.map, Atom.map, LinearSum.map, Bound.map, OrderedSet.map_insert, Range.map]

theorem map_foldl (f : α → β) (ls : List (Literal α)) (k : Constraint α) :
    (ls.foldl addLiteral k).map f = (ls.map (Literal.map f)).foldl addLiteral (k.map f) := by
  induction ls generalizing k with
  | nil => rfl
  | cons l ls ih => rw [List.foldl_cons, ih, map_addLiteral, List.map_cons, List.foldl_cons]

structure Reorders (k k' : Constraint α) : Prop where
  quantified : k.quantified = k'.quantified
  plus : k.sum.plus.Perm k'.sum.plus
  minus : k.sum.minus.Perm k'.sum.minus
  plusSets : k.sum.plusSets.Perm k'.sum.plusSets
  minusSets : k.sum.minusSets.Perm k'.sum.minusSets
  constant : k.bound.constant = k'.bound.constant
  minusCardinalities : k.bound.minusCardinalities.Perm k'.bound.minusCardinalities

theorem reorders_of_perm {ls ms : List (Literal α)} (h : ls.Perm ms) :
    (ls.foldl addLiteral unsatisfiable).Reorders (ms.foldl addLiteral unsatisfiable) := by
  have hnames (b : Bool) : ((ls.foldl addLiteral unsatisfiable).sum.names b).Perm
      ((ms.foldl addLiteral unsatisfiable).sum.names b) := by
    rw [names_foldl, names_foldl]
    exact ((h.filter _).filterMap _).append_left _
  have hranges (b : Bool) : ((ls.foldl addLiteral unsatisfiable).sum.ranges b).Perm
      ((ms.foldl addLiteral unsatisfiable).sum.ranges b) := by
    rw [ranges_foldl, ranges_foldl]
    exact ((h.filter _).filterMap _).append_left _
  refine ⟨?_, hnames true, hnames false, hranges true, hranges false, ?_, ?_⟩
  · apply OrderedSet.ext_mem
    intro r
    simp only [mem_quantified_foldl, h.mem_iff]
  · rw [bound_foldl rfl, bound_foldl rfl]
    exact congrArg (fun n : Nat => 1 - (n : Int)) (hnames false).length_eq
  · rw [bound_foldl rfl, bound_foldl rfl]
    exact hranges false

theorem reorders_ofClause_map {f : α → β} {c : Clause α} (hf : Set.InjOn (Literal.map f) {l | l ∈ c}) :
    (ofClause (c.map (Literal.map f))).Reorders ((ofClause c).map f) := by
  have hmap : (ofClause c).map f = (c.toList.map (Literal.map f)).foldl addLiteral unsatisfiable := map_foldl f _ _
  rw [hmap]
  exact reorders_of_perm (OrderedSet.toList_map_perm hf)

end Constraint

theorem Expr.toCnf_of_relabelled {e : Expr α} {f : α → β} (hf : Set.InjOn f {a | a ∈ e.labels}) :
    (∀ d, d ∈ (e.map f).toCnf ↔ ∃ c ∈ e.toCnf, c.map (Literal.map f) = d) ∧
    (e.map f).toCnf.toList.Perm (e.toCnf.toList.map (OrderedSet.map (Literal.map f))) ∧
    ∀ c ∈ e.toCnf, (c.map (Literal.map f)).toList.Perm (c.toList.map (Literal.map f)) ∧
      (Constraint.ofClause (c.map (Literal.map f))).Reorders ((Constraint.ofClause c).map f) := by
  rw [toCnf_map hf]
  refine ⟨fun d => OrderedSet.mem_map, OrderedSet.toList_map_perm (injOn_map_toCnf hf), fun c hc => ?_⟩
  have hinj : Set.InjOn (Literal.map f) {l | l ∈ c} := (Literal.injOn_map hf).mono (atom_mem_leaves_of_toCnf hc)
  exact ⟨OrderedSet.toList_map_perm hinj, Constraint.reorders_ofClause_map hinj⟩

theorem Expr.toCnf_of_relabelled_reversed :
    let e : Expr Nat := .and (.or (.var 0) (.var 1)) (.imp (.var 3) (.or (.var 2) (.all 1 4)))
    let f : Nat → Nat := fun n => 5 - n
    let c : Clause Nat := .ofList [⟨true, .plain 0⟩, ⟨true, .plain 1⟩]
    e.toCnf.toList.map OrderedSet.toList =
      [[⟨true, .plain 0⟩, ⟨true, .plain 1⟩], [⟨true, .plain 2⟩, ⟨false, .plain 3⟩, ⟨true, .all ⟨1, 4⟩⟩]] ∧
    (e.map f).toCnf.toList.map OrderedSet.toList =
      [[⟨true, .plain 3⟩, ⟨false, .plain 2⟩, ⟨true, .all ⟨4, 1⟩⟩], [⟨true, .plain 4⟩, ⟨true, .plain 5⟩]] ∧
    Set.InjOn f {a | a ∈ e.labels} ∧ c ∈ e.toCnf ∧ c.map (Literal.map f) ∈ (e.map f).toCnf ∧
      (Constraint.ofClause (c.map (Literal.map f))).Reorders ((Constraint.ofClause c).map f) := by
  intro e f c
  have hlabels : ∀ a ∈ e.labels, ∀ b ∈ e.labels, f a = f b → a = b := by decide
  have hf : Set.InjOn f {a | a ∈ e.labels} := fun a ha b hb => hlabels a ha b hb
  have hc : c ∈ e.toCnf := by decide +kernel
  obtain ⟨hmem, -, hclauses⟩ := toCnf_of_relabelled hf
  exact ⟨by decide +kernel, by decide +kernel, hf, hc, (hmem _).mpr ⟨c, hc, rfl⟩, (hclauses c hc).2⟩

end PseudoBoolean
