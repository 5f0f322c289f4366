/-!
Finite sets kept as strictly increasing lists. Two sets with the same members are equal
(`OrderedSet.ext_mem`), so the listing order of a set depends on its members alone.
-/

namespace PseudoBoolean

class Ordered (α : Type) extends Ord α, Std.TransOrd α, Std.LawfulEqOrd α

instance : Ordered String where
  toOrd := String.instOrd
  toTransCmp := String.instTransOrd
  toLawfulEqCmp := String.instLawfulEqOrd

instance : Ordered Nat where
  toOrd := instOrdNat
  toTransCmp := Nat.instTransOrd
  toLawfulEqCmp := Nat.instLawfulEqOrd

structure OrderedSet (α : Type) [Ordered α] where
  toList : List α
  increasing : toList.Pairwise fun a b => compare a b = .lt

namespace OrderedSet

variable {α : Type} [Ordered α]

@[ext] theorem ext {s t : OrderedSet α} (h : s.toList = t.toList) : s = t := by
  cases s; cases t; cases h; rfl

instance : Membership α (OrderedSet α) := ⟨fun s a => a ∈ s.toList⟩

theorem mem_def {a : α} {s : OrderedSet α} : a ∈ s ↔ a ∈ s.toList := Iff.rfl

def empty : OrderedSet α := ⟨[], .nil⟩

instance : EmptyCollection (OrderedSet α) := ⟨empty⟩

@[simp] theorem toList_empty : (∅ : OrderedSet α).toList = [] := rfl

@[simp] theorem not_mem_empty {a : α} : ¬ a ∈ (∅ : OrderedSet α) := List.not_mem_nil

def size (s : OrderedSet α) : Nat := s.toList.length

def isEmpty (s : OrderedSet α) : Bool := s.toList.isEmpty

def contains (s : OrderedSet α) (a : α) : Bool := s.toList.any fun b => compare a b == .eq

@[simp] theorem contains_iff_mem {s : OrderedSet α} {a : α} : s.contains a = true ↔ a ∈ s := by
  simp [contains, mem_def]

instance (a : α) (s : OrderedSet α) : Decidable (a ∈ s) := decidable_of_iff _ contains_iff_mem

def place (a : α) : List α → List α
  | [] => [a]
  | b :: s =>
    match compare a b with
    | .lt => a :: b :: s
    | .eq => b :: s
    | .gt => b :: place a s

theorem mem_place {a b : α} {s : List α} : b ∈ place a s ↔ b = a ∨ b ∈ s := by
  induction s with
  | nil => simp [place]
  | cons c s ih =>
    simp only [place]
    split
    · simp
    next h => simp [Std.LawfulEqOrd.eq_of_compare h]
    · simp only [List.mem_cons, ih]
      exact or_left_comm

theorem place_increasing {a : α} {s : List α} (h : s.Pairwise fun a b => compare a b = .lt) :
    (place a s).Pairwise fun a b => compare a b = .lt := by
  induction s with
  | nil => simp [place]
  | cons b s ih =>
    have hb := List.pairwise_cons.1 h
    simp only [place]
    split
    next hab =>
      refine List.pairwise_cons.2 ⟨fun c hc => ?_, h⟩
      rcases List.mem_cons.1 hc with rfl | hc
      · exact hab
      · exact Std.TransCmp.lt_trans hab (hb.1 c hc)
    · exact h
    next hab =>
      refine List.pairwise_cons.2 ⟨fun c hc => ?_, ih hb.2⟩
      rcases mem_place.1 hc with rfl | hc
      · exact Std.OrientedCmp.lt_of_gt hab
      · exact hb.1 c hc

def insert (s : OrderedSet α) (a : α) : OrderedSet α := ⟨place a s.toList, place_increasing s.increasing⟩

@[simp] theorem mem_insert {s : OrderedSet α} {a b : α} : b ∈ s.insert a ↔ b = a ∨ b ∈ s := mem_place

def insertAll (s : OrderedSet α) (as : List α) : OrderedSet α := as.foldl insert s

@[simp] theorem mem_insertAll {s : OrderedSet α} {as : List α} {b : α} :
    b ∈ s.insertAll as ↔ b ∈ as ∨ b ∈ s := by
  induction as generalizing s with
  | nil => simp [insertAll]
  | cons a as ih =>
    have h : s.insertAll (a :: as) = (s.insert a).insertAll as := rfl
    rw [h, ih, mem_insert, List.mem_cons, or_left_comm, or_assoc]

def ofList (as : List α) : OrderedSet α := insertAll ∅ as

@[simp] theorem mem_ofList {as : List α} {b : α} : b ∈ ofList as ↔ b ∈ as := by simp [ofList]

def filter (p : α → Bool) (s : OrderedSet α) : OrderedSet α :=
  ⟨s.toList.filter p, s.increasing.filter p⟩

@[simp] theorem mem_filter {p : α → Bool} {s : OrderedSet α} {a : α} :
    a ∈ s.filter p ↔ a ∈ s ∧ p a = true := List.mem_filter

def isSubset (s t : OrderedSet α) : Bool := s.toList.all t.contains

@[simp] theorem isSubset_iff {s t : OrderedSet α} : s.isSubset t = true ↔ ∀ a ∈ s, a ∈ t := by
  simp [isSubset, mem_def]

theorem eq_of_mem_iff {s t : List α} (hs : s.Pairwise fun a b => compare a b = .lt)
    (ht : t.Pairwise fun a b => compare a b = .lt) (h : ∀ a, a ∈ s ↔ a ∈ t) : s = t := by
  induction s generalizing t with
  | nil =>
    cases t with
    | nil => rfl
    | cons b t => exact absurd ((h b).2 (by simp)) (by simp)
  | cons a s ih =>
    cases t with
    | nil => exact absurd ((h a).1 (by simp)) (by simp)
    | cons b t =>
      rw [List.pairwise_cons] at hs ht
      have hab : a = b := by
        rcases List.mem_cons.1 ((h a).1 (by simp)) with hab | hat
        · exact hab
        rcases List.mem_cons.1 ((h b).2 (by simp)) with hba | hbs
        · exact hba.symm
        · exact absurd (hs.1 b hbs) (Std.OrientedCmp.not_lt_of_lt (ht.1 a hat))
      subst hab
      refine congrArg _ (ih hs.2 ht.2 fun c => ?_)
      have irrefl : compare a a ≠ .lt := by simp [Std.ReflOrd.compare_self]
      constructor
      · intro hc
        rcases List.mem_cons.1 ((h c).1 (List.mem_cons_of_mem _ hc)) with rfl | hc'
        · exact absurd (hs.1 c hc) irrefl
        · exact hc'
      · intro hc
        rcases List.mem_cons.1 ((h c).2 (List.mem_cons_of_mem _ hc)) with rfl | hc'
        · exact absurd (ht.1 c hc) irrefl
        · exact hc'

theorem ext_mem {s t : OrderedSet α} (h : ∀ a, a ∈ s ↔ a ∈ t) : s = t :=
  ext (eq_of_mem_iff s.increasing t.increasing h)

instance : Ordered (OrderedSet α) where
  compare s t := compare s.toList t.toList
  eq_swap := Std.OrientedOrd.eq_swap (α := List α)
  isLE_trans := Std.TransOrd.isLE_trans (α := List α)
  compare_self := Std.ReflOrd.compare_self (α := List α)
  eq_of_compare h := ext (Std.LawfulEqOrd.eq_of_compare h)

theorem compare_def {s t : OrderedSet α} : compare s t = compare s.toList t.toList := rfl

end OrderedSet

end PseudoBoolean
