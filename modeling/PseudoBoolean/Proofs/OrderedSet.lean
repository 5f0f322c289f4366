import PseudoBoolean.OrderedSet
import Mathlib.Data.List.Nodup
import Mathlib.Data.List.Perm.Subperm
import Mathlib.Order.Minimal
import Mathlib.Order.WellFounded

namespace PseudoBoolean.OrderedSet

variable {α β : Type} [Ordered α] [Ordered β]

instance : SemilatticeSup (OrderedSet α) where
  le s t := ∀ a ∈ s, a ∈ t
  le_refl _ _ ha := ha
  le_trans _ _ _ hst htu a ha := htu a (hst a ha)
  le_antisymm _ _ hst hts := ext_mem fun a => ⟨hst a, hts a⟩
  sup s t := s.insertAll t.toList
  le_sup_left _ _ _ ha := mem_insertAll.mpr (.inr ha)
  le_sup_right _ _ _ ha := mem_insertAll.mpr (.inl ha)
  sup_le _ _ _ hs ht a ha := (mem_insertAll.mp ha).elim (ht a) (hs a)

instance : OrderBot (OrderedSet α) where
  bot := ∅
  bot_le _ _ ha := absurd ha not_mem_empty

theorem empty_eq_bot : (∅ : OrderedSet α) = ⊥ := rfl

@[simp] theorem mem_sup {s t : OrderedSet α} {a : α} : a ∈ s ⊔ t ↔ a ∈ s ∨ a ∈ t :=
  mem_insertAll.trans or_comm

theorem insert_eq_sup (s : OrderedSet α) (a : α) : s.insert a = s ⊔ ofList [a] := by
  apply ext_mem
  intro b
  simp [or_comm]

theorem nodup (s : OrderedSet α) : s.toList.Nodup := by
  apply s.increasing.imp
  rintro a _ h rfl
  simp [Std.ReflOrd.compare_self] at h

theorem size_lt_of_lt {s t : OrderedSet α} (h : s < t) : s.size < t.size := by
  have hsub : s.toList.Subperm t.toList := s.nodup.subperm fun a ha => h.le a ha
  by_contra hle
  have hperm := hsub.perm_of_length_le (not_lt.mp hle)
  exact h.not_ge fun a ha => hperm.mem_iff.mpr ha

theorem lt_iff_size_lt {s t : OrderedSet α} : s < t ↔ s.size < t.size ∧ ∀ a ∈ s, a ∈ t := by
  constructor
  · intro h
    exact ⟨size_lt_of_lt h, h.le⟩
  · rintro ⟨hsize, hle⟩
    apply lt_of_le_of_ne hle
    rintro rfl
    exact lt_irrefl _ hsize

instance : WellFoundedLT (OrderedSet α) := ⟨Subrelation.wf size_lt_of_lt (measure size).wf⟩

def map (f : α → β) (s : OrderedSet α) : OrderedSet β := .ofList (s.toList.map f)

@[simp] theorem mem_map {f : α → β} {s : OrderedSet α} {b : β} : b ∈ s.map f ↔ ∃ a ∈ s, f a = b :=
  mem_ofList.trans List.mem_map

theorem map_ofList (f : α → β) (as : List α) : (ofList as).map f = ofList (as.map f) := by
  apply ext_mem
  simp

theorem map_insert (f : α → β) (s : OrderedSet α) (a : α) : (s.insert a).map f = (s.map f).insert (f a) := by
  apply ext_mem
  simp [eq_comm]

theorem map_sup (f : α → β) (s t : OrderedSet α) : (s ⊔ t).map f = s.map f ⊔ t.map f := by
  apply ext_mem
  intro b
  simp only [mem_map, mem_sup, or_and_right, exists_or]

theorem map_le_map_iff {f : α → β} {s t : OrderedSet α} (hf : Set.InjOn f {a | a ∈ s ∨ a ∈ t}) :
    s.map f ≤ t.map f ↔ s ≤ t := by
  constructor
  · intro h a ha
    obtain ⟨b, hb, hba⟩ := mem_map.mp (h (f a) (mem_map.mpr ⟨a, ha, rfl⟩))
    rwa [← hf (.inr hb) (.inl ha) hba]
  · intro h b hb
    obtain ⟨a, ha, rfl⟩ := mem_map.mp hb
    exact mem_map.mpr ⟨a, h a ha, rfl⟩

theorem toList_map_perm {f : α → β} {s : OrderedSet α} (hf : Set.InjOn f {a | a ∈ s}) :
    (s.map f).toList.Perm (s.toList.map f) := by
  have hnodup : (s.toList.map f).Nodup := List.Nodup.map_on (fun a ha b hb => hf ha hb) s.nodup
  apply (List.perm_ext_iff_of_nodup (nodup _) hnodup).mpr
  intro b
  rw [← mem_def, mem_map, List.mem_map]
  rfl

end PseudoBoolean.OrderedSet
