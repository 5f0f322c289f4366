import PseudoBoolean.Expr.Basic
import PseudoBoolean.Proofs.Token.Lexeme

namespace PseudoBoolean

open Text

theorem word_cancel {a b : String} (ha : isIdentifier a.toList = true) (hb : isIdentifier b.toList = true)
    {r s : List Char} (hr : EndsWord r) (hs : EndsWord s) (h : a.toList ++ r = b.toList ++ s) : a = b ∧ r = s := by
  have hall {c : String} (hc : isIdentifier c.toList = true) : c.toList.all isWordPart = true :=
    List.all_eq_true.mpr fun d hd => isWordPart_of_mem_identifier hc hd
  have hword := congrArg (List.takeWhile isWordPart) h
  rw [takeWhile_word (hall ha) hr, takeWhile_word (hall hb) hs] at hword
  obtain rfl := String.toList_inj.mp hword
  exact ⟨rfl, List.append_cancel_left h⟩

theorem word_append_ne {a : String} (ha : isIdentifier a.toList = true) {mark : List Char}
    (hmark : mark.head?.any (fun c => !isWordStart c) = true) (r s : List Char) : a.toList ++ r ≠ mark ++ s := by
  intro h
  cases hcs : a.toList with
  | nil => simp [hcs, isIdentifier] at ha
  | cons c cs =>
    cases mark with
    | nil => cases hmark
    | cons d ds =>
      rw [hcs] at ha h
      obtain ⟨rfl, -⟩ := List.cons.inj h
      have hstart : isWordStart c = true := (Bool.and_eq_true_iff.mp ha).1
      simp [hstart] at hmark

theorem mark_cancel {ι : Type} {mark : ι → List Char} (hmark : ∀ i j, mark i <+: mark j → i = j) {i j : ι}
    {r s : List Char} (h : mark i ++ r = mark j ++ s) : i = j ∧ r = s := by
  have hij : i = j := by
    have hi : mark i <+: mark j ++ s := h ▸ List.prefix_append _ _
    rcases List.prefix_or_prefix_of_prefix hi (List.prefix_append _ s) with hle | hle
    · exact hmark i j hle
    · exact (hmark j i hle).symm
  subst hij
  exact ⟨rfl, List.append_cancel_left h⟩

section Chains

variable {β : Type} {valid : β → Prop} {first item : β → List Char} {stop : List Char}

/-- An item at the front of a text can be told from any other, if behind it no word goes on. -/
def Cancels (valid : β → Prop) (item : β → List Char) : Prop :=
  ∀ ⦃a b⦄, valid a → valid b → ∀ ⦃r s⦄, EndsWord r → EndsWord s → item a ++ r = item b ++ s → a = b ∧ r = s

structure Delimited (valid : β → Prop) (item : β → List Char) (stop : List Char) : Prop where
  cancels : Cancels valid item
  endsWord_item : ∀ b r, EndsWord (item b ++ r)
  endsWord_stop : ∀ r, EndsWord (stop ++ r)
  item_ne_stop : ∀ b r s, item b ++ r ≠ stop ++ s

namespace Delimited

theorem endsWord (hd : Delimited valid item stop) (bs : List β) (r : List Char) :
    EndsWord (bs.flatMap item ++ (stop ++ r)) := by
  cases bs with
  | nil => exact hd.endsWord_stop r
  | cons b bs =>
    rw [List.flatMap_cons, List.append_assoc]
    exact hd.endsWord_item b _

theorem cancel (hd : Delimited valid item stop) {as bs : List β} (has : ∀ a ∈ as, valid a) (hbs : ∀ b ∈ bs, valid b)
    {r s : List Char} (h : as.flatMap item ++ (stop ++ r) = bs.flatMap item ++ (stop ++ s)) : as = bs ∧ r = s := by
  induction as generalizing bs with
  | nil =>
    cases bs with
    | nil => exact ⟨rfl, List.append_cancel_left h⟩
    | cons b bs =>
      rw [List.flatMap_cons, List.append_assoc] at h
      exact absurd h.symm (hd.item_ne_stop b _ _)
  | cons a as ih =>
    rw [List.forall_mem_cons] at has
    rw [List.flatMap_cons, List.append_assoc] at h
    cases bs with
    | nil => exact absurd h (hd.item_ne_stop a _ _)
    | cons b bs =>
      rw [List.forall_mem_cons] at hbs
      rw [List.flatMap_cons, List.append_assoc] at h
      obtain ⟨rfl, hrest⟩ := hd.cancels has.1 hbs.1 (hd.endsWord as r) (hd.endsWord bs s) h
      obtain ⟨rfl, hrs⟩ := ih has.2 hbs.2 hrest
      exact ⟨rfl, hrs⟩

theorem cancel_cons (hd : Delimited valid item stop) (hfirst : Cancels valid first) {a b : β} {as bs : List β}
    (has : ∀ x ∈ a :: as, valid x) (hbs : ∀ x ∈ b :: bs, valid x) {r s : List Char}
    (h : first a ++ (as.flatMap item ++ (stop ++ r)) = first b ++ (bs.flatMap item ++ (stop ++ s))) :
    a :: as = b :: bs ∧ r = s := by
  rw [List.forall_mem_cons] at has hbs
  obtain ⟨rfl, hrest⟩ := hfirst has.1 hbs.1 (hd.endsWord as r) (hd.endsWord bs s) h
  obtain ⟨rfl, hrs⟩ := hd.cancel has.2 hbs.2 hrest
  exact ⟨rfl, hrs⟩

end Delimited

end Chains

theorem not_endsWord_word {a : String} (ha : isIdentifier a.toList = true) (rest : List Char) :
    ¬ EndsWord (a.toList ++ rest) := by
  cases hcs : a.toList with
  | nil => simp [hcs, isIdentifier] at ha
  | cons c cs =>
    have hc : isWordPart c = true := isWordPart_of_mem_identifier ha (by simp [hcs])
    simp [endsWord_cons, hc]

def Range.IsSpelled (r : Range String) : Prop := isIdentifier r.element.toList = true ∧ isIdentifier r.set.toList = true

structure RangeText where
  lead : String
  member : String
  close : String → String
  endsWord_member : ∀ rest, EndsWord (member.toList ++ rest)
  endsWord_close : ∀ x rest, EndsWord rest → EndsWord ((close x).toList ++ rest)

namespace RangeText

theorem endsWord_in (rest : List Char) : EndsWord (" \\in ".toList ++ rest) := endsWord_cons.mpr rfl

def bare (lead member : String) (h : ∀ rest, EndsWord (member.toList ++ rest)) : RangeText where
  lead := lead
  member := member
  close _ := ""
  endsWord_member := h
  endsWord_close _ _ hrest := hrest

def bracketed (lead close : String) (h : ∀ rest, EndsWord (close.toList ++ rest)) : RangeText where
  lead := lead
  member := " ∈ "
  close _ := close
  endsWord_member _ := endsWord_cons.mpr rfl
  endsWord_close _ rest _ := h rest

def subscripted (lead : String) : RangeText where
  lead := lead
  member := " \\in "
  close x := "\x7d " ++ x
  endsWord_member := endsWord_in
  endsWord_close x rest _ := by
    rw [String.toList_append]
    exact endsWord_cons.mpr rfl

def write (t : RangeText) (r : Range String) : String := t.lead ++ r.element ++ t.member ++ r.set ++ t.close r.element

theorem toList_write (t : RangeText) (r : Range String) (rest : List Char) :
    (t.write r).toList ++ rest = t.lead.toList ++
      (r.element.toList ++ (t.member.toList ++ (r.set.toList ++ ((t.close r.element).toList ++ rest)))) := by
  simp only [write, String.toList_append, List.append_assoc]

theorem cancels_write (t : RangeText) : Cancels Range.IsSpelled fun r => (t.write r).toList := by
  rintro ⟨x, X⟩ ⟨y, Y⟩ hr hs u v hu hv h
  rw [toList_write, toList_write] at h
  obtain ⟨rfl, hset⟩ :=
    word_cancel hr.1 hs.1 (t.endsWord_member _) (t.endsWord_member _) (List.append_cancel_left h)
  obtain ⟨rfl, hclose⟩ :=
    word_cancel hr.2 hs.2 (t.endsWord_close x u hu) (t.endsWord_close x v hv) (List.append_cancel_left hset)
  exact ⟨rfl, List.append_cancel_left hclose⟩

end RangeText

end PseudoBoolean
