import PseudoBoolean.Proofs.RoundTrip
import PseudoBoolean.Proofs.Text.Reading

/-!
No two expressions over identifiers have the same text, in any of the three styles and at any depth. An expression is
read from the front of a text, where a variable is a word and any other node begins with a mark of its own; only in the
source syntax is that mark a word too, and there a blank and another word tell it from a variable.
-/

namespace PseudoBoolean

open Text

inductive Mark
  | negation
  | group
  | range (q : Quantifier)
deriving DecidableEq

namespace Style

def range : Style → Quantifier → RangeText
  | .source, .one => .bare "one " " in " fun _ => endsWord_cons.mpr rfl
  | .source, .all => .bare "all " " in " fun _ => endsWord_cons.mpr rfl
  | .unicode, .one => .bracketed "\x7b⋁ " "\x7d" fun _ => endsWord_cons.mpr rfl
  | .unicode, .all => .bracketed "\x7b⋀ " "\x7d" fun _ => endsWord_cons.mpr rfl
  | .latex, .one => .subscripted "\\bigvee_\x7b"
  | .latex, .all => .subscripted "\\bigwedge_\x7b"

def mark (style : Style) : Mark → String
  | .negation => style.not
  | .group => "("
  | .range q => (style.range q).lead

def sign : Style → Connective → String
  | style, .tight .and => style.and
  | style, .tight .or => style.or
  | style, .loose .imp => style.imp
  | style, .loose .iff => style.iff

theorem eq_of_mark_prefix (style : Style) (m n : Mark) : (style.mark m).toList <+: (style.mark n).toList → m = n := by
  cases style <;> rcases m with _ | _ | ⟨_ | _⟩ <;> rcases n with _ | _ | ⟨_ | _⟩ <;> decide

theorem eq_of_sign_prefix (style : Style) (op op' : Connective) :
    (style.sign op).toList <+: (style.sign op').toList → op = op' := by
  cases style <;> rcases op with ⟨_ | _⟩ | ⟨_ | _⟩ <;> rcases op' with ⟨_ | _⟩ | ⟨_ | _⟩ <;> decide

end Style

/-- Neither does a word go on, nor does another one follow behind a blank. -/
def EndsOperand (rest : List Char) : Prop := EndsWord rest ∧ ∀ cs, rest = ' ' :: cs → EndsWord cs

theorem endsOperand_nil : EndsOperand [] := ⟨endsWord_nil, by simp⟩

theorem endsOperand_closing (rest : List Char) : EndsOperand (')' :: rest) := ⟨endsWord_cons.mpr rfl, by simp⟩

theorem Style.endsOperand_sign (style : Style) (op : Connective) (rest : List Char) :
    EndsOperand ((style.sign op).toList ++ rest) := by
  obtain ⟨c, cs, hsign, hc⟩ : ∃ c cs, (style.sign op).toList = ' ' :: c :: cs ∧ isWordPart c = false := by
    cases style <;> rcases op with ⟨_ | _⟩ | ⟨_ | _⟩ <;> exact ⟨_, _, rfl, rfl⟩
  rw [hsign]
  refine ⟨endsWord_cons.mpr rfl, ?_⟩
  rintro ds hds
  obtain ⟨-, rfl⟩ := List.cons.inj hds
  exact endsWord_cons.mpr hc

theorem Style.word_append_ne_mark (style : Style) {a : String} (ha : isIdentifier a.toList = true) {rest : List Char}
    (hrest : EndsOperand rest) {m : Mark} {cs : List Char} (hcs : ∀ q, m = .range q → ¬ EndsWord cs) :
    a.toList ++ rest ≠ (style.mark m).toList ++ cs := by
  have hword {w : String} (hw : isIdentifier w.toList = true) (hnext : ¬ EndsWord cs) :
      a.toList ++ rest ≠ w.toList ++ ' ' :: cs := by
    intro h
    obtain ⟨-, hblank⟩ := word_cancel ha hw hrest.1 (endsWord_cons.mpr rfl) h
    exact hnext (hrest.2 cs hblank)
  rcases m with _ | _ | ⟨_ | _⟩ <;> cases style
  case range.one.source => exact hword (w := "one") (by decide) (hcs _ rfl)
  case range.all.source => exact hword (w := "all") (by decide) (hcs _ rfl)
  all_goals exact word_append_ne ha (by decide) _ _

namespace Expr

theorem render_quantified (style : Style) (q : Quantifier) (x s : String) :
    (q.over x s).render style = (style.range q).write ⟨x, s⟩ := by
  cases q <;> cases style
  case one.source | all.source => exact (String.append_empty).symm
  case one.unicode | all.unicode => rfl
  case one.latex | all.latex => exact String.append_assoc

theorem toList_not (style : Style) (a : Expr String) :
    (a.not.render style).toList = (style.mark .negation).toList ++ (a.render style).toList := String.toList_append

theorem toList_join (style : Style) (op : Connective) (a b : Expr String) :
    ((op.join a b).render style).toList = (style.mark .group).toList ++
      ((a.render style).toList ++ ((style.sign op).toList ++ ((b.render style).toList ++ [')']))) := by
  have htext : (op.join a b).render style =
      style.mark .group ++ a.render style ++ style.sign op ++ b.render style ++ ")" := by
    rcases op with ⟨_ | _⟩ | ⟨_ | _⟩ <;> rfl
  simp only [htext, String.toList_append, List.append_assoc]
  rfl

inductive Begins : Option Mark → Expr String → Prop
  | var (a : String) : Begins none (var a)
  | quantified (q : Quantifier) (x s : String) : Begins (some (.range q)) (q.over x s)
  | not (a : Expr String) : Begins (some .negation) a.not
  | join (op : Connective) (a b : Expr String) : Begins (some .group) (op.join a b)

theorem exists_begins (e : Expr String) : ∃ m, Begins m e := by
  induction e using join_induction with
  | var a => exact ⟨_, .var a⟩
  | quantified q x s => exact ⟨_, .quantified q x s⟩
  | not a => exact ⟨_, .not a⟩
  | join op a b => exact ⟨_, .join op a b⟩

theorem Begins.exists_mark_append {style : Style} {m : Mark} {e : Expr String} (h : Begins (some m) e)
    (he : ∀ a ∈ e.labels, isIdentifier a.toList = true) (rest : List Char) :
    ∃ cs, (e.render style).toList ++ rest = (style.mark m).toList ++ cs ∧ ∀ q, m = .range q → ¬ EndsWord cs := by
  cases h with
  | quantified q x s =>
    have hx := he x (by simp [labels_over])
    exact ⟨_, by rw [render_quantified, RangeText.toList_write, Style.mark], fun _ _ => not_endsWord_word hx _⟩
  | not a => exact ⟨_, by rw [toList_not, List.append_assoc], by simp⟩
  | join op a b => exact ⟨_, by rw [toList_join, List.append_assoc], by simp⟩

theorem Begins.mark_eq {style : Style} {m n : Option Mark} {e f : Expr String} (hm : Begins m e) (hn : Begins n f)
    (he : ∀ a ∈ e.labels, isIdentifier a.toList = true) (hf : ∀ a ∈ f.labels, isIdentifier a.toList = true)
    {r s : List Char} (hr : EndsOperand r) (hs : EndsOperand s)
    (h : (e.render style).toList ++ r = (f.render style).toList ++ s) : m = n := by
  cases m with
  | none =>
    cases n with
    | none => rfl
    | some n =>
      obtain ⟨a⟩ := hm
      obtain ⟨cs, hcs, hnext⟩ := hn.exists_mark_append hf s
      have ha : isIdentifier a.toList = true := he a (by simp [labels_var])
      exact absurd (h.trans hcs) (style.word_append_ne_mark ha hr hnext)
  | some m =>
    obtain ⟨cs, hcs, hnext⟩ := hm.exists_mark_append he r
    cases n with
    | none =>
      obtain ⟨a⟩ := hn
      have ha : isIdentifier a.toList = true := hf a (by simp [labels_var])
      exact absurd (h.symm.trans hcs) (style.word_append_ne_mark ha hs hnext)
    | some n =>
      obtain ⟨ds, hds, -⟩ := hn.exists_mark_append hf s
      rw [hcs, hds] at h
      exact congrArg some (mark_cancel style.eq_of_mark_prefix h).1

theorem render_cancel (style : Style) {e f : Expr String} (he : ∀ a ∈ e.labels, isIdentifier a.toList = true)
    (hf : ∀ a ∈ f.labels, isIdentifier a.toList = true) {r s : List Char} (hr : EndsOperand r) (hs : EndsOperand s)
    (h : (e.render style).toList ++ r = (f.render style).toList ++ s) : e = f ∧ r = s := by
  obtain ⟨m, hm⟩ := f.exists_begins
  induction e using join_induction generalizing f r s m with
  | var a =>
    obtain rfl := (Begins.var a).mark_eq hm he hf hr hs h
    cases hm with
    | var b =>
      obtain ⟨rfl, hrs⟩ := word_cancel (he a (by simp [labels_var])) (hf b (by simp [labels_var])) hr.1 hs.1 h
      exact ⟨rfl, hrs⟩
  | quantified q x t =>
    obtain rfl := (Begins.quantified q x t).mark_eq hm he hf hr hs h
    cases hm with
    | quantified _ y u =>
      rw [labels_over] at he hf
      have hxt : Range.IsSpelled ⟨x, t⟩ := ⟨he x (by simp), he t (by simp)⟩
      have hyu : Range.IsSpelled ⟨y, u⟩ := ⟨hf y (by simp), hf u (by simp)⟩
      rw [render_quantified, render_quantified] at h
      obtain ⟨hrange, hrs⟩ := (style.range q).cancels_write hxt hyu hr.1 hs.1 h
      obtain ⟨rfl, rfl⟩ := Range.mk.inj hrange
      exact ⟨rfl, hrs⟩
  | not a ih =>
    obtain rfl := (Begins.not a).mark_eq hm he hf hr hs h
    cases hm with
    | not b =>
      simp only [toList_not, List.append_assoc, List.append_cancel_left_eq] at h
      obtain ⟨n, hn⟩ := b.exists_begins
      obtain ⟨rfl, hrs⟩ := ih he (f := b) hf hr hs h n hn
      exact ⟨rfl, hrs⟩
  | join op a b iha ihb =>
    obtain rfl := (Begins.join op a b).mark_eq hm he hf hr hs h
    cases hm with
    | join op' c d =>
      simp only [labels_join, List.forall_mem_append] at he hf
      simp only [toList_join, List.append_assoc, List.append_cancel_left_eq] at h
      obtain ⟨n, hn⟩ := c.exists_begins
      obtain ⟨rfl, hsign⟩ := iha he.1 hf.1 (style.endsOperand_sign op _) (style.endsOperand_sign op' _) h n hn
      obtain ⟨rfl, hright⟩ := mark_cancel style.eq_of_sign_prefix hsign
      obtain ⟨n, hn⟩ := d.exists_begins
      obtain ⟨rfl, hclosing⟩ := ihb he.2 hf.2 (endsOperand_closing r) (endsOperand_closing s) hright n hn
      exact ⟨rfl, (List.cons.inj hclosing).2⟩

theorem eq_of_render_eq (style : Style) {e f : Expr String} (he : ∀ a ∈ e.labels, isIdentifier a.toList = true)
    (hf : ∀ a ∈ f.labels, isIdentifier a.toList = true) (h : e.render style = f.render style) : e = f := by
  have htext : (e.render style).toList ++ [] = (f.render style).toList ++ [] := by rw [h]
  exact (render_cancel style he hf endsOperand_nil endsOperand_nil htext).1

theorem eq_of_render_eq_nested :
    let e : Expr String := Nat.repeat not 257 (.and (.var "one") (.one "one" "in"))
    let f : Expr String := Nat.repeat not 256 (.not (.and (.var "one") (.one "one" "in")))
    256 < e.nesting ∧ e.labels = ["one", "one", "in"] ∧ e.render .source = f.render .source ∧ e = f := by
  intro e f
  have he : e.labels = ["one", "one", "in"] := by decide +kernel
  have hf : f.labels = ["one", "one", "in"] := by decide +kernel
  have htext : e.render .source = f.render .source := by decide +kernel
  refine ⟨by decide +kernel, he, htext, eq_of_render_eq .source ?_ ?_ htext⟩
  · rw [he]
    decide
  · rw [hf]
    decide

end Expr

end PseudoBoolean
