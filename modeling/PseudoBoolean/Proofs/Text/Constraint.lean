import PseudoBoolean.Constraint.Render
import PseudoBoolean.Proofs.Constraint.Recovery
import PseudoBoolean.Proofs.RoundTrip
import PseudoBoolean.Proofs.Text.Reading

namespace PseudoBoolean

open Text

namespace Literal

variable {α : Type}

theorem labels_through (b : Bool) (r : Range α) : (through b r).atom.labels = [r.element, r.set] := by
  cases b <;> rfl

theorem labels_counting (b : Bool) (r : Range α) : (counting b r).atom.labels = [r.element, r.set] := by
  cases b <;> rfl

end Literal

theorem toList_intercalate_cons (separator word : String) (words : List String) :
    (separator.intercalate (word :: words)).toList =
      word.toList ++ words.flatMap fun w => separator.toList ++ w.toList := by
  induction words generalizing word with
  | nil => simp
  | cons w words ih =>
    rw [String.intercalate_cons_cons, String.toList_append, String.toList_append, ih, List.flatMap_cons]
    simp only [List.append_assoc]

theorem toList_subtractTerms {sum : String} (hsum : sum ≠ "") (terms : List String) :
    (subtractTerms sum terms).toList = sum.toList ++ terms.flatMap fun t => " - ".toList ++ t.toList := by
  induction terms generalizing sum with
  | nil => simp [subtractTerms]
  | cons t terms ih =>
    have hstep : subtractTerms sum (t :: terms) = subtractTerms (sum ++ " - " ++ t) terms := by
      simp [subtractTerms, hsum]
    rw [hstep, ih (by simp [hsum]), List.flatMap_cons]
    simp only [String.toList_append, List.append_assoc]

namespace Format

def quantifierText : Format → RangeText
  | .text => .bracketed "(∀ " ")" fun _ => endsWord_cons.mpr rfl
  | .latex => .bare "\\forall " " \\in " RangeText.endsWord_in

def setSumText : Format → RangeText
  | .text => .bracketed "(∑ " ")" fun _ => endsWord_cons.mpr rfl
  | .latex => .subscripted "\\sum_\x7b"

theorem quantifier_eq (format : Format) (r : Range String) : format.quantifier r = format.quantifierText.write r := by
  cases format with
  | text => rfl
  | latex => exact (String.append_empty).symm

theorem setSum_eq (format : Format) (r : Range String) : format.setSum r = format.setSumText.write r := by
  cases format with
  | text => rfl
  | latex => exact String.append_assoc

inductive Mark
  | quantifier
  | setSum
  | minus
  | zero
deriving DecidableEq

def mark (format : Format) : Mark → String
  | .quantifier => format.quantifierText.lead
  | .setSum => format.setSumText.lead
  | .minus => "-"
  | .zero => "0"

theorem eq_of_mark_prefix (format : Format) (m n : Mark) :
    (format.mark m).toList <+: (format.mark n).toList → m = n := by
  cases format <;> cases m <;> cases n <;> decide

theorem word_append_ne_mark (format : Format) {a : String} (ha : isIdentifier a.toList = true) (m : Mark)
    (r s : List Char) : a.toList ++ r ≠ (format.mark m).toList ++ s := by
  apply word_append_ne ha
  cases format <;> cases m <;> decide

def link (format : Format) : Option Bool → String
  | some true => " + "
  | some false => " - "
  | none => format.geq

theorem eq_of_link_prefix (format : Format) (m n : Option Bool) :
    (format.link m).toList <+: (format.link n).toList → m = n := by
  cases format <;> rcases m with _ | _ | _ <;> rcases n with _ | _ | _ <;> decide

theorem endsWord_link (format : Format) (m : Option Bool) (rest : List Char) :
    EndsWord ((format.link m).toList ++ rest) := by
  cases format <;> rcases m with _ | _ | _ <;> exact endsWord_cons.mpr rfl

end Format

inductive Term
  | name (a : String)
  | setSum (r : Range String)

namespace Term

def IsSpelled : Term → Prop
  | .name a => isIdentifier a.toList = true
  | .setSum r => r.IsSpelled

def text (format : Format) : Term → String
  | .name a => a
  | .setSum r => format.setSum r

theorem text_append_ne_mark (format : Format) {t : Term} (ht : t.IsSpelled) {m : Format.Mark} (hm : m ≠ .setSum)
    (r s : List Char) : (t.text format).toList ++ r ≠ (format.mark m).toList ++ s := by
  cases t with
  | name a => exact format.word_append_ne_mark ht m r s
  | setSum q =>
    intro h
    rw [text, Format.setSum_eq, RangeText.toList_write] at h
    exact hm (mark_cancel format.eq_of_mark_prefix (i := .setSum) h).1.symm

theorem cancels_text (format : Format) : Cancels IsSpelled fun t => (t.text format).toList := by
  intro t u ht hu r s hr hs (h : (t.text format).toList ++ r = (u.text format).toList ++ s)
  cases t with
  | name a =>
    cases u with
    | name b =>
      obtain ⟨rfl, hrs⟩ := word_cancel ht hu hr hs h
      exact ⟨rfl, hrs⟩
    | setSum q =>
      rw [text, text, Format.setSum_eq, RangeText.toList_write] at h
      exact absurd h (format.word_append_ne_mark ht .setSum _ _)
  | setSum p =>
    rw [text, Format.setSum_eq] at h
    cases u with
    | name b =>
      rw [text, RangeText.toList_write] at h
      exact absurd h.symm (format.word_append_ne_mark hu .setSum _ _)
    | setSum q =>
      rw [text, Format.setSum_eq] at h
      obtain ⟨rfl, hrs⟩ := format.setSumText.cancels_write ht hu hr hs h
      exact ⟨rfl, hrs⟩

theorem text_ne_empty (format : Format) {t : Term} (ht : t.IsSpelled) : t.text format ≠ "" := by
  cases t with
  | name a =>
    rintro rfl
    cases ht
  | setSum r => cases format <;> simp [text, Format.setSum]

end Term

structure SignedTerm where
  positive : Bool
  term : Term

namespace SignedTerm

def IsSpelled (p : SignedTerm) : Prop := p.term.IsSpelled

def first (format : Format) : SignedTerm → List Char
  | ⟨true, t⟩ => (t.text format).toList
  | ⟨false, t⟩ => (format.mark .minus).toList ++ (t.text format).toList

def next (format : Format) (p : SignedTerm) : List Char :=
  (format.link (some p.positive)).toList ++ (p.term.text format).toList

theorem first_append_ne_mark (format : Format) {p : SignedTerm} (hp : p.IsSpelled) {m : Format.Mark}
    (hset : m ≠ .setSum) (hminus : m ≠ .minus) (r s : List Char) :
    p.first format ++ r ≠ (format.mark m).toList ++ s := by
  obtain ⟨_ | _, t⟩ := p
  · intro h
    rw [first, List.append_assoc] at h
    exact hminus (mark_cancel format.eq_of_mark_prefix h).1.symm
  · exact Term.text_append_ne_mark format hp hset r s

theorem cancels_first (format : Format) : Cancels IsSpelled (first format) := by
  intro p q hp hq r s hr hs h
  have hminus {t u : Term} (ht : t.IsSpelled) (v w : List Char) :
      (t.text format).toList ++ v ≠ (format.mark .minus).toList ++ (u.text format).toList ++ w := by
    rw [List.append_assoc]
    exact Term.text_append_ne_mark format ht (by decide) _ _
  obtain ⟨_ | _, t⟩ := p <;> obtain ⟨_ | _, u⟩ := q
  · rw [first, first, List.append_assoc, List.append_assoc, List.append_cancel_left_eq] at h
    obtain ⟨rfl, hrs⟩ := Term.cancels_text format hp hq hr hs h
    exact ⟨rfl, hrs⟩
  · exact absurd h.symm (hminus hq _ _)
  · exact absurd h (hminus hp _ _)
  · obtain ⟨rfl, hrs⟩ := Term.cancels_text format hp hq hr hs h
    exact ⟨rfl, hrs⟩

theorem cancels_next (format : Format) : Cancels IsSpelled (next format) := by
  rintro ⟨b, t⟩ ⟨c, u⟩ hp hq r s hr hs h
  rw [next, next, List.append_assoc, List.append_assoc] at h
  obtain ⟨hsign, hterm⟩ := mark_cancel format.eq_of_link_prefix h
  obtain rfl := Option.some.inj hsign
  obtain ⟨rfl, hrs⟩ := Term.cancels_text format hp hq hr hs hterm
  exact ⟨rfl, hrs⟩

theorem delimited_next (format : Format) : Delimited IsSpelled (next format) (format.link none).toList where
  cancels := cancels_next format
  endsWord_item p r := by
    rw [next, List.append_assoc]
    exact format.endsWord_link _ _
  endsWord_stop := format.endsWord_link none
  item_ne_stop p r s := by
    rw [next, List.append_assoc]
    intro h
    cases (mark_cancel format.eq_of_link_prefix h).1

def name? (b : Bool) : SignedTerm → Option String
  | ⟨c, .name a⟩ => if c = b then some a else none
  | ⟨_, .setSum _⟩ => none

def range? (b : Bool) : SignedTerm → Option (Range String)
  | ⟨_, .name _⟩ => none
  | ⟨c, .setSum r⟩ => if c = b then some r else none

end SignedTerm

namespace LinearSum

def terms (s : LinearSum String) (b : Bool) : List Term := (s.names b).map .name ++ (s.ranges b).map .setSum

def signedTerms (s : LinearSum String) : List SignedTerm :=
  (s.terms true).map (⟨true, ·⟩) ++ (s.terms false).map (⟨false, ·⟩)

theorem name_mem_signedTerms {s : LinearSum String} {b : Bool} {a : String} :
    ⟨b, .name a⟩ ∈ s.signedTerms ↔ a ∈ s.names b := by
  cases b <;> simp [signedTerms, terms]

theorem setSum_mem_signedTerms {s : LinearSum String} {b : Bool} {r : Range String} :
    ⟨b, .setSum r⟩ ∈ s.signedTerms ↔ r ∈ s.ranges b := by
  cases b <;> simp [signedTerms, terms]

theorem filterMap_name?_signedTerms (s : LinearSum String) (b : Bool) :
    s.signedTerms.filterMap (SignedTerm.name? b) = s.names b := by
  cases b <;> simp [signedTerms, terms, List.filterMap_map, Function.comp_def, SignedTerm.name?]

theorem filterMap_range?_signedTerms (s : LinearSum String) (b : Bool) :
    s.signedTerms.filterMap (SignedTerm.range? b) = s.ranges b := by
  cases b <;> simp [signedTerms, terms, List.filterMap_map, Function.comp_def, SignedTerm.range?]

theorem eq_of_signedTerms_eq {s t : LinearSum String} (h : s.signedTerms = t.signedTerms) : s = t := by
  have hnames (b : Bool) : s.names b = t.names b := by
    rw [← filterMap_name?_signedTerms, h, filterMap_name?_signedTerms]
  have hranges (b : Bool) : s.ranges b = t.ranges b := by
    rw [← filterMap_range?_signedTerms, h, filterMap_range?_signedTerms]
  obtain ⟨plus, minus, plusSets, minusSets⟩ := s
  obtain rfl := hnames true
  obtain rfl := hnames false
  obtain rfl := hranges true
  obtain rfl := hranges false
  rfl

def text (format : Format) : List SignedTerm → List Char
  | [] => (format.mark .zero).toList
  | p :: ps => p.first format ++ ps.flatMap (SignedTerm.next format)

theorem render_eq (format : Format) (s : LinearSum String) :
    s.render format =
      let sum := subtractTerms (" + ".intercalate ((s.terms true).map (Term.text format)))
        ((s.terms false).map (Term.text format))
      if sum.isEmpty then "0" else sum := by
  have hterms (b : Bool) :
      (s.names b).map toString ++ (s.ranges b).map format.setSum = (s.terms b).map (Term.text format) := by
    rw [terms, List.map_append, List.map_map, List.map_map]
    rfl
  rw [← hterms, ← hterms]
  rfl

theorem toList_render_of_ne {format : Format} {s : LinearSum String} {sum : String} (hsum : sum ≠ "")
    (words : List String) (h : subtractTerms (" + ".intercalate ((s.terms true).map (Term.text format)))
      ((s.terms false).map (Term.text format)) = subtractTerms sum words) :
    (s.render format).toList = sum.toList ++ words.flatMap fun w => " - ".toList ++ w.toList := by
  have hne : subtractTerms sum words ≠ "" := by
    intro hempty
    have htext := toList_subtractTerms hsum words
    rw [hempty] at htext
    exact hsum (String.toList_eq_nil_iff.mp (List.append_eq_nil_iff.mp htext.symm).1)
  rw [render_eq, h, if_neg (by simpa using hne), toList_subtractTerms hsum]

theorem toList_render (format : Format) {s : LinearSum String} (hs : ∀ p ∈ s.signedTerms, p.IsSpelled) :
    (s.render format).toList = text format s.signedTerms := by
  have hnext (b : Bool) (ts : List Term) : (ts.map (Term.text format)).flatMap
      (fun w => (format.link (some b)).toList ++ w.toList) = (ts.map (⟨b, ·⟩)).flatMap (SignedTerm.next format) := by
    simp only [List.flatMap_map]
    rfl
  rw [signedTerms] at hs ⊢
  cases hplus : s.terms true with
  | nil =>
    cases hminus : s.terms false with
    | nil =>
      rw [render_eq, hplus, hminus]
      rfl
    | cons t ts =>
      have hsum : "-" ++ t.text format ≠ "" := by simp
      rw [toList_render_of_ne hsum (ts.map (Term.text format)) (by rw [hplus, hminus]; rfl)]
      rw [String.toList_append]
      exact congrArg _ (hnext false ts)
  | cons t ts =>
    have ht : t.IsSpelled := hs ⟨true, t⟩ (by simp [hplus])
    have hsum : " + ".intercalate ((t :: ts).map (Term.text format)) ≠ "" := by
      intro hempty
      have htext := toList_intercalate_cons " + " (t.text format) (ts.map (Term.text format))
      rw [← List.map_cons, hempty] at htext
      exact t.text_ne_empty format ht (String.toList_eq_nil_iff.mp (List.append_eq_nil_iff.mp htext.symm).1)
    rw [toList_render_of_ne hsum _ (by rw [hplus]), List.map_cons, toList_intercalate_cons]
    rw [List.map_cons, List.cons_append, text, List.flatMap_append, List.append_assoc]
    exact congrArg _ (congr (congrArg _ (hnext true ts)) (hnext false _))

theorem text_cancel (format : Format) {ps qs : List SignedTerm} (hps : ∀ p ∈ ps, p.IsSpelled)
    (hqs : ∀ q ∈ qs, q.IsSpelled) {r s : List Char}
    (h : text format ps ++ ((format.link none).toList ++ r) = text format qs ++ ((format.link none).toList ++ s)) :
    ps = qs := by
  have hzero (p : SignedTerm) (hp : p.IsSpelled) (u v : List Char) :
      p.first format ++ u ≠ (format.mark .zero).toList ++ v :=
    p.first_append_ne_mark format hp (by decide) (by decide) u v
  cases ps with
  | nil =>
    cases qs with
    | nil => rfl
    | cons q qs =>
      rw [text, text, List.append_assoc] at h
      exact absurd h.symm (hzero q (hqs q List.mem_cons_self) _ _)
  | cons p ps =>
    rw [text, List.append_assoc] at h
    cases qs with
    | nil => exact absurd h (hzero p (hps p List.mem_cons_self) _ _)
    | cons q qs =>
      rw [text, List.append_assoc] at h
      exact ((SignedTerm.delimited_next format).cancel_cons (SignedTerm.cancels_first format) hps hqs h).1

theorem text_append_ne_quantifier (format : Format) {ps : List SignedTerm} (hps : ∀ p ∈ ps, p.IsSpelled)
    (u v : List Char) : text format ps ++ u ≠ (format.mark .quantifier).toList ++ v := by
  cases ps with
  | nil =>
    intro h
    cases (mark_cancel format.eq_of_mark_prefix (i := .zero) h).1
  | cons p ps =>
    rw [text, List.append_assoc]
    exact p.first_append_ne_mark format (hps p List.mem_cons_self) (by decide) (by decide) _ _

end LinearSum

namespace Format

def quantifierLink (format : Format) : Bool → List Char
  | true => format.quantifierSeparator.toList ++ (format.mark .quantifier).toList
  | false => format.colon.toList

theorem eq_of_quantifierLink_prefix (format : Format) (b c : Bool) :
    format.quantifierLink b <+: format.quantifierLink c → b = c := by
  cases format <;> cases b <;> cases c <;> decide

def nextQuantifier (format : Format) (r : Range String) : List Char :=
  format.quantifierSeparator.toList ++ (format.quantifier r).toList

def quantifiersText (format : Format) : List (Range String) → List Char
  | [] => []
  | r :: rs => (format.quantifier r).toList ++ (rs.flatMap format.nextQuantifier ++ format.colon.toList)

theorem cancels_quantifier (format : Format) : Cancels Range.IsSpelled fun r => (format.quantifier r).toList := by
  simp only [quantifier_eq]
  exact format.quantifierText.cancels_write

theorem delimited_nextQuantifier (format : Format) :
    Delimited Range.IsSpelled format.nextQuantifier format.colon.toList where
  cancels := by
    intro r q hr hq u v hu hv h
    rw [nextQuantifier, nextQuantifier, List.append_assoc, List.append_assoc, List.append_cancel_left_eq] at h
    exact format.cancels_quantifier hr hq hu hv h
  endsWord_item r u := by
    cases format <;> exact endsWord_cons.mpr rfl
  endsWord_stop u := by
    cases format <;> exact endsWord_cons.mpr rfl
  item_ne_stop r u v := by
    intro h
    rw [nextQuantifier, quantifier_eq, List.append_assoc, RangeText.toList_write, ← List.append_assoc] at h
    cases (mark_cancel format.eq_of_quantifierLink_prefix (i := true) (j := false) h).1

theorem quantifiersText_cons_append (format : Format) (r : Range String) (rs : List (Range String)) (u : List Char) :
    format.quantifiersText (r :: rs) ++ u =
      (format.quantifier r).toList ++ (rs.flatMap format.nextQuantifier ++ (format.colon.toList ++ u)) := by
  rw [quantifiersText, List.append_assoc, List.append_assoc]

theorem quantifiersText_cancel (format : Format) {rs qs : List (Range String)} (hrs : ∀ r ∈ rs, r.IsSpelled)
    (hqs : ∀ q ∈ qs, q.IsSpelled) {u v : List Char} (hu : ∀ w, u ≠ (format.mark .quantifier).toList ++ w)
    (hv : ∀ w, v ≠ (format.mark .quantifier).toList ++ w)
    (h : format.quantifiersText rs ++ u = format.quantifiersText qs ++ v) : rs = qs ∧ u = v := by
  cases rs with
  | nil =>
    cases qs with
    | nil => exact ⟨rfl, h⟩
    | cons q qs =>
      rw [quantifiersText_cons_append, quantifier_eq, RangeText.toList_write] at h
      exact absurd h (hu _)
  | cons r rs =>
    rw [quantifiersText_cons_append] at h
    cases qs with
    | nil =>
      rw [quantifier_eq, RangeText.toList_write] at h
      exact absurd h.symm (hv _)
    | cons q qs =>
      rw [quantifiersText_cons_append] at h
      exact format.delimited_nextQuantifier.cancel_cons format.cancels_quantifier hrs hqs h

end Format

namespace Constraint

structure IsSpelled (k : Constraint String) : Prop where
  quantified : ∀ r ∈ k.quantified.toList, r.IsSpelled
  terms : ∀ p ∈ k.sum.signedTerms, p.IsSpelled

theorem toList_quantifiers (format : Format) (k : Constraint String) :
    (k.quantifiers format).toList = format.quantifiersText k.quantified.toList := by
  rw [quantifiers, OrderedSet.isEmpty]
  cases k.quantified.toList with
  | nil => rfl
  | cons r rs =>
    rw [if_neg (by simp), String.toList_append, List.map_cons, toList_intercalate_cons, List.append_assoc,
      List.flatMap_map]
    rfl

theorem toList_render (format : Format) {k : Constraint String} (hk : k.IsSpelled) :
    (k.render format).toList = format.quantifiersText k.quantified.toList ++
      (LinearSum.text format k.sum.signedTerms ++ ((format.link none).toList ++ (k.bound.render format).toList)) := by
  rw [render, String.toList_append, String.toList_append, String.toList_append, toList_quantifiers,
    LinearSum.toList_render format hk.terms, List.append_assoc, List.append_assoc]
  rfl

theorem eq_and_eq_of_render_eq (format : Format) {k k' : Constraint String} (hk : k.IsSpelled) (hk' : k'.IsSpelled)
    (h : k.render format = k'.render format) : k.quantified = k'.quantified ∧ k.sum = k'.sum := by
  have htext := congrArg String.toList h
  rw [toList_render format hk, toList_render format hk'] at htext
  have hsum := LinearSum.text_append_ne_quantifier format hk.terms
  have hsum' := LinearSum.text_append_ne_quantifier format hk'.terms
  obtain ⟨hquantified, hrest⟩ :=
    format.quantifiersText_cancel hk.quantified hk'.quantified (hsum _) (hsum' _) htext
  have hterms := LinearSum.text_cancel format hk.terms hk'.terms hrest
  exact ⟨OrderedSet.ext hquantified, LinearSum.eq_of_signedTerms_eq hterms⟩

theorem isSpelled_ofClause {c : Clause String} (hc : ∀ l ∈ c, ∀ a ∈ l.atom.labels, isIdentifier a.toList = true) :
    (ofClause c).IsSpelled := by
  have hthrough {b : Bool} {r : Range String} (h : .through b r ∈ c) : r.IsSpelled := by
    have hr := hc _ h
    rw [Literal.labels_through] at hr
    exact ⟨hr r.element (by simp), hr r.set (by simp)⟩
  have hcounting {b : Bool} {r : Range String} (h : .counting b r ∈ c) : r.IsSpelled := by
    have hr := hc _ h
    rw [Literal.labels_counting] at hr
    exact ⟨hr r.element (by simp), hr r.set (by simp)⟩
  constructor
  · intro r hr
    obtain ⟨l, hl, hlr⟩ := (mem_quantified_ofClause c r).mp hr
    rw [Literal.quantified?_eq_some_iff_through.mp hlr] at hl
    exact hthrough hl
  · rintro ⟨b, a | r⟩ hp
    · obtain ⟨l, hl, -, ha⟩ := mem_names_ofClause.mp (LinearSum.name_mem_signedTerms.mp hp)
      rcases Literal.name?_eq_some.mp ha with hplain | ⟨r, hlr, rfl⟩
      · exact hc l hl a (by simp [hplain, Atom.labels])
      · rw [Literal.quantified?_eq_some_iff_through.mp hlr] at hl
        exact (hthrough hl).1
    · exact hcounting (mem_ranges_ofClause.mp (LinearSum.setSum_mem_signedTerms.mp hp))

theorem ofClause_eq_of_render_eq (format : Format) {c d : Clause String}
    (hc : ∀ l ∈ c, ∀ a ∈ l.atom.labels, isIdentifier a.toList = true)
    (hd : ∀ l ∈ d, ∀ a ∈ l.atom.labels, isIdentifier a.toList = true)
    (h : (ofClause c).render format = (ofClause d).render format) : ofClause c = ofClause d := by
  obtain ⟨hquantified, hsum⟩ := eq_and_eq_of_render_eq format (isSpelled_ofClause hc) (isSpelled_ofClause hd) h
  apply ext hquantified hsum
  -- the bound is a function of the sum
  rw [bound_ofClause, bound_ofClause, hsum]

theorem ofClause_eq_of_render_eq_shared_element :
    let c : Clause String := .ofList [.through true ⟨"x", "X"⟩, .through false ⟨"x", "Y"⟩, .counting false ⟨"a", "X"⟩]
    let d : Clause String := .ofList [.through false ⟨"x", "X"⟩, .through true ⟨"x", "Y"⟩, .counting false ⟨"a", "X"⟩]
    (ofClause c).render .text = "(∀ x ∈ X) (∀ x ∈ Y) : x - x - (∑ a ∈ X) ≥ -‖X‖" ∧
      (ofClause d).render .text = "(∀ x ∈ X) (∀ x ∈ Y) : x - x - (∑ a ∈ X) ≥ -‖X‖" ∧ c.toList ≠ d.toList ∧
      ofClause c = ofClause d := by
  intro c d
  have hc : (ofClause c).render .text = "(∀ x ∈ X) (∀ x ∈ Y) : x - x - (∑ a ∈ X) ≥ -‖X‖" := by decide +kernel
  have hd : (ofClause d).render .text = "(∀ x ∈ X) (∀ x ∈ Y) : x - x - (∑ a ∈ X) ≥ -‖X‖" := by decide +kernel
  refine ⟨hc, hd, by decide +kernel, ofClause_eq_of_render_eq .text ?_ ?_ (hc.trans hd.symm)⟩
  · simp only [OrderedSet.mem_def]
    decide +kernel
  · simp only [OrderedSet.mem_def]
    decide +kernel

end Constraint

end PseudoBoolean
