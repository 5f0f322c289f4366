import PseudoBoolean.Proofs.Parse.Language
import PseudoBoolean.Proofs.Token.Lexeme

namespace PseudoBoolean

namespace Token.Kind

def opens : Kind → Bool
  | .not | .leftParen => true
  | _ => false

def connects : Kind → Bool
  | .and | .or | .implies | .equivalent => true
  | _ => false

/-- Of the negations and parentheses that have been opened, the innermost first, those around a token of this kind:
a negation ends with its operand, which the next operator or closing parenthesis shows to be complete. -/
def around (kind : Kind) (opened : List Kind) : List Kind :=
  if kind.connects then opened.dropWhile (· == .not)
  else if kind = .rightParen then (opened.dropWhile (· == .not)).tail
  else opened

def openedAfter (kind : Kind) (opened : List Kind) : List Kind :=
  if kind.opens then kind :: kind.around opened else kind.around opened

theorem around_opens {kind : Kind} (h : kind.opens = true) (opened : List Kind) : kind.around opened = opened := by
  cases kind <;> cases h <;> rfl

theorem around_word {kind : Kind} (h : kind.isWord = true) (opened : List Kind) : kind.around opened = opened := by
  cases kind <;> cases h <;> rfl

theorem opens_word {kind : Kind} (h : kind.isWord = true) : kind.opens = false := by
  cases kind <;> cases h <;> rfl

theorem opens_connects {kind : Kind} (h : kind.connects = true) : kind.opens = false := by
  cases kind <;> cases h <;> rfl

end Token.Kind

def levels : List Token.Kind → List Token → List (Nat × Token)
  | _, [] => []
  | opened, t :: ts => ((t.kind.around opened).length, t) :: levels (t.kind.openedAfter opened) ts

theorem levels_take (opened : List Token.Kind) (ts : List Token) (n : Nat) :
    (levels opened ts).take n = levels opened (ts.take n) := by
  induction ts generalizing opened n with
  | nil => simp [levels]
  | cons t ts ih =>
    cases n with
    | zero => rfl
    | succ n => rw [levels, List.take_succ_cons, List.take_succ_cons, levels, ih]

theorem levels_opens {t : Token} (ht : t.kind.opens = true) (opened : List Token.Kind) (ts : List Token) :
    levels opened (t :: ts) = (opened.length, t) :: levels (t.kind :: opened) ts := by
  rw [levels, Token.Kind.openedAfter, Token.Kind.around_opens ht, if_pos ht]

theorem levels_word {t : Token} (ht : t.kind.isWord = true) (opened : List Token.Kind) (ts : List Token) :
    levels opened (t :: ts) = (opened.length, t) :: levels opened ts := by
  rw [levels, Token.Kind.openedAfter, Token.Kind.around_word ht, Token.Kind.opens_word ht]
  rfl

theorem dropWhile_negations (n : Nat) {opened : List Token.Kind} (h : opened.head? ≠ some .not) :
    (List.replicate n Token.Kind.not ++ opened).dropWhile (· == .not) = opened := by
  induction n with
  | zero =>
    cases opened with
    | nil => rfl
    | cons kind opened =>
      apply List.dropWhile_cons_of_neg
      simpa using h
  | succ n ih => simpa [List.replicate_succ] using ih

theorem levels_connects {t : Token} (ht : t.kind.connects = true) (n : Nat) {opened : List Token.Kind}
    (h : opened.head? ≠ some .not) (ts : List Token) :
    levels (List.replicate n .not ++ opened) (t :: ts) = (opened.length, t) :: levels opened ts := by
  have haround : t.kind.around (List.replicate n .not ++ opened) = opened := by
    rw [Token.Kind.around, if_pos ht, dropWhile_negations n h]
  rw [levels, Token.Kind.openedAfter, haround, Token.Kind.opens_connects ht]
  rfl

theorem levels_close {t : Token} (ht : t.kind = .rightParen) (n : Nat) (opened : List Token.Kind) (ts : List Token) :
    levels (List.replicate n .not ++ .leftParen :: opened) (t :: ts) = (opened.length, t) :: levels opened ts := by
  have hdrop : (List.replicate n Token.Kind.not ++ .leftParen :: opened).dropWhile (· == .not) = .leftParen :: opened :=
    dropWhile_negations n (by simp)
  have haround : Token.Kind.around .rightParen (List.replicate n .not ++ .leftParen :: opened) = opened := by
    simp [Token.Kind.around, Token.Kind.connects, hdrop]
  rw [levels, ht, Token.Kind.openedAfter, haround]
  rfl

namespace Derives

variable {d : Nat} {s : Nonterminal} {ts : List (Nat × Token)} {e : Expr String}

theorem levels_append (h : Derives d s ts e) (opened : List Token.Kind) (hd : opened.length = d)
    (hs : s = .primary ∨ s = .unary ∨ opened.head? ≠ some .not) :
    ∃ n, ∀ rest, levels opened (ts.map Prod.snd ++ rest) = ts ++ levels (List.replicate n .not ++ opened) rest := by
  -- the negations that end with the phrase are still open when the next token comes; a chain of operators must not
  -- stand below one, or its own operators would close it
  induction h generalizing opened with
  | implication _ ih | binary _ ih => exact ih opened hd (.inr (.inr (by simpa using hs)))
  | unary _ ih => exact ih opened hd (.inr (.inl rfl))
  | primary _ ih => exact ih opened hd (.inl rfl)
  | @implies d ts us t a b _ ht _ iha ihb | @equivalent d ts us t a b _ ht _ iha ihb
  | @and d ts us t a b _ ht _ iha ihb | @or d ts us t a b _ ht _ iha ihb =>
    have hopened : opened.head? ≠ some .not := by simpa using hs
    have hconnects : t.kind.connects = true := ht ▸ rfl
    obtain ⟨n, hleft⟩ := iha opened hd (.inr (.inr hopened))
    obtain ⟨m, hright⟩ := ihb opened hd (.inr (.inr hopened))
    refine ⟨m, fun rest => ?_⟩
    rw [List.map_append, List.append_assoc, hleft, List.map_cons, List.cons_append,
      levels_connects hconnects n hopened, hright, hd, List.append_assoc, List.cons_append]
  | @not d ts t a ht _ ih =>
    have hopens : t.kind.opens = true := ht ▸ rfl
    obtain ⟨n, hoperand⟩ := ih (.not :: opened) (by simpa using hd) (.inr (.inl rfl))
    refine ⟨n + 1, fun rest => ?_⟩
    rw [List.map_cons, List.cons_append, levels_opens hopens, ht, hoperand, hd, List.replicate_succ', List.append_assoc]
    rfl
  | @identifier d t ht =>
    have hword : t.kind.isWord = true := ht ▸ rfl
    exact ⟨0, fun rest => hd ▸ levels_word hword opened rest⟩
  | @one d t x i s ht hx hi hset | @all d t x i s ht hx hi hset =>
    have hwords : t.kind.isWord = true ∧ x.kind.isWord = true ∧ i.kind.isWord = true ∧ s.kind.isWord = true :=
      ⟨ht ▸ rfl, hx ▸ rfl, hi ▸ rfl, hset ▸ rfl⟩
    refine ⟨0, fun rest => ?_⟩
    simp [levels_word, hwords, hd]
  | @group d l ts r e hl _ hr ih =>
    have hopens : l.kind.opens = true := hl ▸ rfl
    obtain ⟨n, hinner⟩ := ih (.leftParen :: opened) (by simpa using hd) (.inr (.inr (by simp)))
    refine ⟨0, fun rest => ?_⟩
    rw [List.map_cons, List.map_append, List.cons_append, List.append_assoc, levels_opens hopens, hl, hinner]
    simp [levels_close hr, hd]

theorem eq_levels (h : Derives 0 .expression ts e) : ts = levels [] (ts.map Prod.snd) := by
  obtain ⟨n, hlevels⟩ := h.levels_append [] rfl (.inr (.inr (by simp)))
  have hwhole := hlevels []
  simpa [levels] using hwhole.symm

theorem take_eq {us : List (Nat × Token)} {f : Expr String} (h : Derives 0 .expression ts e)
    (h' : Derives 0 .expression us f) {n : Nat}
    (heq : (ts.map Prod.snd).take n = (us.map Prod.snd).take n) : ts.take n = us.take n := by
  rw [h.eq_levels, h'.eq_levels, levels_take, levels_take, heq]

theorem kind_ne_eof (h : Derives d s ts e) : ∀ t ∈ ts, t.2.kind ≠ .eof := by
  induction h with
  | implication _ ih | binary _ ih | unary _ ih | primary _ ih => exact ih
  | implies _ ht _ iha ihb | equivalent _ ht _ iha ihb | and _ ht _ iha ihb | or _ ht _ iha ihb => grind
  | not ht _ ih => grind
  | identifier ht => grind
  | one ht hx hi hs | all ht hx hi hs => grind
  | group hl _ hr ih => grind

theorem exists_deeper (h : Derives d s ts e) : ∀ t ∈ ts, t.2.kind.opens = true → ∃ u, (t.1 + 1, u) ∈ ts := by
  induction h with
  | implication _ ih | binary _ ih | unary _ ih | primary _ ih => exact ih
  | implies _ ht _ iha ihb | equivalent _ ht _ iha ihb | and _ ht _ iha ihb | or _ ht _ iha ihb =>
    intro u hu hopens
    rcases List.mem_append.mp hu with hu | hu
    · obtain ⟨v, hv⟩ := iha u hu hopens
      exact ⟨v, List.mem_append_left _ hv⟩
    · rcases List.mem_cons.mp hu with rfl | hu
      · rw [ht] at hopens
        cases hopens
      · obtain ⟨v, hv⟩ := ihb u hu hopens
        exact ⟨v, List.mem_append_right _ (List.mem_cons_of_mem _ hv)⟩
  | not ht ha ih =>
    intro u hu hopens
    rcases List.mem_cons.mp hu with rfl | hu
    · obtain ⟨v, hv⟩ := ha.exists_token
      exact ⟨v, List.mem_cons_of_mem _ hv⟩
    · obtain ⟨v, hv⟩ := ih u hu hopens
      exact ⟨v, List.mem_cons_of_mem _ hv⟩
  | identifier ht => simp [ht, Token.Kind.opens]
  | one ht hx hi hs | all ht hx hi hs => simp [ht, hx, hi, hs, Token.Kind.opens]
  | group hl he hr ih =>
    intro u hu hopens
    rcases List.mem_cons.mp hu with rfl | hu
    · obtain ⟨v, hv⟩ := he.exists_token
      exact ⟨v, List.mem_cons_of_mem _ (List.mem_append_left _ hv)⟩
    · rcases List.mem_append.mp hu with hu | hu
      · obtain ⟨v, hv⟩ := ih u hu hopens
        exact ⟨v, List.mem_cons_of_mem _ (List.mem_append_left _ hv)⟩
      · obtain rfl := List.mem_singleton.mp hu
        rw [hr] at hopens
        cases hopens

end Derives

end PseudoBoolean
