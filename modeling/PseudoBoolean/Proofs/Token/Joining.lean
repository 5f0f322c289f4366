import PseudoBoolean.CommandLine
import PseudoBoolean.Proofs.Token.Tiling

namespace PseudoBoolean

open Text

def Span.shift (n : Nat) (s : Span) : Span := ⟨n + s.start, n + s.stop⟩

def Token.shift (n : Nat) (t : Token) : Token := { t with span := t.span.shift n }

def Location.shift (n : Nat) : Location → Location
  | .text span lexeme => .text (span.shift n) lexeme
  | .endOfText offset => .endOfText (n + offset)

def Diagnostic.shift (n : Nat) (d : Diagnostic) : Diagnostic := { d with location := d.location.shift n }

def Unexpected.shift (n : Nat) (u : Unexpected) : Unexpected := { u with offset := n + u.offset }

theorem Unexpected.diagnostic_shift (n : Nat) (u : Unexpected) : (u.shift n).diagnostic = u.diagnostic.shift n := by
  simp [diagnostic, shift, Diagnostic.shift, Location.shift, Span.shift, Nat.add_assoc]

namespace Piece

theorem head?_append_blank {b d : Char} (hb : isBlank b = true) (hd : isBlank d = false) (cs rest : List Char) :
    (cs ++ b :: rest).head? = some d ↔ cs.head? = some d := by
  cases cs with
  | nil =>
    have hne : b ≠ d := by
      intro h
      rw [h, hd] at hb
      cases hb
    simp [hne]
  | cons c cs => simp

theorem front_append_blank {b : Char} (hb : isBlank b = true) (c : Char) (cs rest : List Char) :
    front c (cs ++ b :: rest) = front c cs := by
  have himplies := head?_append_blank hb (d := '>') rfl cs rest
  have hequivalent := head?_append_blank hb (d := '=') rfl cs rest
  have hword := takeWhile_append_of_endsWord (endsWord_of_isBlank hb rest) cs
  simp only [front, himplies, hequivalent, hword]

theorem rest_append_blank {b : Char} (hb : isBlank b = true) (c : Char) (cs rest : List Char) :
    Piece.rest c (cs ++ b :: rest) = Piece.rest c cs ++ b :: rest := by
  have hlength := congrArg List.length (front_chars_append_rest c cs)
  rw [List.length_append, List.length_cons] at hlength
  rw [Piece.rest, front_append_blank hb, Piece.rest, List.drop_append_of_le_length]
  omega

end Piece

theorem pieces_append_blank {b : Char} (hb : isBlank b = true) (cs rest : List Char) :
    pieces (cs ++ b :: rest) = pieces cs ++ .blank b :: pieces rest := by
  fun_induction pieces cs with
  | case1 => exact pieces_blank hb rest
  | case2 c cs ih =>
    rw [List.cons_append, pieces, Piece.front_append_blank hb, Piece.rest_append_blank hb, ih]
    rfl

theorem placed_append (offset : Nat) (ps qs : List Piece) :
    placed offset (ps ++ qs) = placed offset ps ++ placed (offset + byteLength (ps.flatMap Piece.chars)) qs := by
  induction ps generalizing offset with
  | nil => rfl
  | cons p ps ih =>
    rw [List.cons_append, placed, placed, ih, List.flatMap_cons, byteLength_append, List.cons_append, Nat.add_assoc]

theorem placed_add (n offset : Nat) (ps : List Piece) :
    placed (n + offset) ps = (placed offset ps).map fun (offset, p) => (n + offset, p) := by
  induction ps generalizing offset with
  | nil => rfl
  | cons p ps ih => rw [placed, placed, Nat.add_assoc, ih, List.map_cons]

theorem filterMap_tokenAt?_add (n : Nat) (ps : List (Nat × Piece)) :
    (ps.map fun (offset, p) => (n + offset, p)).filterMap (fun (offset, p) => p.tokenAt? offset) =
      (ps.filterMap fun (offset, p) => p.tokenAt? offset).map (.shift n) := by
  rw [List.filterMap_map, List.map_filterMap]
  congr 1
  funext ⟨offset, p⟩
  cases p <;> simp [Piece.tokenAt?, Token.shift, Span.shift, Nat.add_assoc]

theorem filterMap_unexpectedAt?_add (n : Nat) (ps : List (Nat × Piece)) :
    (ps.map fun (offset, p) => (n + offset, p)).filterMap (fun (offset, p) => p.unexpectedAt? offset) =
      (ps.filterMap fun (offset, p) => p.unexpectedAt? offset).map (.shift n) := by
  rw [List.filterMap_map, List.map_filterMap]
  congr 1
  funext ⟨offset, p⟩
  cases p <;> rfl

theorem placed_append_space (s t : String) :
    placed 0 (pieces (s ++ " " ++ t).toList) = placed 0 (pieces s.toList) ++ (s.utf8ByteSize, .blank ' ') ::
      (placed 0 (pieces t.toList)).map fun (offset, p) => (s.utf8ByteSize + 1 + offset, p) := by
  have htext : (s ++ " " ++ t).toList = s.toList ++ ' ' :: t.toList := by simp
  rw [htext, pieces_append_blank rfl, placed_append, flatMap_chars_pieces, byteLength_toList, placed, Nat.zero_add,
    ← placed_add]
  rfl

theorem scan_tokens_append_space (s t : String) : (scan (s ++ " " ++ t)).tokens =
    (scan s).tokens.dropLast ++ (scan t).tokens.map (.shift (s.utf8ByteSize + 1)) := by
  have hend : Token.endAt (byteLength (s ++ " " ++ t).toList) =
      (Token.endAt (byteLength t.toList)).shift (s.utf8ByteSize + 1) := by
    rw [byteLength_toList, byteLength_toList, String.utf8ByteSize_append, String.utf8ByteSize_append]
    rfl
  simp only [scan, placed_append_space, hend, List.dropLast_concat]
  rw [List.filterMap_append, List.filterMap_cons_none rfl, filterMap_tokenAt?_add, List.append_assoc, List.map_append]
  rfl

theorem scan_unexpected_append_space (s t : String) : (scan (s ++ " " ++ t)).unexpected =
    (scan s).unexpected ++ (scan t).unexpected.map (.shift (s.utf8ByteSize + 1)) := by
  simp only [scan, placed_append_space]
  rw [List.filterMap_append, List.filterMap_cons_none rfl, filterMap_unexpectedAt?_add]

theorem scan_diagnostics_append_space (s t : String) : (scan (s ++ " " ++ t)).diagnostics =
    (scan s).diagnostics ++ (scan t).diagnostics.map (.shift (s.utf8ByteSize + 1)) := by
  simp only [Scan.diagnostics, scan_unexpected_append_space, List.map_append, List.map_map]
  congr 2
  funext u
  exact u.diagnostic_shift _

def wordsFrom (offset : Nat) : List String → List (Nat × String)
  | [] => []
  | w :: ws => (offset, w) :: wordsFrom (offset + w.utf8ByteSize + 1) ws

theorem wordsFrom_add (n offset : Nat) (ws : List String) :
    wordsFrom (n + offset) ws = (wordsFrom offset ws).map fun p => (n + p.1, p.2) := by
  induction ws generalizing offset with
  | nil => rfl
  | cons w ws ih => rw [wordsFrom, wordsFrom, Nat.add_assoc, Nat.add_assoc, ih, List.map_cons, Nat.add_assoc]

theorem eq_flatMap_wordsFrom {β : Type} (found : String → List β) {shift : Nat → β → β} (hnil : found "" = [])
    (hjoin : ∀ s t, found (s ++ " " ++ t) = found s ++ (found t).map (shift (s.utf8ByteSize + 1)))
    (hzero : ∀ b, shift 0 b = b) (hadd : ∀ n m b, shift n (shift m b) = shift (n + m) b) (ws : List String) :
    found (" ".intercalate ws) = (wordsFrom 0 ws).flatMap fun p => (found p.2).map (shift p.1) := by
  induction ws with
  | nil => simpa [wordsFrom] using hnil
  | cons w ws ih =>
    have hfirst : (found w).map (shift 0) = found w := by
      rw [funext hzero, List.map_id']
    cases ws with
    | nil => simp [wordsFrom, hfirst]
    | cons v ws =>
      have hwords : wordsFrom 0 (w :: v :: ws) =
          (0, w) :: (wordsFrom 0 (v :: ws)).map fun p => (w.utf8ByteSize + 1 + p.1, p.2) := by
        rw [← wordsFrom_add, wordsFrom, Nat.zero_add, Nat.add_zero]
      rw [String.intercalate_cons_cons, hjoin, ih, hwords, List.flatMap_cons, hfirst, List.flatMap_map,
        List.map_flatMap]
      simp [Function.comp_def, hadd]

theorem Span.shift_zero (s : Span) : s.shift 0 = s := by
  simp [shift]

theorem Span.shift_shift (n m : Nat) (s : Span) : (s.shift m).shift n = s.shift (n + m) := by
  simp [shift, Nat.add_assoc]

theorem Token.shift_zero (t : Token) : t.shift 0 = t := by
  simp [shift, Span.shift_zero]

theorem Token.shift_shift (n m : Nat) (t : Token) : (t.shift m).shift n = t.shift (n + m) := by
  simp [shift, Span.shift_shift]

theorem Diagnostic.shift_zero (d : Diagnostic) : d.shift 0 = d := by
  obtain ⟨stage, message, location⟩ := d
  cases location <;> simp [shift, Location.shift, Span.shift_zero]

theorem Diagnostic.shift_shift (n m : Nat) (d : Diagnostic) : (d.shift m).shift n = d.shift (n + m) := by
  obtain ⟨stage, message, location⟩ := d
  cases location <;> simp [shift, Location.shift, Span.shift_shift, Nat.add_assoc]

theorem scan_tokens_eq (source : String) :
    (scan source).tokens = (scan source).tokens.dropLast ++ [.endAt source.utf8ByteSize] := by
  rw [← byteLength_toList, scan, List.dropLast_concat]

theorem scan_dropLast_append_space (s t : String) : (scan (s ++ " " ++ t)).tokens.dropLast =
    (scan s).tokens.dropLast ++ (scan t).tokens.dropLast.map (.shift (s.utf8ByteSize + 1)) := by
  rw [scan_tokens_append_space, scan_tokens_eq t, List.map_append, ← List.append_assoc]
  simp

theorem scan_empty : scan "" = ⟨[.endAt 0], []⟩ := by
  simp [scan, pieces, placed, byteLength]

theorem scan_joined_by_spaces (s t : String) (i : CommandLine.Invocation) :
    (scan (s ++ " " ++ t)).tokens =
      (scan s).tokens.dropLast ++ (scan t).tokens.map (.shift (s.utf8ByteSize + 1)) ∧
    (scan (s ++ " " ++ t)).diagnostics =
      (scan s).diagnostics ++ (scan t).diagnostics.map (.shift (s.utf8ByteSize + 1)) ∧
    (scan i.source).tokens =
      (wordsFrom 0 i.words).flatMap (fun p => (scan p.2).tokens.dropLast.map (.shift p.1)) ++
        [.endAt i.source.utf8ByteSize] ∧
    (scan i.source).diagnostics =
      (wordsFrom 0 i.words).flatMap fun p => (scan p.2).diagnostics.map (.shift p.1) := by
  have htokens := eq_flatMap_wordsFrom (fun w => (scan w).tokens.dropLast) (by rw [scan_empty]; rfl)
    scan_dropLast_append_space Token.shift_zero Token.shift_shift i.words
  have hdiagnostics := eq_flatMap_wordsFrom (fun w => (scan w).diagnostics) (by rw [scan_empty]; rfl)
    scan_diagnostics_append_space Diagnostic.shift_zero Diagnostic.shift_shift i.words
  refine ⟨scan_tokens_append_space s t, scan_diagnostics_append_space s t, ?_, hdiagnostics⟩
  rw [scan_tokens_eq, ← htokens]
  rfl

end PseudoBoolean
