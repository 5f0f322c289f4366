import PseudoBoolean.Proofs.Token.Lexeme

namespace PseudoBoolean

open Text

/-- The text is what stands in the source at the bytes of the span, which begins and ends between characters. -/
structure Span.IsSlice (span : Span) (source text : String) : Prop where
  ordered : span.start ≤ span.stop
  start_valid : String.Pos.Raw.IsValid source ⟨span.start⟩
  stop_valid : String.Pos.Raw.IsValid source ⟨span.stop⟩
  bytes : source.toByteArray.extract span.start span.stop = text.toByteArray

inductive Consecutive : Nat → List Span → Nat → Prop
  | nil (n : Nat) : Consecutive n [] n
  | cons {start stop last : Nat} {spans : List Span} : start < stop → Consecutive stop spans last →
      Consecutive start (⟨start, stop⟩ :: spans) last

def Location.span : Location → Span
  | .text span _ => span
  | .endOfText offset => .empty offset

def Location.lexeme : Location → String
  | .text _ lexeme => lexeme
  | .endOfText _ => ""

inductive Tile
  | token (t : Token)
  | reported (d : Diagnostic)
  | skipped (c : Char) (offset : Nat)

namespace Tile

def span : Tile → Span
  | .token t => t.span
  | .reported d => d.location.span
  | .skipped c offset => ⟨offset, offset + c.utf8Size⟩

def text : Tile → String
  | .token t => t.lexeme
  | .reported d => d.location.lexeme
  | .skipped c _ => c.toString

def token? : Tile → Option Token
  | .token t => some t
  | .reported _ | .skipped _ _ => none

def diagnostic? : Tile → Option Diagnostic
  | .reported d => some d
  | .token _ | .skipped _ _ => none

end Tile

/-- Tiles that make up a source, in the order in which they stand in it. Only blanks are skipped, and what is reported
is one character. -/
structure Tiling (source : String) (tiles : List Tile) : Prop where
  consecutive : Consecutive 0 (tiles.map Tile.span) source.utf8ByteSize
  isSlice : ∀ tile ∈ tiles, tile.span.IsSlice source tile.text
  skipped : ∀ c offset, .skipped c offset ∈ tiles → c = ' ' ∨ c = '\t' ∨ c = '\r'
  reported : ∀ d, .reported d ∈ tiles →
    ∃ (c : Char) (offset : Nat), d.location = .text ⟨offset, offset + c.utf8Size⟩ c.toString

theorem byteLength_eq (cs : List Char) : byteLength cs = (String.ofList cs).utf8ByteSize := by
  induction cs with
  | nil => rfl
  | cons c cs ih =>
    rw [String.ofList_cons, String.utf8ByteSize_append, String.utf8ByteSize_singleton, ← ih]
    rfl

theorem byteLength_toList (s : String) : byteLength s.toList = s.utf8ByteSize := by
  rw [byteLength_eq, String.ofList_toList]

theorem byteLength_append (cs ds : List Char) : byteLength (cs ++ ds) = byteLength cs + byteLength ds := by
  simp only [byteLength_eq, String.ofList_append, String.utf8ByteSize_append]

theorem byteLength_pos {cs : List Char} (h : cs ≠ []) : 0 < byteLength cs := by
  obtain ⟨c, cs, rfl⟩ := List.exists_cons_of_ne_nil h
  have hc := c.utf8Size_pos
  change 0 < c.utf8Size + byteLength cs
  omega

theorem toByteArray_extract_append (s t : String) : (s ++ t).toByteArray.extract 0 s.utf8ByteSize = s.toByteArray := by
  rw [String.toByteArray_append]
  exact ByteArray.extract_append_eq_left rfl

theorem Span.isSlice_append (before text after : String) :
    IsSlice ⟨before.utf8ByteSize, before.utf8ByteSize + text.utf8ByteSize⟩ (before ++ text ++ after) text where
  ordered := Nat.le_add_right _ _
  start_valid := String.Pos.Raw.isValid_iff_exists_append.mpr ⟨before, text ++ after, by rw [String.append_assoc], rfl⟩
  stop_valid := String.Pos.Raw.isValid_iff_exists_append.mpr
    ⟨before ++ text, after, rfl, by rw [String.rawEndPos, String.utf8ByteSize_append]⟩
  bytes := by
    rw [String.append_assoc, String.toByteArray_append]
    have hshift := ByteArray.extract_append_size_add (a := before.toByteArray) (b := (text ++ after).toByteArray)
      (i := 0) (j := text.utf8ByteSize)
    exact hshift.trans (toByteArray_extract_append text after)

theorem append_inj_of_utf8ByteSize {s t s' t' : String} (h : s ++ t = s' ++ t')
    (hsize : s.utf8ByteSize = s'.utf8ByteSize) : s = s' ∧ t = t' := by
  have hs : s = s' := by
    rw [← String.toByteArray_inj, ← toByteArray_extract_append s t, ← toByteArray_extract_append s' t', h, hsize]
  subst hs
  exact ⟨rfl, (String.append_right_inj s).mp h⟩

theorem Span.IsSlice.exists_append {span : Span} {source text : String} (h : span.IsSlice source text) :
    ∃ before after, source = before ++ text ++ after ∧ before.utf8ByteSize = span.start := by
  obtain ⟨before, rest, hsource, hstart⟩ := String.Pos.Raw.isValid_iff_exists_append.mp h.start_valid
  obtain ⟨upto, after, hsource', hstop⟩ := String.Pos.Raw.isValid_iff_exists_append.mp h.stop_valid
  have hstart : span.start = before.utf8ByteSize := congrArg String.Pos.Raw.byteIdx hstart
  have hstop : span.stop = upto.utf8ByteSize := congrArg String.Pos.Raw.byteIdx hstop
  have hupto : upto = before ++ text := by
    have hbefore := toByteArray_extract_append before rest
    have hwhole := toByteArray_extract_append upto after
    rw [← hsource, ← hstart] at hbefore
    rw [← hsource', ← hstop] at hwhole
    rw [← String.toByteArray_inj, String.toByteArray_append, ← h.bytes, ← hbefore, ← hwhole]
    exact ByteArray.extract_eq_extract_append_extract span.start (Nat.zero_le _) h.ordered
  exact ⟨before, after, hupto ▸ hsource', hstart.symm⟩

namespace Consecutive

theorem start_le {start last : Nat} {spans : List Span} (h : Consecutive start spans last) :
    ∀ span ∈ spans, start ≤ span.start := by
  induction h with
  | nil => simp
  | cons hlt _ ih =>
    rintro span (_ | ⟨_, hspan⟩)
    · exact Nat.le_refl _
    · have := ih span hspan
      omega

theorem pairwise_start {start last : Nat} {spans : List Span} (h : Consecutive start spans last) :
    spans.Pairwise fun s t => s.start < t.start := by
  induction h with
  | nil => exact .nil
  | cons hlt h ih =>
    refine List.pairwise_cons.mpr ⟨fun span hspan => ?_, ih⟩
    exact Nat.lt_of_lt_of_le hlt (h.start_le span hspan)

end Consecutive

namespace Piece

theorem chars_front_ne_nil (c : Char) (cs : List Char) : (front c cs).chars ≠ [] := by
  intro hnil
  have hlength := congrArg List.length (front_chars_append_rest c cs)
  have hrest := rest_length c cs
  rw [hnil] at hlength
  simp only [List.nil_append, List.length_cons] at hlength
  omega

theorem isBlank_of_front {c d : Char} {cs : List Char} (h : front c cs = .blank d) : isBlank d = true := by
  unfold front at h
  split at h
  case h_8 =>
    split at h
    next hblank =>
      cases h
      exact hblank
    · split at h <;> cases h
  case h_6 | h_7 => split at h <;> cases h
  all_goals cases h

theorem isWordStart_of_front {c : Char} {cs word : List Char} {kind : Token.Kind} (h : front c cs = .token kind word)
    (hk : kind.isWord = true) : isWordStart c = true := by
  unfold front at h
  split at h
  case h_8 =>
    split at h
    · cases h
    · split at h
      next hstart => exact hstart
      · cases h
  case h_6 | h_7 =>
    split at h <;> cases h
    cases hk
  all_goals cases h; cases hk

theorem endsWord_rest {c : Char} {cs word : List Char} {kind : Token.Kind} (h : front c cs = .token kind word)
    (hk : kind.isWord = true) : EndsWord (rest c cs) := by
  have hfront := front_of_isWordStart (isWordStart_of_front h hk) cs
  have hrest : rest c cs = cs.dropWhile isWordPart := by
    have hsplit := front_chars_append_rest c cs
    rw [hfront, chars, List.cons_append, List.cons.injEq] at hsplit
    have hwhile := List.takeWhile_append_dropWhile (p := isWordPart) (l := cs)
    exact List.append_cancel_left (hsplit.2.trans hwhile.symm)
  intro d hd
  have hnot := List.head?_dropWhile_not isWordPart cs
  rw [← hrest, hd] at hnot
  exact hnot

end Piece

theorem pieces_of_append {cs : List Char} {before after : List Piece} {p : Piece}
    (h : pieces cs = before ++ p :: after) :
    ∃ c rest, p = Piece.front c rest ∧ after.flatMap Piece.chars = Piece.rest c rest ∧
      cs = before.flatMap Piece.chars ++ (p.chars ++ after.flatMap Piece.chars) := by
  fun_induction pieces cs generalizing before with
  | case1 => simp at h
  | case2 c cs ih =>
    cases before with
    | nil =>
      obtain ⟨rfl, rfl⟩ := List.cons.inj h
      refine ⟨c, cs, rfl, flatMap_chars_pieces _, ?_⟩
      rw [flatMap_chars_pieces]
      exact (Piece.front_chars_append_rest c cs).symm
    | cons q before =>
      obtain ⟨rfl, htail⟩ := List.cons.inj h
      obtain ⟨d, rest, hp, hafter, hcs⟩ := ih htail
      refine ⟨d, rest, hp, hafter, ?_⟩
      rw [List.flatMap_cons, List.append_assoc, ← hcs]
      exact (Piece.front_chars_append_rest c cs).symm

theorem exists_append_of_mem_placed {offset n : Nat} {p : Piece} {ps : List Piece} (h : (n, p) ∈ placed offset ps) :
    ∃ before after, ps = before ++ p :: after ∧ n = offset + byteLength (before.flatMap Piece.chars) := by
  induction ps generalizing offset with
  | nil => cases h
  | cons q ps ih =>
    rcases List.mem_cons.mp h with h | h
    · cases h
      exact ⟨[], ps, rfl, rfl⟩
    · obtain ⟨before, after, hps, hn⟩ := ih h
      refine ⟨q :: before, after, by rw [hps, List.cons_append], ?_⟩
      rw [hn, List.flatMap_cons, byteLength_append, Nat.add_assoc]

theorem exists_texts_of_mem_placed {source : String} {n : Nat} {p : Piece}
    (h : (n, p) ∈ placed 0 (pieces source.toList)) :
    ∃ before after c rest, source = before ++ String.ofList p.chars ++ after ∧ n = before.utf8ByteSize ∧
      p = Piece.front c rest ∧ after.toList = Piece.rest c rest := by
  obtain ⟨before, after, hpieces, hn⟩ := exists_append_of_mem_placed h
  obtain ⟨c, rest, hp, hafter, hsource⟩ := pieces_of_append hpieces
  refine ⟨String.ofList (before.flatMap Piece.chars), String.ofList (after.flatMap Piece.chars), c, rest, ?_, ?_, hp, ?_⟩
  · rw [← String.ofList_append, ← String.ofList_append, List.append_assoc, ← hsource, String.ofList_toList]
  · rw [hn, byteLength_eq, Nat.zero_add]
  · rw [String.toList_ofList, hafter]

namespace Tile

def ofPlaced : Nat × Piece → Tile
  | (offset, .token kind cs) => .token ⟨kind, String.ofList cs, ⟨offset, offset + byteLength cs⟩⟩
  | (offset, .blank c) => .skipped c offset
  | (offset, .unexpected c) => .reported (Unexpected.diagnostic ⟨c, offset⟩)

theorem span_ofPlaced (offset : Nat) (p : Piece) :
    (ofPlaced (offset, p)).span = ⟨offset, offset + byteLength p.chars⟩ := by
  cases p <;> rfl

theorem text_ofPlaced (offset : Nat) (p : Piece) : (ofPlaced (offset, p)).text = String.ofList p.chars := by
  cases p with
  | token kind cs => rfl
  | blank c | unexpected c => exact String.singleton_eq_ofList

theorem token?_ofPlaced (placed : List (Nat × Piece)) :
    (placed.map ofPlaced).filterMap token? = placed.filterMap fun (offset, p) => p.tokenAt? offset := by
  rw [List.filterMap_map]
  congr 1
  funext ⟨offset, p⟩
  cases p <;> rfl

theorem diagnostic?_ofPlaced (placed : List (Nat × Piece)) :
    (placed.map ofPlaced).filterMap diagnostic? =
      (placed.filterMap fun (offset, p) => p.unexpectedAt? offset).map Unexpected.diagnostic := by
  rw [List.filterMap_map, List.map_filterMap]
  congr 1
  funext ⟨offset, p⟩
  cases p <;> rfl

end Tile

theorem consecutive_placed {ps : List Piece} (h : ∀ p ∈ ps, p.chars ≠ []) (offset : Nat) :
    Consecutive offset (((placed offset ps).map Tile.ofPlaced).map Tile.span)
      (offset + byteLength (ps.flatMap Piece.chars)) := by
  induction ps generalizing offset with
  | nil => exact .nil offset
  | cons p ps ih =>
    have hpos := byteLength_pos (h p List.mem_cons_self)
    have hrest := ih (fun q hq => h q (List.mem_cons_of_mem _ hq)) (offset + byteLength p.chars)
    rw [placed, List.map_cons, List.map_cons, Tile.span_ofPlaced, List.flatMap_cons, byteLength_append, ← Nat.add_assoc]
    exact .cons (by omega) hrest

theorem isSlice_of_mem_placed {source : String} {tile : Tile}
    (h : tile ∈ (placed 0 (pieces source.toList)).map Tile.ofPlaced) : tile.span.IsSlice source tile.text := by
  obtain ⟨⟨n, p⟩, hmem, rfl⟩ := List.mem_map.mp h
  obtain ⟨before, after, c, rest, hsource, hn, -, -⟩ := exists_texts_of_mem_placed hmem
  rw [Tile.span_ofPlaced, Tile.text_ofPlaced, byteLength_eq, hsource, hn]
  exact Span.isSlice_append before _ after

theorem tiling_pieces (source : String) : Tiling source ((placed 0 (pieces source.toList)).map Tile.ofPlaced) where
  consecutive := by
    have hpieces : ∀ p ∈ pieces source.toList, p.chars ≠ [] := by
      intro p hp
      obtain ⟨before, after, h⟩ := List.append_of_mem hp
      obtain ⟨c, rest, rfl, -, -⟩ := pieces_of_append h
      exact Piece.chars_front_ne_nil c rest
    have h := consecutive_placed hpieces 0
    rwa [flatMap_chars_pieces, byteLength_toList, Nat.zero_add] at h
  isSlice _ := isSlice_of_mem_placed
  skipped := by
    intro c offset h
    obtain ⟨⟨n, p⟩, hmem, htile⟩ := List.mem_map.mp h
    obtain ⟨-, -, d, rest, -, -, hp, -⟩ := exists_texts_of_mem_placed hmem
    cases p <;> cases htile
    have hblank := Piece.isBlank_of_front hp.symm
    simpa [isBlank, or_assoc] using hblank
  reported := by
    intro d h
    obtain ⟨⟨n, p⟩, -, htile⟩ := List.mem_map.mp h
    cases p <;> cases htile
    exact ⟨_, n, rfl⟩

theorem exists_texts_of_mem_scan {source : String} {t : Token} (h : t ∈ (scan source).tokens) (hk : t.kind ≠ .eof) :
    ∃ before after, source = before ++ t.lexeme ++ after ∧
      t.span = ⟨before.utf8ByteSize, before.utf8ByteSize + t.lexeme.utf8ByteSize⟩ ∧
      (t.kind.isWord = true → EndsWord after.toList) := by
  rcases List.mem_append.mp h with h | h
  · obtain ⟨⟨n, p⟩, hmem, htoken⟩ := List.mem_filterMap.mp h
    obtain ⟨before, after, c, rest, hsource, hn, hp, hafter⟩ := exists_texts_of_mem_placed hmem
    cases p <;> cases htoken
    refine ⟨before, after, hsource, ?_, fun hword => ?_⟩
    · rw [hn, byteLength_eq]
    · rw [hafter]
      exact Piece.endsWord_rest hp.symm hword
  · rw [List.mem_singleton.mp h] at hk
    exact absurd rfl hk

theorem isSlice_of_mem_scan {source : String} {t : Token} (h : t ∈ (scan source).tokens) :
    t.span.IsSlice source t.lexeme := by
  by_cases hk : t.kind = .eof
  · obtain ⟨ts, htokens, hkinds, -⟩ := exists_scan_tokens source
    rw [htokens] at h
    rcases List.mem_append.mp h with h | h
    · exact absurd hk (hkinds t h)
    · obtain rfl := List.mem_singleton.mp h
      have hslice := Span.isSlice_append source "" ""
      simpa [Token.endAt, Span.empty, byteLength_eq] using hslice
  · obtain ⟨before, after, hsource, hspan, -⟩ := exists_texts_of_mem_scan h hk
    have hslice := Span.isSlice_append before t.lexeme after
    rwa [← hsource, ← hspan] at hslice

theorem isWordPart_eq_false_of_isSlice {source : String} {t : Token} {c : Char} (h : t ∈ (scan source).tokens)
    (hword : t.kind.isWord = true) (hc : Span.IsSlice ⟨t.span.stop, t.span.stop + c.utf8Size⟩ source c.toString) :
    isWordPart c = false := by
  have hk : t.kind ≠ .eof := by
    intro hk
    rw [hk] at hword
    cases hword
  obtain ⟨before, after, hsource, hspan, hends⟩ := exists_texts_of_mem_scan h hk
  obtain ⟨before', after', hsource', hsize⟩ := hc.exists_append
  -- the source is cut behind the token in both ways
  have hcut : before ++ t.lexeme ++ after = before' ++ (c.toString ++ after') := by
    rw [← hsource, hsource', String.append_assoc]
  have hafter : after = c.toString ++ after' := by
    apply (append_inj_of_utf8ByteSize hcut _).2
    rw [String.utf8ByteSize_append, hsize, hspan]
  apply hends hword
  simp [hafter]

theorem Location.span_start (l : Location) : l.span.start = l.offset := by
  cases l <;> rfl

theorem pairwise_offset {start last : Nat} {tiles : List Tile} (h : Consecutive start (tiles.map Tile.span) last) :
    (tiles.filterMap Tile.diagnostic?).Pairwise fun d e => d.location.offset < e.location.offset := by
  rw [List.pairwise_filterMap]
  apply (List.pairwise_map.mp h.pairwise_start).imp
  intro tile tile' hlt d hd e he
  cases tile <;> cases hd
  cases tile' <;> cases he
  rwa [Tile.span, Tile.span, Location.span_start, Location.span_start] at hlt

theorem scan_tiles_source (source : String) :
    (∃ tiles, Tiling source tiles ∧ tiles.filterMap Tile.token? = (scan source).tokens.dropLast ∧
      tiles.filterMap Tile.diagnostic? = (scan source).diagnostics) ∧
    ((scan source).diagnostics.Pairwise fun d e => d.location.offset < e.location.offset) ∧
    (scan source).tokens.getLast? = some ⟨.eof, "", ⟨source.utf8ByteSize, source.utf8ByteSize⟩⟩ ∧
    (∀ t ∈ (scan source).tokens.dropLast, t.kind ≠ .eof) ∧
    (∀ t ∈ (scan source).tokens, t.span.IsSlice source t.lexeme) ∧
    ∀ t ∈ (scan source).tokens, t.kind.isWord = true → ∀ c : Char, c.isAlphanum = true ∨ c = '_' →
      ¬ Span.IsSlice ⟨t.span.stop, t.span.stop + c.utf8Size⟩ source c.toString := by
  have htiling := tiling_pieces source
  have hdiagnostics := Tile.diagnostic?_ofPlaced (placed 0 (pieces source.toList))
  obtain ⟨ts, htokens, hkinds, -⟩ := exists_scan_tokens source
  refine ⟨⟨_, htiling, ?_, hdiagnostics⟩, ?_, ?_, ?_, fun t => isSlice_of_mem_scan, ?_⟩
  · rw [Tile.token?_ofPlaced, scan, List.dropLast_concat]
  · rw [Scan.diagnostics, scan, ← hdiagnostics]
    exact pairwise_offset htiling.consecutive
  · rw [htokens, List.getLast?_concat, byteLength_toList]
    rfl
  · rwa [htokens, List.dropLast_concat]
  · intro t ht hword c hc hslice
    have hpart : isWordPart c = true := by simpa [isWordPart] using hc
    rw [isWordPart_eq_false_of_isSlice ht hword hslice] at hpart
    cases hpart

/-- A word ends before `é`, which `Char.isAlphanum` does not count as a letter, since only those of ASCII are. -/
theorem scan_tiles_source_beyond_ascii :
    let source := "oné->"
    let t : Token := ⟨.identifier, "on", ⟨0, 2⟩⟩
    t ∈ (scan source).tokens ∧ t.kind.isWord = true ∧ 'e'.isAlphanum = true ∧
      t.span.IsSlice source "on" ∧ ¬ Span.IsSlice ⟨2, 3⟩ source "e" := by
  intro source t
  have hpieces : pieces source.toList = .token .identifier ['o', 'n'] :: pieces ['é', '-', '>'] := by
    have hsource : source.toList = 'o' :: (['n'] ++ ['é', '-', '>']) := by decide
    rw [hsource]
    exact pieces_append (by decide) rfl
  have ht : t ∈ (scan source).tokens := by
    apply List.mem_append_left
    rw [hpieces, placed, List.filterMap_cons]
    exact List.mem_cons_self
  obtain ⟨-, -, -, -, hslice, hafter⟩ := scan_tiles_source source
  exact ⟨ht, rfl, by decide, hslice t ht, hafter t ht rfl 'e' (.inl (by decide))⟩

end PseudoBoolean
