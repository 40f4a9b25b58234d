import Mathlib
import Blockwork.Proofs.Script.Quoting
import Blockwork.Proofs.Script.Slices

/-!
# A literal inserted among the lexemes

`Words.lean` reads a word alone and in front of blank characters. Here the word stays where it is
and the text behind it changes. What follows a word can make a name, a number or a mark longer, or
make a comment of a slash, but only the first character of it counts (`scanToken_local`); behind a
parenthesis not even that one does. So the lexemes in front of an insertion stay the same, and those
behind it only move (`scanFrom_shift`).

A quoted text is itself read in front of anything (`fits_quoteChars`), which a name or a number is
not.

## Main result

* `scan_inserted_quote`: scanning undoes `Json.quote`, alone and behind a parenthesis.
-/

namespace Blockwork.Script

open Json (quote quoteChars)
open Text (size isBlank)

variable {offset after n : Nat} {cs gap ws rest rest' : List Char} {c : Char} {t : Token}

/-! ### What is skipped -/

/-- A comment is skipped up to the end of its line. -/
theorem skipBlank_comment {body : List Char} (h : '\n' ∉ body) (rest : List Char) :
    skipBlank true (body ++ '\n' :: rest)
      = (size (body ++ ['\n']) + (skipBlank false rest).1, (skipBlank false rest).2) := by
  induction body with
  | nil =>
    rw [List.nil_append, skipBlank]
    rfl
  | cons c body ih =>
    have hc : decide (c ≠ '\n') = true := decide_eq_true (List.ne_of_not_mem_cons h).symm
    rw [List.cons_append, skipBlank]
    simp only [if_true, hc, ih (List.not_mem_of_not_mem_cons h), List.cons_append, Text.size_cons,
      Nat.add_assoc]

/-- A gap is skipped, whatever follows it. -/
theorem skipBlank_gap (h : IsGap false gap) (rest : List Char) :
    skipBlank false (gap ++ rest)
      = (size gap + (skipBlank false rest).1, (skipBlank false rest).2) := by
  induction h with
  | nil => rw [List.nil_append, Text.size_nil, Nat.zero_add]
  | @blank c cs hc _ ih =>
    rw [List.cons_append, skipBlank]
    simp only [Bool.false_eq_true, if_false, hc, if_true, ih, Text.size_cons, Nat.add_assoc]
  | @comment body cs hbody _ ih =>
    -- the second slash of the comment belongs to the line that is skipped
    have hslash : '\n' ∉ '/' :: body := List.not_mem_cons_of_ne_of_not_mem (by decide) hbody
    have hline := skipBlank_comment hslash (cs ++ rest)
    rw [List.cons_append, List.cons_append, List.append_assoc, List.cons_append, skipBlank,
      if_neg Bool.false_ne_true, if_neg (by decide), if_pos ⟨rfl, rfl⟩]
    rw [List.cons_append] at hline
    simp only [hline, ih, List.cons_append, Text.size_cons, Text.size_append, Text.size_nil,
      Nat.add_assoc, Nat.zero_add]
  | lastComment hend => cases hend

/-- Where scanning goes on, nothing is skipped. -/
theorem skipBlank_stops {comment : Bool} (h : skipBlank comment cs = (n, c :: rest)) :
    isBlank c = false ∧ ¬ (c = '/' ∧ rest.head? = some '/') := by
  induction cs generalizing comment n with
  | nil => cases h
  | cons d cs ih =>
    rw [skipBlank] at h
    dsimp only at h
    split at h
    · exact ih (Prod.ext rfl (Prod.mk.inj h).2)
    split at h
    · exact ih (Prod.ext rfl (Prod.mk.inj h).2)
    split at h
    · exact ih (Prod.ext rfl (Prod.mk.inj h).2)
    · next hblank hslash =>
      cases h
      exact ⟨Bool.eq_false_iff.mpr hblank, hslash⟩

theorem skipBlank_token (hblank : isBlank c = false)
    (hslash : ¬ (c = '/' ∧ rest.head? = some '/')) :
    skipBlank false (c :: rest) = (0, c :: rest) := by
  rw [skipBlank, hblank, if_neg Bool.false_ne_true, if_neg Bool.false_ne_true, if_neg hslash]

/-! ### What a token depends on -/

/-- What follows a mark matters for its first character only. -/
theorem Mark.scan?_local {m : Mark} (h : Mark.scan? (m.spelling.toList ++ rest) = some (m, rest))
    (hhead : m = .openParen ∨ rest'.head? = rest.head?) :
    Mark.scan? (m.spelling.toList ++ rest') = some (m, rest') := by
  obtain rfl | hhead := hhead
  · rfl
  -- a mark can be longer only by a plus or by an equals sign
  rcases rest with _ | ⟨d, ds⟩
  · obtain rfl : rest' = [] := List.head?_eq_none_iff.mp hhead
    exact h
  · obtain ⟨ds', rfl⟩ := List.head?_eq_some_iff.mp hhead
    by_cases hplus : d = '+'
    · subst hplus
      cases m <;> first | rfl | cases h
    by_cases hassign : d = '='
    · subst hassign
      cases m <;> first | rfl | cases h
    cases m <;> first | rfl | simp [Mark.spelling, Mark.scan?, hplus, hassign]

/-- A span ends where the character behind it says so. -/
theorem span_local {p : Char → Bool} (hc : p c = true) {word : List Char}
    (h : (c :: cs).span p = (word, rest)) :
    ∃ ws, word = c :: ws ∧ cs = ws ++ rest ∧ ∀ rest' : List Char, rest'.head? = rest.head? →
      (c :: (ws ++ rest')).span p = (c :: ws, rest') := by
  obtain ⟨ws, rfl, rfl, hws⟩ := exists_of_span hc h
  have hends : rest.head?.all (!p ·) = true := by
    rw [List.span_eq_takeWhile_dropWhile] at h
    have hhead := List.head?_dropWhile_not p (c :: (ws ++ rest))
    rw [(Prod.mk.inj h).2] at hhead
    cases rest with
    | nil => rfl
    | cons d ds => exact congrArg (!·) hhead
  refine ⟨ws, rfl, rfl, fun rest' hhead => ?_⟩
  rw [← hhead] at hends
  exact span_append (List.forall_mem_cons.mpr ⟨hc, hws⟩) hends

/-- **A token is read again** wherever its word stands, if the word is followed by the same
character as before. What follows a parenthesis does not matter. -/
theorem scanToken_local (h : scanToken offset c cs = .ok (t, after, rest)) :
    ∃ ws, cs = ws ++ rest ∧ after = offset + size (c :: ws) ∧
      ∀ offset' rest', (t = .mark .openParen ∨ rest'.head? = rest.head?) →
        scanToken offset' c (ws ++ rest') = .ok (t, offset' + size (c :: ws), rest') := by
  unfold scanToken at h
  split at h
  · next hquote =>
    -- a literal ends at its quote, whatever follows
    obtain ⟨⟨v, after', rest'⟩, hrun, hr⟩ := except_map_eq_ok h
    cases hr
    obtain ⟨ws, rfl, rfl, hword⟩ := Literal.closes_of_run hrun
    subst hquote
    refine ⟨ws, rfl, Nat.add_assoc _ _ _, fun offset' rest' _ => ?_⟩
    unfold scanToken
    rw [if_pos rfl, hword, Nat.add_assoc]
    rfl
  split at h
  · next hquote hdigit =>
    rcases hspan : (c :: cs).span inNumber with ⟨word, rest'⟩
    rw [hspan] at h
    cases h
    have hc : inNumber c = true := by rw [inNumber, hdigit, Bool.true_or]
    obtain ⟨ws, rfl, rfl, hlocal⟩ := span_local hc hspan
    refine ⟨ws, rfl, rfl, fun offset' rest' hhead => ?_⟩
    obtain hparen | hhead := hhead
    · cases hparen
    unfold scanToken
    rw [if_neg hquote, if_pos hdigit, hlocal rest' hhead]
  split at h
  · next hquote hdigit hname =>
    rcases hspan : (c :: cs).span continuesName with ⟨word, rest'⟩
    rw [hspan] at h
    cases h
    obtain ⟨ws, rfl, rfl, hlocal⟩ := span_local (continuesName_of_startsName hname) hspan
    refine ⟨ws, rfl, rfl, fun offset' rest' hhead => ?_⟩
    obtain hparen | hhead := hhead
    · rw [wordToken] at hparen
      split at hparen <;> cases hparen
    unfold scanToken
    rw [if_neg hquote, if_neg hdigit, if_pos hname, hlocal rest' hhead]
  · next hquote hdigit hname =>
    split at h
    · next m rest' hmark =>
      cases h
      -- no mark is empty, so the mark begins with this character
      have hcs := Mark.spelling_of_scan? hmark
      rcases hm : m.spelling.toList with _ | ⟨d, ws⟩
      · cases m <;> cases hm
      rw [hcs] at hmark
      rw [hm] at hcs
      cases hcs
      have hsize : m.spelling.utf8ByteSize = size (c :: ws) := by rw [← hm, Text.size_toList]
      refine ⟨ws, rfl, congrArg (offset + ·) hsize, fun offset' rest' hhead => ?_⟩
      have hmark' := Mark.scan?_local hmark (hhead.imp_left fun h => Token.mark.inj h)
      rw [hm, List.cons_append] at hmark'
      unfold scanToken
      rw [if_neg hquote, if_neg hdigit, if_neg hname, hmark']
      simp only [hsize]
    · cases h

/-! ### The first lexeme of a text -/

/-- **Scanning skips the gap and reads the word as the token**, in front of the rest and wherever
they stand. -/
def Fits (gap word : List Char) (t : Token) (rest : List Char) : Prop :=
  ∀ bound offset, scanFrom (bound + 1) offset (gap ++ (word ++ rest))
    = (scanFrom bound (offset + size gap + size word) rest).map
        (⟨t, ⟨offset + size gap, offset + size gap + size word⟩⟩ :: ·)

theorem fits_of_scanToken (hgap : IsGap false gap) (hblank : isBlank c = false)
    (hslash : ¬ (c = '/' ∧ (ws ++ rest).head? = some '/'))
    (htoken : ∀ offset, scanToken offset c (ws ++ rest) = .ok (t, offset + size (c :: ws), rest)) :
    Fits gap (c :: ws) t rest := by
  intro bound offset
  rw [List.cons_append, scanFrom, skipBlank_gap hgap, skipBlank_token hblank hslash]
  simp only [Nat.add_zero, htoken]
  rfl

theorem fits_of_scanFrom {bound : Nat} {l : Lexeme} {ls : List Lexeme}
    (h : scanFrom bound offset cs = .ok (l :: ls)) :
    ∃ b gap word t rest, bound = b + 1 ∧ cs = gap ++ (word ++ rest) ∧ word ≠ [] ∧
      l = ⟨t, ⟨offset + size gap, offset + size gap + size word⟩⟩ ∧
      scanFrom b (offset + size gap + size word) rest = .ok ls ∧
      ∀ rest', (t = .mark .openParen ∨ rest'.head? = rest.head?) → Fits gap word t rest' := by
  cases bound with
  | zero => cases h
  | succ b =>
    rw [scanFrom] at h
    rcases hskip : skipBlank false cs with ⟨n, _ | ⟨c, cs'⟩⟩
    · rw [hskip] at h
      cases h
    rw [hskip] at h
    obtain ⟨gap, rfl, rfl, hgap⟩ := isGap_of_skipBlank false hskip
    obtain ⟨hblank, hslash⟩ := skipBlank_stops hskip
    obtain ⟨⟨t, after, rest⟩, htoken, h⟩ := except_bind_eq_ok h
    obtain ⟨ls', hrest, h⟩ := except_bind_eq_ok h
    cases h
    obtain ⟨ws, rfl, rfl, hlocal⟩ := scanToken_local htoken
    refine ⟨b, gap, c :: ws, t, rest, rfl, rfl, List.cons_ne_nil _ _, rfl, hrest,
      fun rest' hhead => ?_⟩
    refine fits_of_scanToken hgap hblank ?_ fun offset' => hlocal offset' rest' hhead
    -- a slash that is a token has no other slash behind it, and has none now
    rintro ⟨rfl, hsecond⟩
    obtain hparen | hhead := hhead
    · have hone : scanToken (offset + size gap) '/' (ws ++ rest)
          = .ok (.mark .slash, offset + size gap + 1, ws ++ rest) := rfl
      rw [hone] at htoken
      rw [hparen] at htoken
      cases (Prod.mk.inj (Except.ok.inj htoken)).1
    · rw [List.head?_append, hhead, ← List.head?_append] at hsecond
      exact hslash ⟨rfl, hsecond⟩

/-! ### A literal among the lexemes -/

/-- A quoted text stands for itself in front of anything. -/
theorem fits_quoteChars (s : List Char) (rest : List Char) :
    Fits [] (quoteChars s) (.text (String.ofList s)) rest :=
  fits_of_scanToken .nil (by decide) (fun h => absurd h.1 (by decide)) fun offset =>
    scanToken_quoted offset s rest

/-- The lexeme of the same token, further back. -/
def Lexeme.shift (k : Nat) (l : Lexeme) : Lexeme :=
  ⟨l.token, ⟨l.span.start + k, l.span.stop + k⟩⟩

/-- Where there is no lexeme, there is none for any bound and offset. -/
theorem scanFrom_nil {bound : Nat} (h : scanFrom bound offset cs = .ok [])
    (hbound : cs.length ≤ bound) (bound' offset' : Nat) : scanFrom bound' offset' cs = .ok [] := by
  cases bound' with
  | zero => rfl
  | succ b' =>
    cases bound with
    | zero =>
      obtain rfl := List.length_eq_zero_iff.mp (Nat.le_zero.mp hbound)
      rfl
    | succ b =>
      rw [scanFrom] at h ⊢
      -- a lexeme behind the blanks would be in the result
      rcases hskip : skipBlank false cs with ⟨n, _ | ⟨c, cs'⟩⟩
      · rfl
      · rw [hskip] at h
        obtain ⟨⟨t, after, rest⟩, -, h⟩ := except_bind_eq_ok h
        obtain ⟨ls, -, h⟩ := except_bind_eq_ok h
        cases h

/-- Further back in a text, the same lexemes are found further back. -/
theorem scanFrom_shift {bound bound' : Nat} {ls : List Lexeme} (k : Nat)
    (h : scanFrom bound offset cs = .ok ls) (hbound : cs.length ≤ bound)
    (hbound' : cs.length ≤ bound') :
    scanFrom bound' (offset + k) cs = .ok (ls.map (·.shift k)) := by
  induction ls generalizing bound bound' offset cs with
  | nil => exact scanFrom_nil h hbound bound' (offset + k)
  | cons l ls ih =>
    obtain ⟨b, gap, word, t, rest, rfl, rfl, hword, rfl, hrest, hfits⟩ := fits_of_scanFrom h
    have hlength := List.length_pos_iff.mpr hword
    rw [List.length_append, List.length_append] at hbound hbound'
    obtain ⟨b', rfl⟩ : ∃ b', bound' = b' + 1 := Nat.exists_eq_add_one.mpr (by omega)
    have hnext : scanFrom b' (offset + size gap + size word + k) rest = .ok (ls.map (·.shift k)) :=
      ih hrest (by omega) (by omega)
    have hsize : offset + k + size gap + size word = offset + size gap + size word + k := by omega
    rw [hfits rest (.inr rfl) b' (offset + k), hsize, hnext, Nat.add_right_comm offset k]
    rfl

/-- **A piece that stands for itself** becomes one more lexeme behind a parenthesis. -/
theorem scanFrom_inserted {piece : List Char} {u : Token} (hne : piece ≠ [])
    (hpiece : ∀ rest, Fits [] piece u rest) {bound : Nat} {pre post : List Lexeme} {span : Span}
    (h : scanFrom bound offset cs = .ok (pre ++ ⟨.mark .openParen, span⟩ :: post))
    (hbound : cs.length ≤ bound) :
    ∃ before rest, cs = before ++ rest ∧ before ≠ [] ∧ span.stop = offset + size before ∧
      ∀ bound', (before ++ (piece ++ rest)).length ≤ bound' →
        scanFrom bound' offset (before ++ (piece ++ rest))
          = .ok (pre ++ ⟨.mark .openParen, span⟩ :: ⟨u, ⟨span.stop, span.stop + size piece⟩⟩ ::
              post.map (·.shift (size piece))) := by
  induction pre generalizing bound offset cs with
  | nil =>
    -- the parenthesis is next, and any text may follow it
    obtain ⟨b, gap, word, t, rest, rfl, rfl, hword, hl, hrest, hfits⟩ := fits_of_scanFrom h
    cases hl
    refine ⟨gap ++ word, rest, (List.append_assoc _ _ _).symm,
      List.append_ne_nil_of_right_ne_nil _ hword, ?_, fun bound' hbound' => ?_⟩
    · rw [Text.size_append, Nat.add_assoc]
    · have hlength := List.length_pos_iff.mpr hword
      have hpos := List.length_pos_iff.mpr hne
      simp only [List.length_append] at hbound hbound'
      have hbound₂ : 2 ≤ bound' := by omega
      obtain ⟨b', rfl⟩ := Nat.exists_eq_add_of_le' hbound₂
      have hpost : scanFrom b' (offset + size gap + size word + size piece) rest
          = .ok (post.map (·.shift (size piece))) :=
        scanFrom_shift (size piece) hrest (by omega) (by omega)
      have hparen := hfits (piece ++ rest) (.inl rfl) (b' + 1) offset
      have hquoted := hpiece rest b' (offset + size gap + size word)
      simp only [List.nil_append, Text.size_nil, Nat.add_zero, hpost] at hquoted
      rw [List.append_assoc, hparen, hquoted]
      rfl
  | cons l pre ih =>
    obtain ⟨b, gap, word, t, rest, rfl, rfl, hword, rfl, hrest, hfits⟩ := fits_of_scanFrom h
    have hlength := List.length_pos_iff.mpr hword
    rw [List.length_append, List.length_append] at hbound
    obtain ⟨before, rest, rfl, hbefore, hstop, hinserted⟩ := ih hrest (by omega)
    refine ⟨gap ++ (word ++ before), rest, by simp only [List.append_assoc],
      List.append_ne_nil_of_right_ne_nil _ (List.append_ne_nil_of_right_ne_nil _ hbefore), ?_,
      fun bound' hbound' => ?_⟩
    · rw [hstop, Text.size_append, Text.size_append]
      omega
    · simp only [List.length_append] at hbound hbound' hinserted
      obtain ⟨b', rfl⟩ : ∃ b', bound' = b' + 1 := Nat.exists_eq_add_one.mpr (by omega)
      -- the word is followed by what it was followed by before, since the piece comes later
      have hhead : (before ++ (piece ++ rest)).head? = (before ++ rest).head? := by
        rw [List.head?_append_of_ne_nil _ hbefore, List.head?_append_of_ne_nil _ hbefore]
      rw [List.append_assoc, List.append_assoc, hfits _ (.inr hhead) b' offset,
        hinserted b' (by omega)]
      rfl

/-- The text with a piece inserted at this offset. -/
def inserted (text : String) (n : Nat) (piece : String) : String :=
  Span.slice text ⟨0, n⟩ ++ piece ++ Span.slice text ⟨n, text.utf8ByteSize⟩

theorem toList_inserted {text : String} {before rest : List Char}
    (h : text.toList = before ++ rest) (piece : String) :
    (inserted text (size before) piece).toList = before ++ (piece.toList ++ rest) := by
  have hbefore : (Span.slice text ⟨0, size before⟩).toList = before := by
    have hslice := @Span.slice_append text [] before rest h
    rwa [Text.size_nil, Nat.zero_add] at hslice
  have hrest : (Span.slice text ⟨size before, text.utf8ByteSize⟩).toList = rest := by
    have hslice := @Span.slice_append text before rest [] (by rw [h, List.append_nil])
    rwa [← Text.size_append, ← h, Text.size_toList] at hslice
  rw [inserted, String.toList_append, String.toList_append, hbefore, hrest, List.append_assoc]

/-- **Quoting is undone by scanning.** -/
theorem scan_inserted_quote (s : String) :
    ('\n' ∉ (quote s).toList ∧ '\r' ∉ (quote s).toList) ∧
    scan (quote s) = .ok [⟨.text s, ⟨0, (quote s).utf8ByteSize⟩⟩] ∧
    ∀ {source : String} {pre post : List Lexeme} {span : Span},
      scan source = .ok (pre ++ ⟨.mark .openParen, span⟩ :: post) →
      scan (inserted source span.stop (quote s)) = .ok (pre ++ ⟨.mark .openParen, span⟩ ::
        ⟨.text s, ⟨span.stop, span.stop + (quote s).utf8ByteSize⟩⟩ ::
        post.map (·.shift (quote s).utf8ByteSize)) := by
  have hfits (rest : List Char) : Fits [] (quote s).toList (.text s) rest := by
    have h := fits_quoteChars s.toList rest
    rwa [String.ofList_toList, ← Json.toList_quote] at h
  have hne : (quote s).toList ≠ [] := by
    rw [Json.toList_quote]
    exact List.cons_ne_nil _ _
  have hcontrol {d : Char} (h : d ∈ (quote s).toList) : 0x20 ≤ d.toNat := by
    rw [Json.toList_quote] at h
    exact blank_le_of_mem_quoteChars h
  refine ⟨⟨fun h => absurd (hcontrol h) (by decide), fun h => absurd (hcontrol h) (by decide)⟩,
    ?_, fun h => ?_⟩
  · obtain ⟨b, hb⟩ := Nat.exists_eq_add_one.mpr (List.length_pos_iff.mpr hne)
    have halone := hfits [] b 0
    have hend : scanFrom b (0 + size [] + size (quote s).toList) [] = .ok [] := by
      cases b <;> rfl
    rw [List.nil_append, List.append_nil, hend, Text.size_toList] at halone
    rw [scan, hb, halone]
    simp [Except.map]
  · -- the bracket ends a token, so what stands in front of it is scanned as before
    obtain ⟨before, rest, hsource, -, hstop, hinserted⟩ :=
      scanFrom_inserted hne hfits h le_rfl
    rw [Nat.zero_add] at hstop
    have htext := toList_inserted hsource (quote s)
    have hscan := hinserted _ le_rfl
    rw [← htext] at hscan
    rw [hstop, scan, hscan, Text.size_toList, hstop]

/-- A text with a quote, a backslash, a line feed, a control character, two slashes and a character
of four bytes, in front of a comment that has a parenthesis of its own. -/
theorem scan_inserted_quote_comment :
    scan (inserted "f( // (\n\"b\")" 2 (quote "\"\\\n\x01//𝔸")) = .ok [⟨.name "f", ⟨0, 1⟩⟩,
      ⟨.mark .openParen, ⟨1, 2⟩⟩, ⟨.text "\"\\\n\x01//𝔸", ⟨2, 22⟩⟩, ⟨.text "b", ⟨28, 31⟩⟩,
      ⟨.mark .closeParen, ⟨31, 32⟩⟩] := by
  have hsource : scan "f( // (\n\"b\")" = .ok ([⟨.name "f", ⟨0, 1⟩⟩] ++
      ⟨.mark .openParen, ⟨1, 2⟩⟩ :: [⟨.text "b", ⟨8, 11⟩⟩, ⟨.mark .closeParen, ⟨11, 12⟩⟩]) := by
    decide +kernel
  have hsize : (quote "\"\\\n\x01//𝔸").utf8ByteSize = 20 := by decide +kernel
  have hinserted := (scan_inserted_quote "\"\\\n\x01//𝔸").2.2 hsource
  rw [hsize] at hinserted
  exact hinserted

end Blockwork.Script
