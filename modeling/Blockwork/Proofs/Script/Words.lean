import Mathlib
import Blockwork.Proofs.Computation
import Blockwork.Proofs.Script.Literals

/-!
# Gaps and words

What scanning takes from a text is, by turns, a gap and a word. A gap is blank characters and
comments (`IsGap`). A word gives its token wherever a blank character or nothing follows
(`IsWord`), so it does not depend on where it has been found: what follows a word may make a number,
a name or a mark longer, but a blank character does not.

## Main results

* `isGap_of_skipBlank`: what is skipped is a gap.
* `isWord_of_scanToken`: what a token is read from is a word of that token.
-/

namespace Blockwork

/-! ### Blank characters beyond ASCII -/

namespace Text

/-- The blank characters beyond ASCII, by their code points. -/
def blankRanges : List (Nat × Nat) :=
  [(0x85, 0x85), (0xA0, 0xA0), (0x1680, 0x1680), (0x2000, 0x200A), (0x2028, 0x2029),
    (0x202F, 0x202F), (0x205F, 0x205F), (0x3000, 0x3000)]

/-- No range of the one list meets a range of the other. -/
def apart (rs bs : List (Nat × Nat)) : Bool :=
  rs.all fun r => bs.all fun b => Nat.blt r.2 b.1 || Nat.blt b.2 r.1

theorem not_inRanges_of_apart {rs bs : List (Nat × Nat)} (h : apart rs bs = true) {n : Nat}
    (hn : inRanges bs n = true) : inRanges rs n = false := by
  obtain ⟨b, hb, hbn⟩ := List.any_eq_true.mp hn
  refine List.any_eq_false.mpr fun r hr => ?_
  have hrb := List.all_eq_true.mp (List.all_eq_true.mp h r hr) b hb
  simp only [Bool.or_eq_true, Nat.blt_eq] at hrb
  simp only [Bool.and_eq_true, decide_eq_true_eq] at hbn ⊢
  omega

theorem blank_cases {c : Char} (h : isBlank c = true) :
    c.toNat ≤ 0x20 ∨ inRanges blankRanges c.toNat = true := by
  simp only [isBlank, Bool.or_eq_true, Bool.and_eq_true, decide_eq_true_eq, beq_iff_eq] at h
  simp only [inRanges, blankRanges, List.any_cons, List.any_nil, Bool.or_eq_true,
    Bool.and_eq_true, decide_eq_true_eq, Bool.false_eq_true, or_false]
  omega

/-- A blank character is not ASCII, unless it is the space or comes before it. -/
theorem toNat_of_isBlank {c : Char} (h : isBlank c = true) : c.toNat ≤ 0x20 ∨ 0x80 ≤ c.toNat := by
  simp only [isBlank, Bool.or_eq_true, Bool.and_eq_true, decide_eq_true_eq, beq_iff_eq] at h
  omega

/-- Letters and digits of ASCII lie behind the space. -/
theorem toNat_of_isAlphanum {c : Char} (h : c.isAlphanum = true) :
    0x20 < c.toNat ∧ c.toNat < 0x80 := by
  simp only [Char.isAlphanum, Char.isAlpha, Char.isUpper, Char.isLower, Char.isDigit,
    Bool.or_eq_true, Bool.and_eq_true, decide_eq_true_eq, ge_iff_le, UInt32.le_iff_toNat_le] at h
  obtain ((⟨hlow, hhigh⟩ | ⟨hlow, hhigh⟩) | ⟨hlow, hhigh⟩) := h
  -- the capital letters, the small ones, and the digits
  · exact ⟨lt_of_lt_of_le (by decide) hlow, lt_of_le_of_lt hhigh (by decide)⟩
  · exact ⟨lt_of_lt_of_le (by decide) hlow, lt_of_le_of_lt hhigh (by decide)⟩
  · exact ⟨lt_of_lt_of_le (by decide) hlow, lt_of_le_of_lt hhigh (by decide)⟩

theorem not_isAlphanum_of_isBlank {c : Char} (h : isBlank c = true) : c.isAlphanum = false := by
  have hpoint := toNat_of_isBlank h
  refine Bool.eq_false_iff.mpr fun halphanum => ?_
  have hbetween := toNat_of_isAlphanum halphanum
  omega

/-- **No blank character is a letter or a digit.** -/
theorem not_isAlphanumeric_of_isBlank {c : Char} (h : isBlank c = true) :
    isAlphanumeric c = false := by
  have hapart : apart alphanumericRanges blankRanges = true := by decide +kernel
  rw [isAlphanumeric, not_isAlphanum_of_isBlank h, Bool.false_or, Bool.and_eq_false_iff,
    decide_eq_false_iff_not]
  obtain hlow | hranges := blank_cases h
  · left
    omega
  · exact .inr (not_inRanges_of_apart hapart hranges)

end Text

namespace Script

open Text (size isBlank)

variable {offset after n : Nat} {cs rest : List Char} {c : Char} {t : Token}

/-! ### Gaps -/

/-- **Blank characters and comments.** A comment runs from two slashes to the end of its line, and
only at the end of the text may the line be without an end. -/
inductive IsGap (atEnd : Bool) : List Char → Prop
  | nil : IsGap atEnd []
  | blank {c : Char} {cs : List Char} : isBlank c = true → IsGap atEnd cs → IsGap atEnd (c :: cs)
  | comment {body cs : List Char} : '\n' ∉ body → IsGap atEnd cs →
      IsGap atEnd ('/' :: '/' :: (body ++ '\n' :: cs))
  | lastComment {body : List Char} : atEnd = true → '\n' ∉ body → IsGap atEnd ('/' :: '/' :: body)

/-- What is left of a gap once a comment has begun: the rest of its line, and a gap. -/
def IsTail (atEnd : Bool) (cs : List Char) : Prop :=
  (∃ body gap, cs = body ++ '\n' :: gap ∧ '\n' ∉ body ∧ IsGap atEnd gap) ∨
    atEnd = true ∧ '\n' ∉ cs

theorem IsTail.cons {atEnd : Bool} (hc : c ≠ '\n') (h : IsTail atEnd cs) :
    IsTail atEnd (c :: cs) := by
  obtain ⟨body, gap, rfl, hbody, hgap⟩ | ⟨hend, hcs⟩ := h
  · exact .inl ⟨c :: body, gap, rfl, List.not_mem_cons_of_ne_of_not_mem hc.symm hbody, hgap⟩
  · exact .inr ⟨hend, List.not_mem_cons_of_ne_of_not_mem hc.symm hcs⟩

theorem IsTail.comment {atEnd : Bool} (h : IsTail atEnd ('/' :: cs)) :
    IsGap atEnd ('/' :: '/' :: cs) := by
  obtain ⟨_ | ⟨b, body⟩, gap, heq, hbody, hgap⟩ | ⟨hend, hcs⟩ := h
  · cases heq
  · cases heq
    exact .comment (List.not_mem_of_not_mem_cons hbody) hgap
  · exact .lastComment hend (List.not_mem_of_not_mem_cons hcs)

/-- What has been skipped is a gap. Only in front of nothing can it end in a comment. -/
theorem isGap_of_skipBlank (comment : Bool) (h : skipBlank comment cs = (n, rest)) :
    ∃ gap, cs = gap ++ rest ∧ n = size gap ∧
      if comment then IsTail rest.isEmpty gap else IsGap rest.isEmpty gap := by
  induction cs generalizing comment n with
  | nil =>
    cases h
    refine ⟨[], rfl, rfl, ?_⟩
    cases comment with
    | true => exact .inr ⟨rfl, List.not_mem_nil⟩
    | false => exact .nil
  | cons c cs ih =>
    rw [skipBlank] at h
    dsimp only at h
    split at h
    · next hcomment =>
      subst hcomment
      rcases hrest : skipBlank (c ≠ '\n') cs with ⟨m, rest'⟩
      rw [hrest] at h
      cases h
      obtain ⟨gap, rfl, rfl, hgap⟩ := ih _ hrest
      refine ⟨c :: gap, rfl, rfl, ?_⟩
      -- the line feed ends the comment and is a blank behind it
      by_cases hc : c = '\n'
      · subst hc
        exact .inl ⟨[], gap, rfl, List.not_mem_nil, hgap⟩
      · rw [decide_eq_true hc] at hgap
        exact hgap.cons hc
    next hcomment =>
    obtain rfl : comment = false := Bool.eq_false_iff.mpr hcomment
    split at h
    · next hblank =>
      rcases hrest : skipBlank false cs with ⟨m, rest'⟩
      rw [hrest] at h
      cases h
      obtain ⟨gap, rfl, rfl, hgap⟩ := ih _ hrest
      exact ⟨c :: gap, rfl, rfl, .blank hblank hgap⟩
    split at h
    · next hslash =>
      obtain ⟨rfl, hhead⟩ := hslash
      rcases hrest : skipBlank true cs with ⟨m, rest'⟩
      rw [hrest] at h
      cases h
      obtain ⟨_ | ⟨d, gap⟩, rfl, rfl, hgap⟩ := ih _ hrest
      · -- the second slash is skipped too
        obtain ⟨body, gap, heq, -⟩ | ⟨hend, -⟩ := hgap
        · exact absurd heq.symm (List.append_ne_nil_of_right_ne_nil _ (List.cons_ne_nil _ _))
        · rw [show cs = [] from List.isEmpty_iff.mp hend] at hhead
          cases hhead
      · cases hhead
        exact ⟨'/' :: '/' :: gap, rfl, rfl, IsTail.comment hgap⟩
    · cases h
      exact ⟨[], rfl, rfl, .nil⟩

/-! ### Words -/

/-- **A word of a token**: in front of a blank character, and at the end of a text, the word gives
this token. -/
def IsWord (word : List Char) (t : Token) : Prop :=
  ∀ rest : List Char, rest.head?.all isBlank = true → Scans word [t] rest

/-- A blank character continues no name. -/
theorem not_continuesName_of_isBlank (h : isBlank c = true) : continuesName c = false := by
  rw [continuesName, Text.not_isAlphanumeric_of_isBlank h, Bool.false_or, Bool.or_eq_false_iff,
    beq_eq_false_iff_ne, beq_eq_false_iff_ne]
  constructor <;>
  · rintro rfl
    cases h

/-- A blank character continues no number. -/
theorem not_inNumber_of_isBlank (h : isBlank c = true) : inNumber c = false := by
  have hdigit : c.isDigit = false := by
    have halphanum := Text.not_isAlphanum_of_isBlank h
    rw [Char.isAlphanum, Bool.or_eq_false_iff] at halphanum
    exact halphanum.2
  rw [inNumber, hdigit, Bool.false_or, beq_eq_false_iff_ne]
  rintro rfl
  cases h

/-- What ends a word because it is blank ends it because it does not continue it. -/
theorem head_all_not {p : Char → Bool} (hp : ∀ c, isBlank c = true → p c = false)
    (h : rest.head?.all isBlank = true) : rest.head?.all (!p ·) = true := by
  cases rest with
  | nil => rfl
  | cons d ds => 
    have hd := hp d h
    simp [hd]

/-- **An automaton that closes has not seen what follows.** It takes the same word in front of
anything else, wherever the word stands. -/
theorem Literal.closes_of_run {quote backslash : Nat} {state : State} {value : List Char}
    {v : String} (h : run quote state backslash offset value cs = .ok (v, after, rest)) :
    ∃ word, cs = word ++ rest ∧ after = offset + size word ∧
      ∀ quote' backslash' offset' rest',
        run quote' state backslash' offset' value (word ++ rest')
          = .ok (v, offset' + size word, rest') := by
  induction cs generalizing state backslash offset value with
  | nil => cases h
  | cons c cs ih =>
    -- the automaton closes at this character, or goes on with the induction hypothesis
    obtain ⟨_, _, hcons, ⟨hstep, hr⟩ | ⟨state', v', backslash', hstep, hrun⟩⟩ := step_of_run h
    · cases hcons
      cases hr
      refine ⟨[c], rfl, rfl, fun quote' backslash' offset' rest' => ?_⟩
      rw [List.singleton_append, run]
      simp only [hstep]
      rfl
    · cases hcons
      obtain ⟨word, rfl, rfl, hword⟩ := ih hrun
      refine ⟨c :: word, rfl, Nat.add_assoc _ _ _, fun quote' b offset' rest' => ?_⟩
      obtain ⟨b', hnext⟩ : ∃ b', run quote' state b offset' value (c :: (word ++ rest'))
          = run quote' state' b' (offset' + c.utf8Size) (v'.toList ++ value) (word ++ rest') :=
        exists_run_next hstep
      rw [List.cons_append, hnext, hword, Text.size_cons, Nat.add_assoc]

/-- A mark is the beginning of the text. -/
theorem Mark.spelling_of_scan? {m : Mark} (h : Mark.scan? cs = some (m, rest)) :
    cs = m.spelling.toList ++ rest := by
  unfold Mark.scan? at h
  split at h
  -- the marks, and no mark
  iterate 23
    · cases h
      rfl
  cases h

/-- A blank character makes no mark longer. -/
theorem Mark.scan?_spelling (m : Mark) (hrest : rest.head?.all isBlank = true) :
    Mark.scan? (m.spelling.toList ++ rest) = some (m, rest) := by
  cases rest with
  | nil => cases m <;> rfl
  | cons d ds =>
    have hd : d ≠ '+' ∧ d ≠ '=' := by
      constructor <;>
      · rintro rfl
        cases hrest
    cases m <;> first | rfl | simp [Mark.spelling, Mark.scan?, hd]

/-- A slash with a blank character behind it begins no comment. -/
theorem isWord_slash : IsWord ['/'] (.mark .slash) := by
  intro rest hrest
  have hskip : skipBlank false ('/' :: rest) = (0, '/' :: rest) := by
    rw [skipBlank, if_neg Bool.false_ne_true, if_neg (by decide), if_neg]
    rintro ⟨-, hhead⟩
    rw [hhead] at hrest
    cases hrest
  exact scans_token_of_skipBlank hskip fun offset => rfl

theorem isWord_mark (m : Mark) : IsWord m.spelling.toList (.mark m) := by
  by_cases hslash : m = .slash
  · subst hslash
    exact isWord_slash
  intro rest hrest
  have hscan := m.scan?_spelling hrest
  have hsize := Text.size_toList m.spelling
  rcases hm : m.spelling.toList with _ | ⟨c, cs⟩
  · cases m <;> cases hm
  · have hbegins : c ≠ '"' ∧ c.isDigit = false ∧ startsName c = false ∧ isBlank c = false ∧
        c ≠ '/' := by
      cases m <;> cases hm <;> first | decide | exact absurd rfl hslash
    rw [hm] at hscan hsize
    exact scans_mark m hbegins hscan hsize.symm

/-- A span that begins with one of its characters takes a word of them. -/
theorem exists_of_span {p : Char → Bool} (hc : p c = true) {word : List Char}
    (h : (c :: cs).span p = (word, rest)) :
    ∃ ds, word = c :: ds ∧ cs = ds ++ rest ∧ ∀ d ∈ ds, p d = true := by
  rw [List.span_eq_takeWhile_dropWhile, List.takeWhile_cons, List.dropWhile_cons, hc] at h
  cases h
  exact ⟨_, rfl, List.takeWhile_append_dropWhile.symm, fun d hd => List.mem_takeWhile_imp hd⟩

/-- **A token is the beginning of the text, and a word of its own.** -/
theorem isWord_of_scanToken (h : scanToken offset c cs = .ok (t, after, rest)) :
    ∃ word, c :: cs = word ++ rest ∧ after = offset + size word ∧ IsWord word t := by
  unfold scanToken at h
  split at h
  · next hquote =>
    subst hquote
    obtain ⟨⟨v, after', rest'⟩, hrun, hr⟩ := except_map_eq_ok h
    cases hr
    -- the closing quote ends the literal, whatever follows
    obtain ⟨word, rfl, rfl, hword⟩ := Literal.closes_of_run hrun
    refine ⟨'"' :: word, rfl, Nat.add_assoc _ _ _, fun rest' _ => ?_⟩
    refine scans_token ⟨by decide, by decide⟩ fun offset' => ?_
    unfold scanToken
    rw [if_pos rfl, hword, Nat.add_assoc]
    rfl
  split at h
  · next hdigit =>
    rcases hspan : (c :: cs).span inNumber with ⟨word, rest'⟩
    rw [hspan] at h
    cases h
    have hc : inNumber c = true := by rw [inNumber, hdigit, Bool.true_or]
    obtain ⟨ds, rfl, rfl, hds⟩ := exists_of_span hc hspan
    refine ⟨c :: ds, rfl, rfl, fun rest' hrest' => ?_⟩
    exact scans_numeral hdigit hds (head_all_not (fun _ hd => not_inNumber_of_isBlank hd) hrest')
  split at h
  · next hname =>
    rcases hspan : (c :: cs).span continuesName with ⟨word, rest'⟩
    rw [hspan] at h
    cases h
    obtain ⟨ds, rfl, rfl, hds⟩ := exists_of_span (continuesName_of_startsName hname) hspan
    refine ⟨c :: ds, rfl, rfl, fun rest' hrest' => ?_⟩
    exact scans_word hname hds (head_all_not (fun _ hd => not_continuesName_of_isBlank hd) hrest')
  · split at h
    · next m rest' hmark =>
      cases h
      refine ⟨m.spelling.toList, Mark.spelling_of_scan? hmark, ?_, isWord_mark m⟩
      rw [Text.size_toList]
    · cases h

theorem IsWord.ne_nil {word : List Char} (h : IsWord word t) : word ≠ [] :=
  List.ne_nil_of_length_pos (h [] rfl).length_le

end Script

end Blockwork
