import Mathlib
import Blockwork.Case.Header
import Blockwork.Proofs.Toml.Returns

/-!
# Test cases line by line

A test case is cut by looking for marks in its characters. As a sequence of lines it is a line of
three hyphens, the lines of the header, another line of three hyphens, and the body (`Layout`). If
no line of the header begins like these two, cutting gives the lines of the header and the body
again, whether lines end with a line feed or with a carriage return in front of it, and whatever the
body is (`Layout.split_of_writes`).

One layout is not read back, which is the one with no line in the header. The second line of hyphens
is looked for behind the end of a line, and the end of the first one is gone by then. Such a text is
no test case at all (`Layout.exists_ofText_error`), although a header with nothing in it expects
nothing.

## Main results

* `Layout.ofText_of_writes`: the expectations and the body of a test case.
* `Layout.ofText_without_lines`: a test case whose header has no lines.
-/

namespace Blockwork.Case

open Toml (Returned)

/-! ### Layouts -/

/-- How the lines of a header end. -/
inductive LineEnd where
  | lf
  | crlf

/-- What stands before the line feed. -/
def LineEnd.front : LineEnd → List Char
  | lf => []
  | crlf => ['\r']

def LineEnd.chars (e : LineEnd) : List Char :=
  e.front ++ ['\n']

/-- A test case by its lines. -/
structure Layout where
  /-- How many byte order marks there are. -/
  marks : Nat
  lineEnd : LineEnd
  /-- The lines of the header. -/
  lines : List (List Char)
  body : List Char

namespace Layout

/-- The lines of the header, and no end of a line behind the last one. -/
def header (l : Layout) : List Char :=
  l.lineEnd.chars.intercalate l.lines

/-- What stands before the closing line. -/
def opening (l : Layout) : List Char :=
  List.replicate l.marks '\ufeff' ++ (delimiter ++ l.lineEnd.chars) ++
    l.lines.flatMap (· ++ l.lineEnd.chars)

/-- **A text that is laid out so.** The closing line may be the end of the text. -/
inductive Writes (l : Layout) : List Char → Prop
  | whole : Writes l (l.opening ++ (delimiter ++ l.lineEnd.chars ++ l.body))
  | closed : l.body = [] → Writes l (l.opening ++ delimiter)

/-- The lines of the header are lines, and none of them begins like the line that closes it. -/
def Proper (l : Layout) : Prop :=
  ∀ line ∈ l.lines, '\n' ∉ line ∧ ¬ delimiter <+: line

end Layout

/-! ### Cutting -/

theorem dropStart?_append (start rest : List Char) :
    Text.dropStart? start (start ++ rest) = some rest := by
  simp [Text.dropStart?]

/-- Nothing is cut inside a line. -/
theorem cutAtDelimiter?_append {line : List Char} (h : '\n' ∉ line) (rest : List Char) :
    cutAtDelimiter? (line ++ rest)
      = (cutAtDelimiter? rest).map fun (header, behind) => (line ++ header, behind) := by
  induction line with
  | nil => exact Option.map_id'.symm
  | cons c line ih =>
    obtain ⟨hc, hline⟩ := not_or.mp (List.mem_cons.not.mp h)
    rw [List.cons_append, cutAtDelimiter?, if_neg (Ne.symm hc), ih hline, Option.map_map]
    rfl

/-- Nor is it behind the end of a line, unless the next one begins with the delimiter. -/
theorem cutAtDelimiter?_lineFeed {rest : List Char} (h : ¬ delimiter <+: rest) :
    cutAtDelimiter? ('\n' :: rest)
      = (cutAtDelimiter? rest).map fun (header, behind) => ('\n' :: header, behind) := by
  rw [cutAtDelimiter?, if_pos rfl, Text.dropStart?, if_neg (by simpa using h)]

theorem not_prefix_append {line : List Char} (h : ¬ delimiter <+: line) (rest : List Char) :
    ¬ delimiter <+: line ++ '\n' :: rest := by
  intro hprefix
  have hline : line ++ ['\n'] <+: line ++ '\n' :: rest := ⟨rest, by simp⟩
  have hlf : ∀ cs : List Char, line ++ ['\n'] <+: cs → '\n' ∈ cs := fun cs hcs =>
    hcs.subset (List.mem_append_right line (List.mem_singleton_self _))
  rcases List.prefix_or_prefix_of_prefix hprefix hline with hshort | hlong
  · rcases List.prefix_concat_iff.mp hshort with heq | hline
    · exact absurd (hlf delimiter (heq ▸ List.prefix_rfl)) (by decide)
    · exact h hline
  · exact absurd (hlf delimiter hlong) (by decide)

/-- **Lines are cut off before the first that begins with the delimiter.** -/
theorem cutAtDelimiter?_lines {lines : List (List Char)} (hne : lines ≠ [])
    (h : ∀ line ∈ lines, '\n' ∉ line ∧ ¬ delimiter <+: line) (rest : List Char) :
    cutAtDelimiter? (['\n'].intercalate lines ++ '\n' :: (delimiter ++ rest))
      = some (['\n'].intercalate lines, rest) := by
  induction lines with
  | nil => exact absurd rfl hne
  | cons line lines ih =>
    obtain ⟨hline, hlines⟩ := List.forall_mem_cons.mp h
    cases lines with
    | nil =>
      rw [List.intercalate_singleton, cutAtDelimiter?_append hline.1, cutAtDelimiter?, if_pos rfl,
        dropStart?_append]
      simp
    | cons next lines =>
      -- the text is not cut at this line feed, since the next line does not begin with the delimiter
      have hnext : ¬ delimiter <+:
          ['\n'].intercalate (next :: lines) ++ '\n' :: (delimiter ++ rest) := by
        have := (List.forall_mem_cons.mp hlines).1.2
        cases lines with
        | nil =>
          rw [List.intercalate_singleton]
          exact not_prefix_append this _
        | cons third lines =>
          rw [List.intercalate_cons_cons, List.append_assoc, List.append_assoc]
          exact not_prefix_append this _
      rw [List.intercalate_cons_cons, List.append_assoc, List.append_assoc,
        cutAtDelimiter?_append hline.1, List.singleton_append, cutAtDelimiter?_lineFeed hnext,
        ih (List.cons_ne_nil _ _) hlines]
      simp

theorem prefix_of_cutAtDelimiter? {cs header behind : List Char}
    (h : cutAtDelimiter? cs = some (header, behind)) : header <+: cs := by
  have hcons {c : Char} {cs : List Char} {found : Option (List Char × List Char)}
      (ih : ∀ {header}, found = some (header, behind) → header <+: cs) {header : List Char}
      (h : (found.map fun (header, behind) => (c :: header, behind)) = some (header, behind)) :
      header <+: c :: cs := by
    obtain ⟨⟨inner, _⟩, hfound, heq⟩ := Option.map_eq_some_iff.mp h
    cases heq
    exact (List.prefix_cons_inj c).mpr (ih hfound)
  fun_induction cutAtDelimiter? cs generalizing header with
  | case1 => cases h
  | case2 =>
    cases h
    exact List.nil_prefix
  | case3 cs _ ih => exact hcons ih h
  | case4 c cs _ ih => exact hcons ih h

/-! ### Carriage returns -/

theorem prefix_of_dropReturns (cs : List Char) : dropReturns cs <+: cs := by
  unfold dropReturns
  have hsuffix := (List.dropWhile_suffix (l := cs.reverse) (· == '\r')).reverse
  rwa [List.reverse_reverse] at hsuffix

theorem dropReturns_of_not_returned {cs : List Char} (h : ¬ Returned cs) : dropReturns cs = cs := by
  rcases List.eq_nil_or_concat cs with rfl | ⟨init, c, rfl⟩
  · rfl
  rw [List.concat_eq_append] at h ⊢
  have hc : c ≠ '\r' := by
    rintro rfl
    exact h List.getLast?_concat
  simp [dropReturns, hc]

theorem dropReturns_front (cs : List Char) (e : LineEnd) :
    dropReturns (cs ++ e.front) = dropReturns cs := by
  cases e with
  | lf => rw [LineEnd.front, List.append_nil]
  | crlf => simp [dropReturns, LineEnd.front]

/-! ### Layouts -/

namespace Layout

variable {l : Layout} {text : List Char}

theorem dropLineStart_lineEnd (e : LineEnd) (rest : List Char) :
    Text.dropLineStart (e.chars ++ rest) = rest := by
  cases e <;> rfl

/-- What is behind the opening line. -/
theorem Writes.exists_closing (h : l.Writes text) : ∃ closing,
    Text.dropStart? delimiter (text.dropWhile (· == '\ufeff')) = some (l.lineEnd.chars ++
      (l.lines.flatMap (· ++ l.lineEnd.chars) ++ (delimiter ++ closing))) ∧
    Text.dropLineStart closing = l.body ∧
    (closing = [] ∨ closing = l.lineEnd.chars ++ l.body) := by
  -- byte order marks in front of the opening are skipped, and the hyphens stop that
  have hmarks (rest : List Char) :
      (List.replicate l.marks '\ufeff' ++ (delimiter ++ rest)).dropWhile (· == '\ufeff')
        = delimiter ++ rest := by
    rw [List.dropWhile_append_of_pos (by simp)]
    rfl
  cases h with
  | whole =>
    refine ⟨l.lineEnd.chars ++ l.body, ?_, dropLineStart_lineEnd _ _, .inr rfl⟩
    simp only [opening, List.append_assoc]
    rw [hmarks, dropStart?_append]
  | closed hbody =>
    refine ⟨[], ?_, hbody.symm, .inl rfl⟩
    simp only [opening, List.append_assoc, List.append_nil]
    rw [hmarks, dropStart?_append]

/-- The lines with their ends are cut apart at the line feeds. -/
theorem flatMap_lines {lines : List (List Char)} (hne : lines ≠ []) (e : LineEnd)
    (rest : List Char) :
    lines.flatMap (· ++ e.chars) ++ rest
      = ['\n'].intercalate (lines.map (· ++ e.front)) ++ '\n' :: rest := by
  induction lines with
  | nil => exact absurd rfl hne
  | cons line lines ih =>
    cases lines with
    | nil => simp [LineEnd.chars]
    | cons next lines =>
      rw [List.flatMap_cons, List.append_assoc, ih (List.cons_ne_nil _ _), List.map_cons,
        List.map_cons, List.map_cons, List.intercalate_cons_cons]
      simp [LineEnd.chars]

theorem header_append_front (hne : l.lines ≠ []) :
    l.header ++ l.lineEnd.front = ['\n'].intercalate (l.lines.map (· ++ l.lineEnd.front)) := by
  unfold header
  generalize l.lines = lines at hne
  induction lines with
  | nil => exact absurd rfl hne
  | cons line lines ih =>
    cases lines with
    | nil => simp
    | cons next lines =>
      rw [List.intercalate_cons_cons, List.map_cons, List.map_cons, List.intercalate_cons_cons,
        List.append_assoc, ih (List.cons_ne_nil _ _), List.map_cons]
      simp [LineEnd.chars]

/-- The front of an end of line makes no delimiter. -/
theorem not_prefix_append_front {line : List Char} (h : ¬ delimiter <+: line) (e : LineEnd) :
    ¬ delimiter <+: line ++ e.front := by
  cases e with
  | lf => rwa [LineEnd.front, List.append_nil]
  | crlf =>
    intro hprefix
    rcases List.prefix_concat_iff.mp hprefix with heq | hline
    · have hmem : '\r' ∈ delimiter := heq ▸ List.mem_append_right _ (List.mem_singleton_self _)
      exact absurd hmem (by decide)
    · exact h hline

/-- **A test case is cut into the lines of its header and its body**, if there are any lines. -/
theorem split_of_writes (hl : l.Proper) (hne : l.lines ≠ []) (h : l.Writes text) :
    split text = .ok (dropReturns l.header, l.body) := by
  obtain ⟨closing, hopening, hbody, -⟩ := h.exists_closing
  have hpieces : ∀ piece ∈ l.lines.map (· ++ l.lineEnd.front),
      '\n' ∉ piece ∧ ¬ delimiter <+: piece := by
    intro piece hpiece
    obtain ⟨line, hline, rfl⟩ := List.mem_map.mp hpiece
    obtain ⟨hlf, hprefix⟩ := hl line hline
    refine ⟨?_, not_prefix_append_front hprefix _⟩
    rw [List.mem_append, not_or]
    exact ⟨hlf, by cases l.lineEnd <;> decide⟩
  have hcut : cutAtDelimiter? (l.lines.flatMap (· ++ l.lineEnd.chars) ++ (delimiter ++ closing))
      = some (l.header ++ l.lineEnd.front, closing) := by
    rw [flatMap_lines hne, cutAtDelimiter?_lines (by simpa using hne) hpieces,
      header_append_front hne]
  unfold split
  rw [hopening]
  dsimp only
  -- the end of the opening line is cut off, and then the search begins
  rw [dropLineStart_lineEnd, hcut]
  dsimp only
  rw [dropReturns_front, hbody]
  rfl

/-! ### Headers without lines -/

/-- Three hyphens that end a line are no TOML. -/
theorem exists_read_error {rest : List Char} (h : ∀ c ∈ rest.head?, c = '\n' ∨ c = '\r') :
    ∃ fault, Toml.read (String.ofList (delimiter ++ rest)) = .error fault := by
  refine ⟨.malformed, ?_⟩
  unfold Toml.read
  rw [String.toList_ofList]
  cases rest with
  | nil => rfl
  | cons c rest =>
    rcases h c rfl with rfl | rfl
    · rfl
    · rfl

theorem dropReturns_delimiter (rest : List Char) :
    dropReturns (delimiter ++ rest) = delimiter ++ dropReturns rest := by
  unfold dropReturns
  rw [List.reverse_append, List.dropWhile_append]
  split
  · next hempty =>
    rw [List.isEmpty_iff.mp hempty]
    rfl
  · rw [List.reverse_append, List.reverse_reverse]

/-- **A header without lines is not read back**: the text has no closing line, or what is taken for
its header begins with the closing line. -/
theorem exists_ofText_error (hempty : l.lines = []) {text : String} (h : l.Writes text.toList) :
    ∃ fault, ofText text = .error fault := by
  obtain ⟨closing, hopening, -, hclosing⟩ := h.exists_closing
  have hlf : '\n' ∉ delimiter := by decide
  unfold ofText split
  rw [hopening, hempty, List.flatMap_nil, List.nil_append]
  dsimp only
  -- the closing line is all in front of the next line feed, so the search goes past it
  rw [dropLineStart_lineEnd, cutAtDelimiter?_append hlf]
  rcases hcut : cutAtDelimiter? closing with _ | ⟨inner, behind⟩
  · exact ⟨_, rfl⟩
  have hhead : ∀ c ∈ (dropReturns inner).head?, c = '\n' ∨ c = '\r' := by
    intro c hc
    obtain ⟨tail, htail⟩ := (prefix_of_dropReturns inner).trans (prefix_of_cutAtDelimiter? hcut)
    have hfirst : closing.head? = some c := by
      rw [← htail, List.head?_append, Option.mem_def.mp hc]
      rfl
    rcases hclosing with rfl | rfl
    · cases hfirst
    · cases hend : l.lineEnd <;> rw [hend] at hfirst <;> cases hfirst
      · exact .inl rfl
      · exact .inr rfl
  obtain ⟨cause, hcause⟩ := exists_read_error hhead
  have hread : Expectations.read (String.ofList (dropReturns (delimiter ++ inner)))
      = .error cause := by
    rw [dropReturns_delimiter, Expectations.read, hcause]
    rfl
  refine ⟨.unreadable cause, ?_⟩
  change (Except.mapError _ (Expectations.read _) >>= _) = _
  rw [hread]
  rfl

/-! ### Test cases -/

/-- A test case whose header has lines is read as its header is, without the carriage returns at the
end. -/
theorem ofText_eq_of_writes (hl : l.Proper) (hne : l.lines ≠ []) {text : String}
    (h : l.Writes text.toList) :
    ofText text =
      ((Expectations.read (String.ofList (dropReturns l.header))).mapError .unreadable).map
        (·, String.ofList l.body) := by
  unfold ofText
  rw [split_of_writes hl hne h]
  change (Except.mapError _ _ >>= _) = _
  cases Expectations.read (String.ofList (dropReturns l.header)) <;> rfl

/-- **Test cases are read line by line.** Let the text of a test case be a line of three hyphens
behind any number of byte order marks, the lines of the header, none of which begins with three
hyphens, another line of three hyphens, and any body. The lines of the header end with line feeds,
or all with a carriage return in front.

If the header has lines, the text is read as the header is read without the carriage returns at its
end, and the body is this body. So a header that is TOML gives its expectations, as no TOML ends in
a carriage return, and the text is refused only for what is wrong with the header. If the header has
no lines, the text is always refused. -/
theorem ofText_of_writes (hl : l.Proper) {text : String} (h : l.Writes text.toList) :
    (l.lines ≠ [] →
      ofText text =
        ((Expectations.read (String.ofList (dropReturns l.header))).mapError .unreadable).map
          (·, String.ofList l.body) ∧
      (∀ e, Expectations.read (String.ofList l.header) = .ok e →
        ofText text = .ok (e, String.ofList l.body)) ∧
      (∀ fault, ofText text = .error fault → (∃ cause, fault = .unreadable cause) ∧
        ∃ cause, Expectations.read (String.ofList l.header) = .error cause)) ∧
    (l.lines = [] → ∃ fault, ofText text = .error fault) := by
  refine ⟨fun hne => ?_, fun hempty => exists_ofText_error hempty h⟩
  have hsplit := ofText_eq_of_writes hl hne h
  have hread : ∀ e, Expectations.read (String.ofList l.header) = .ok e →
      ofText text = .ok (e, String.ofList l.body) := by
    intro e he
    -- no TOML ends in a carriage return, so none has been dropped from a header that is read
    have hreturned : ¬ Returned l.header := by
      intro hreturned
      obtain ⟨cause, hcause⟩ : ∃ cause, Toml.read (String.ofList l.header) = .error cause :=
        Toml.exists_read_error (by rwa [String.toList_ofList])
      rw [Expectations.read, hcause] at he
      cases he
    rw [hsplit, dropReturns_of_not_returned hreturned, he]
    rfl
  refine ⟨hsplit, hread, fun fault hfault => ⟨?_, ?_⟩⟩
  · rw [hsplit] at hfault
    cases hheader : Expectations.read (String.ofList (dropReturns l.header)) with
    | error cause =>
      rw [hheader] at hfault
      cases hfault
      exact ⟨cause, rfl⟩
    | ok e =>
      rw [hheader] at hfault
      cases hfault
  · cases hheader : Expectations.read (String.ofList l.header) with
    | error cause => exact ⟨cause, rfl⟩
    | ok e => exact nomatch hfault.symm.trans (hread e hheader)

/-- A header of two lines, both with a carriage return, and a body that looks like another one. -/
theorem ofText_of_writes_returns :
    ofText "\uFEFF---\r\nseed = 7\r\n\r\n---\r\n---\n\x7b\x7d"
      = .ok ({ Expectations.none with seed := some 7 }, "---\n\x7b\x7d") := by
  have hwrites : Writes ⟨1, .crlf, ["seed = 7".toList, []], "---\n\x7b\x7d".toList⟩
      "\uFEFF---\r\nseed = 7\r\n\r\n---\r\n---\n\x7b\x7d".toList := .whole
  refine ((ofText_of_writes ?_ hwrites).1 (List.cons_ne_nil _ _)).2.1 _ ?_
  · unfold Proper
    decide
  · decide +kernel

/-- **A header with nothing in it expects nothing, but it is not found.** -/
theorem ofText_without_lines :
    Writes ⟨0, .lf, [], "\x7b\x7d".toList⟩ "---\n---\n\x7b\x7d".toList ∧
      Expectations.read (String.ofList (header ⟨0, .lf, [], "\x7b\x7d".toList⟩)) = .ok .none ∧
      ofText "---\n---\n\x7b\x7d" = .error .noClosing := by
  refine ⟨.whole, ?_, ?_⟩
  · decide +kernel
  · decide +kernel

end Layout

end Blockwork.Case
