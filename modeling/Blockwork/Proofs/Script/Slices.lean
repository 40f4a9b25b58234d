import Mathlib
import Blockwork.Proofs.Script.Cutting

/-!
# The text of a lexeme

The places of the lexemes of a text are all that matters of it. The part of the text in such a place
gives the token of the lexeme when it is scanned alone. What lies between the places is blank, and
other blank text can stand there.

## Main result

* `parts_of_scan`: the places of lexemes part their text into gaps and words.
-/

namespace Blockwork

/-- The characters of a text take the bytes that the library counts. -/
theorem Text.size_eq_utf8Len (cs : List Char) : size cs = String.utf8Len cs := by
  rw [← String.utf8ByteSize_ofList, ← size_toList, String.toList_ofList]

namespace Script

open Text (size isBlank IsBoundary)

/-- The part of the text at a place. -/
def Span.slice (text : String) (span : Span) : String :=
  String.Pos.Raw.extract text ⟨span.start⟩ ⟨span.stop⟩

/-- What stands before the first lexeme, between two of them and behind the last one is a gap. -/
def GapsFrom (text : String) : (low : Nat) → List Lexeme → Prop
  | low, [] => IsGap true (Span.slice text ⟨low, text.utf8ByteSize⟩).toList
  | low, l :: ls =>
    IsGap false (Span.slice text ⟨low, l.span.start⟩).toList ∧ GapsFrom text l.span.stop ls

/-- Blank characters, at least one. -/
structure IsSpace (s : String) : Prop where
  ne_empty : s ≠ ""
  blank : ∀ c ∈ s.toList, isBlank c = true

/-- The words of the lexemes in the text, with these texts between them. -/
def respaced (text : String) (ls : List Lexeme) (spaces : List String) : String :=
  String.join (List.zipWith (· ++ ·) (ls.map (·.span.slice text)) (spaces ++ [""]))

/-- **The lexemes part the text.** -/
structure Parts (text : String) (ls : List Lexeme) : Prop where
  ordered : Ordered 0 ls text.utf8ByteSize
  boundaries : ∀ l ∈ ls, IsBoundary text l.span.start ∧ IsBoundary text l.span.stop
  gaps : GapsFrom text 0 ls
  alone : ∀ l ∈ ls, (scan (l.span.slice text)).map (·.map Lexeme.token) = .ok [l.token]
  joined : ∀ spaces, spaces.length = ls.length - 1 → (∀ s ∈ spaces, IsSpace s) →
    (scan (respaced text ls spaces)).map (·.map Lexeme.token) = .ok (ls.map Lexeme.token)

variable {text : String} {ls : List Lexeme}

/-! ### What stands in the places -/

theorem Span.slice_append {before word rest : List Char}
    (h : text.toList = before ++ (word ++ rest)) :
    (Span.slice text ⟨size before, size before + size word⟩).toList = word := by
  have htext : text = String.ofList (before ++ word ++ rest) := by
    rw [List.append_assoc, ← h, String.ofList_toList]
  rw [slice, htext, Text.size_eq_utf8Len, Text.size_eq_utf8Len,
    String.extract_of_valid before word rest, String.toList_ofList]

/-- The gaps and the words of a cut are the parts of the text in these places. -/
theorem Cut.slices {offset : Nat} {cs before : List Char} (h : Cut offset cs ls)
    (htext : text.toList = before ++ cs) (hbefore : size before = offset) :
    GapsFrom text offset ls ∧ ∀ l ∈ ls, IsWord (l.span.slice text).toList l.token := by
  induction h generalizing before with
  | @nil offset gap hgap =>
    subst hbefore
    refine ⟨?_, List.forall_mem_nil _⟩
    have hend : text.utf8ByteSize = size before + size gap := by
      rw [← Text.size_toList, htext, Text.size_append]
    rw [← List.append_nil gap] at htext
    rw [GapsFrom, hend, Span.slice_append htext]
    exact hgap
  | @cons offset gap word rest t ls hgap hword _ ih =>
    subst hbefore
    have hbehind : text.toList = (before ++ gap) ++ (word ++ rest) := by
      rw [htext, List.append_assoc]
    have hrest : text.toList = (before ++ gap ++ word) ++ rest := by
      rw [hbehind, List.append_assoc (before ++ gap)]
    have hslice := Span.slice_append hbehind
    rw [Text.size_append] at hslice
    obtain ⟨hgaps, hwords⟩ := ih hrest (by rw [Text.size_append, Text.size_append])
    refine ⟨⟨?_, hgaps⟩, List.forall_mem_cons.mpr ⟨?_, hwords⟩⟩
    · rw [Span.slice_append htext]
      exact hgap
    · rw [hslice]
      exact hword

/-! ### Scanning the words again -/

/-- A text whose scan gives tokens, as an equation. -/
theorem tokens_of_scans {s : String} {ts : List Token} (h : Scans s.toList ts []) :
    (scan s).map (·.map Lexeme.token) = .ok ts := by
  obtain ⟨ls, hscan, htokens, -⟩ := h.scan
  rw [hscan, ← htokens]
  rfl

/-- **Words with blank characters between them** give their tokens. -/
theorem scans_respaced {spaces : List String}
    (hwords : ∀ l ∈ ls, IsWord (l.span.slice text).toList l.token)
    (hlength : spaces.length = ls.length - 1) (hspaces : ∀ s ∈ spaces, IsSpace s) :
    Scans (respaced text ls spaces).toList (ls.map Lexeme.token) [] := by
  induction ls generalizing spaces with
  | nil => exact scans_nil []
  | cons l ls ih =>
    obtain ⟨hword, hwords⟩ := List.forall_mem_cons.mp hwords
    cases spaces with
    | nil =>
      obtain rfl := List.length_eq_zero_iff.mp hlength.symm
      have hlast : (respaced text [l] []).toList = (l.span.slice text).toList := by
        simp [respaced]
      rw [hlast]
      exact hword [] rfl
    | cons s spaces =>
      obtain ⟨hspace, hspaces⟩ := List.forall_mem_cons.mp hspaces
      have hothers := ih hwords (Nat.eq_sub_of_add_eq hlength) hspaces
      have hfirst : (respaced text (l :: ls) (s :: spaces)).toList
          = (l.span.slice text).toList ++ (s.toList ++ (respaced text ls spaces).toList) := by
        simp [respaced]
      -- the first word ends at a blank character
      have hends : (s.toList ++ (respaced text ls spaces).toList ++ []).head?.all isBlank
          = true := by
        rcases hs : s.toList with _ | ⟨c, cs⟩
        · exact absurd (String.toList_eq_nil_iff.mp hs) hspace.ne_empty
        · exact hspace.blank c (hs ▸ List.mem_cons_self)
      rw [hfirst]
      exact (hword _ hends).append ((scans_blank hspace.blank _).append hothers)

/-- **Tokens part the source.** The lexemes lie in order, from character to character. Before them,
between them and behind them stand only blank characters and comments. The part of the text in the
place of a lexeme gives its token when it is scanned alone, and these parts give all tokens again
when they are joined with any blank characters between them. -/
theorem parts_of_scan (h : scan text = .ok ls) : Parts text ls := by
  have hcut := cut_of_scan h
  have hordered := hcut.ordered
  rw [Nat.zero_add, Text.size_toList] at hordered
  obtain ⟨hgaps, hwords⟩ := hcut.slices (List.nil_append _).symm Text.size_nil
  exact {
    ordered := hordered
    boundaries := hcut.boundaries (List.nil_append _).symm Text.size_nil
    gaps := hgaps
    alone := fun l hl => tokens_of_scans (hwords l hl [] rfl)
    joined := fun _ hlength hspaces => tokens_of_scans (scans_respaced hwords hlength hspaces) }

/-- A comment, a division, a name with letters beyond ASCII and a literal with an escape. -/
theorem parts_of_scan_division : ∃ ls, scan "a /b2é // c\n+= \"\\n\"" = .ok ls ∧
    ls.length = 5 ∧ Parts "a /b2é // c\n+= \"\\n\"" ls := by
  have hread : (scan "a /b2é // c\n+= \"\\n\"").toOption.any (fun ls =>
      decide (ls.length = 5)) = true := by
    decide +kernel
  obtain ⟨ls, hscan, hlength⟩ := exists_of_any hread
  exact ⟨ls, hscan, of_decide_eq_true hlength, parts_of_scan hscan⟩

end Script

end Blockwork
