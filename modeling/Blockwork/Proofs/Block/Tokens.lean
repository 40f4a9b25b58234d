import Mathlib
import Blockwork.Proofs.Block.Writing

/-!
# The tokens of a program

Scanning a program gives the tokens of its code (`scan_program`): every line is scanned on its own,
because no token goes over the end of a line, and the blank characters that move a line in give no
token. The texts of the slots come back as they were, whatever characters they have, and each count
as the float of its magnitude.
-/

namespace Blockwork

open Script Text
open Fragment (indentation guardLines guardVariable guardLimit loopVariable)

variable {ι ν : Type}

/-! ### What is written -/

/-- The tokens of a call with a text. -/
def callTokens (function argument : String) : List Token :=
  [.name function, .mark .openParen, .text argument, .mark .closeParen, .mark .semicolon]

/-- The tokens of a count. -/
def countTokens : Int → List Token
  | .ofNat n => [.number (Float.ofNat n)]
  | .negSucc n => [.mark .minus, .number (Float.ofNat (n + 1))]

/-- The tokens at the head of a loop. -/
def Header.tokens (depth : Nat) : Header → List Token
  | .count n =>
    .keyword .for :: .mark .openParen ::
      .keyword .let :: .name (loopVariable depth) :: .mark .assign :: .number (Float.ofNat 0) ::
      .mark .semicolon :: .name (loopVariable depth) :: .mark .less :: (countTokens n ++
        [.mark .semicolon, .name (loopVariable depth), .mark .plusPlus, .mark .closeParen,
          .mark .openBrace])
  | .endless =>
    [.keyword .while, .mark .openParen, .keyword .true, .mark .closeParen, .mark .openBrace]

/-- The warning of the guard. -/
def guardWarning (name : String) : String :=
  "Loop guard tripped in " ++ name

/-- The tokens of the guard. -/
def guardTokens (name : String) : List Token :=
  .name guardVariable :: .mark .plusPlus :: .mark .semicolon ::
    .keyword .if :: .mark .openParen :: .name guardVariable :: .mark .greater ::
      .number (Float.ofNat guardLimit) :: .mark .closeParen :: .mark .openBrace ::
    (callTokens "warn" (guardWarning name) ++
      [.keyword .break, .mark .semicolon, .mark .closeBrace])

/-- The tokens that declare the counter. -/
def preludeTokens : List Token :=
  [.keyword .let, .name guardVariable, .mark .assign, .number (Float.ofNat 0), .mark .semicolon]

namespace Code

mutual

/-- The tokens of code at a depth. -/
def tokens (depth : Nat) : Code ν → List Token
  | .call _ verb argument => callTokens verb.function argument
  | .loop _ header body =>
    header.tokens depth ++ (guardTokens header.name ++
      (tokensAll (depth + 1) body ++ [.mark .closeBrace]))

/-- The tokens of a list of code at a depth. -/
def tokensAll (depth : Nat) : List (Code ν) → List Token
  | [] => []
  | c :: cs => tokens depth c ++ tokensAll depth cs

end

end Code

/-! ### Pieces of a line -/

/-- What may follow a line. -/
def EndsLine (rest : List Char) : Prop :=
  rest = [] ∨ ∃ cs, rest = '\n' :: cs

/-- Scanning a line gives these tokens. -/
def ScansLine (l : String) (ts : List Token) : Prop :=
  ∀ rest, EndsLine rest → Scans l.toList ts rest

/-- Scanning these lines, each behind a line feed, gives these tokens. -/
def ScansLines (ls : List String) (ts : List Token) : Prop :=
  ∀ rest, EndsLine rest → Scans (broken ls) ts rest

variable {cs rest : List Char} {ts : List Token}

theorem toList_loopVariable (depth : Nat) :
    (loopVariable depth).toList = 'i' :: Nat.toDigits 10 depth := by
  change (toString "i" ++ Nat.repr depth).toList = _
  rw [String.toList_append, Nat.repr, String.toList_ofList]
  rfl

/-- The only keyword that begins like a loop variable goes on with a letter. -/
theorem ofSpelling?_loopVariable (depth : Nat) :
    Keyword.ofSpelling? (loopVariable depth) = none := by
  refine List.find?_eq_none.mpr fun k _ hk => ?_
  have hspelling : k.spelling.toList = 'i' :: Nat.toDigits 10 depth := by
    rw [beq_iff_eq.mp hk, toList_loopVariable]
  cases k with
  | «if» =>
    have hf : Nat.toDigits 10 depth = ['f'] := (List.cons.inj hspelling).2.symm
    have hdigit : ('f').isDigit = true :=
      Nat.isDigit_of_mem_toDigits (by decide : 0 < 10) (by decide) (by rw [hf]; simp)
    exact absurd hdigit (by decide)
  | _ => exact absurd (List.cons.inj hspelling).1 (by decide)

theorem scans_loopVariable (depth : Nat)
    (hnext : (cs ++ rest).head?.all (!continuesName ·) = true) (h : Scans cs ts rest) :
    Scans ((loopVariable depth).toList ++ cs) (.name (loopVariable depth) :: ts) rest := by
  refine scans_name ?_ ?_ (ofSpelling?_loopVariable depth) hnext h
  · rw [toList_loopVariable]
    rfl
  · rw [toList_loopVariable, List.all_eq_true]
    intro c hc
    rcases List.mem_cons.mp hc with rfl | hc
    · rfl
    · have hdigit := Nat.isDigit_of_mem_toDigits (by decide : 0 < 10) (by decide) hc
      simp [isPlain, Char.isAlphanum, hdigit]

theorem scans_number (n : Nat) (hnext : (cs ++ rest).head?.all (!inNumber ·) = true)
    (h : Scans cs ts rest) : Scans (n.repr.toList ++ cs) (.number (Float.ofNat n) :: ts) rest := by
  rw [Nat.repr, String.toList_ofList]
  exact (scans_digits n hnext).append h

theorem scans_text (s : String) (h : Scans cs ts rest) :
    Scans ((Json.quote s).toList ++ cs) (.text s :: ts) rest := by
  have hquoted := scans_quoted s.toList (cs ++ rest)
  rw [String.ofList_toList] at hquoted
  rw [Json.toList_quote]
  exact hquoted.append h

theorem scans_plusPlus (h : Scans cs ts rest) :
    Scans ('+' :: '+' :: cs) (.mark .plusPlus :: ts) rest := by
  have hmark : Scans ['+', '+'] [.mark .plusPlus] (cs ++ rest) :=
    scans_mark .plusPlus (by decide) rfl (by decide)
  exact hmark.append h

/-! ### Lines -/

theorem ScansLine.indent {l : String} (h : ScansLine l ts) : ScansLine (indentation ++ l) ts := by
  intro rest hrest
  rw [String.toList_append]
  exact scans_space (scans_space (h rest hrest))

theorem scansLines_nil : ScansLines [] [] :=
  fun rest _ => scans_nil rest

theorem ScansLine.cons {l : String} {ls : List String} {us : List Token} (h : ScansLine l ts)
    (hs : ScansLines ls us) : ScansLines (l :: ls) (ts ++ us) := by
  intro rest hrest
  have hnext : EndsLine (broken ls ++ rest) := by
    cases ls with
    | nil => exact hrest
    | cons m ms => exact Or.inr ⟨_, rfl⟩
  have hfeed : ∀ c ∈ ['\n'], isBlank c = true := by
    intro c hc
    obtain rfl := List.mem_singleton.mp hc
    rfl
  have hblank := scans_blank hfeed (l.toList ++ broken ls ++ rest)
  exact hblank.append ((h _ hnext).append (hs rest hrest))

theorem ScansLines.append {ls ms : List String} {us : List Token} (h : ScansLines ls ts)
    (hs : ScansLines ms us) : ScansLines (ls ++ ms) (ts ++ us) := by
  intro rest hrest
  have hnext : EndsLine (broken ms ++ rest) := by
    cases ms with
    | nil => exact hrest
    | cons m ms => exact Or.inr ⟨_, rfl⟩
  rw [broken_append]
  exact (h _ hnext).append (hs rest hrest)

/-- A call. -/
theorem scansLine_call {f : String} (hw : f.toList.head?.any startsName = true)
    (hchars : f.toList.all isPlain = true) (hkeyword : Keyword.ofSpelling? f = none)
    (argument : String) :
    ScansLine (f ++ "(" ++ Json.quote argument ++ ");") (callTokens f argument) := by
  intro rest hrest
  have htext : (f ++ "(" ++ Json.quote argument ++ ");").toList
      = f.toList ++ ('(' :: ((Json.quote argument).toList ++ [')', ';'])) := by
    simp
  rw [htext]
  exact scans_name hw hchars hkeyword rfl <| scans_openParen <| scans_text argument <|
    scans_closeParen <| scans_semicolon (scans_nil rest)

theorem scansLine_closeBrace : ScansLine "\x7d" [.mark .closeBrace] := by
  intro rest _
  have htext : "\x7d".toList = ['\x7d'] := by simp
  rw [htext]
  exact scans_closeBrace (scans_nil rest)

theorem scans_count (n : Int) (hnext : (cs ++ rest).head?.all (!inNumber ·) = true)
    (h : Scans cs ts rest) :
    Scans ((toString n).toList ++ cs) (countTokens n ++ ts) rest := by
  cases n with
  | ofNat m => exact scans_number m hnext h
  | negSucc m =>
    -- there are no negative literals: the sign is a token of its own
    have htext : (toString (Int.negSucc m)).toList = '-' :: (m + 1).repr.toList := by
      change ("-" ++ (m + 1).repr).toList = _
      simp
    rw [htext]
    exact scans_symbol .minus (by decide) (by decide) rfl (scans_number (m + 1) hnext h)

theorem scans_guardVariable (hnext : (cs ++ rest).head?.all (!continuesName ·) = true)
    (h : Scans cs ts rest) : Scans (guardVariable.toList ++ cs) (.name guardVariable :: ts) rest :=
  scans_name (by decide +kernel) (by decide +kernel) (by decide +kernel) hnext h

theorem repr_zero : Nat.repr 0 = "0" := by rfl

theorem repr_guardLimit : Nat.repr guardLimit = "5000" := by rfl

/-- The line that opens a loop. -/
theorem scansLine_opening (depth : Nat) (header : Header) :
    ScansLine s!"{header.opening depth} \x7b" (header.tokens depth) := by
  intro rest _
  have hbrace : Scans [' ', '\x7b'] [.mark .openBrace] rest :=
    scans_space <| scans_openBrace (scans_nil rest)
  cases header with
  | endless =>
    have htext : ("while (true)" ++ " \x7b").toList
        = "while".toList ++ (' ' :: '(' :: ("true".toList ++ (')' :: [' ', '\x7b']))) := by
      simp
    change Scans ("while (true)" ++ " \x7b").toList _ _
    rw [htext]
    exact scans_keyword .while rfl <| scans_space <| scans_openParen <|
      scans_keyword .true rfl <| scans_closeParen hbrace
  | count n =>
    have htext : ("for (let " ++ loopVariable depth ++ " = 0; " ++ loopVariable depth ++ " < " ++
        toString n ++ "; " ++ loopVariable depth ++ "++)" ++ " \x7b").toList
        = "for".toList ++ (' ' :: '(' :: ("let".toList ++ (' ' :: ((loopVariable depth).toList ++
          (' ' :: '=' :: ' ' :: ((Nat.repr 0).toList ++ (';' :: ' ' ::
          ((loopVariable depth).toList ++ (' ' :: '<' :: ' ' :: ((toString n).toList ++
          (';' :: ' ' :: ((loopVariable depth).toList ++ ('+' :: '+' :: ')' ::
          [' ', '\x7b']))))))))))))) := by
      simp [repr_zero]
    change Scans ("for (let " ++ loopVariable depth ++ " = 0; " ++ loopVariable depth ++ " < " ++
        toString n ++ "; " ++ loopVariable depth ++ "++)" ++ " \x7b").toList _ _
    rw [htext]
    refine scans_keyword .for rfl <| scans_space <| scans_openParen <|
      scans_keyword .let rfl <| scans_space <| scans_loopVariable depth rfl <| scans_space <|
      scans_symbol .assign (by decide) (by decide) rfl <| scans_space <|
      scans_number 0 rfl <| scans_semicolon <| scans_space <|
      scans_loopVariable depth rfl <| scans_space <|
      scans_symbol .less (by decide) (by decide) rfl <| scans_space <| scans_count n rfl ?_
    exact scans_semicolon <| scans_space <| scans_loopVariable depth rfl <| scans_plusPlus <|
      scans_closeParen hbrace

/-- A line moved in by a number of steps. -/
def indentBy : Nat → String → String
  | 0, l => l
  | n + 1, l => indentBy n (indentation ++ l)

theorem ScansLine.indentBy {l : String} (h : ScansLine l ts) (n : Nat) :
    ScansLine (indentBy n l) ts := by
  induction n generalizing l with
  | zero => exact h
  | succ n ih => exact ih h.indent

/-! The lines of the guard: the counter goes up, and beyond the limit there is a warning and the loop
is left. -/

theorem scansLine_guardCount : ScansLine "__loop_guard++;"
    [.name guardVariable, .mark .plusPlus, .mark .semicolon] := by
  intro rest _
  have htext : "__loop_guard++;".toList = guardVariable.toList ++ ('+' :: '+' :: [';']) := by
    simp [guardVariable]
  rw [htext]
  exact scans_guardVariable rfl <| scans_plusPlus <| scans_semicolon (scans_nil rest)

theorem scansLine_guardTest : ScansLine "if (__loop_guard > 5000) \x7b"
    [.keyword .if, .mark .openParen, .name guardVariable, .mark .greater,
      .number (Float.ofNat guardLimit), .mark .closeParen, .mark .openBrace] := by
  intro rest _
  have htext : "if (__loop_guard > 5000) \x7b".toList
      = "if".toList ++ (' ' :: '(' :: (guardVariable.toList ++ (' ' :: '>' :: ' ' ::
        ((Nat.repr guardLimit).toList ++ (')' :: ' ' :: ['\x7b']))))) := by
    simp [guardVariable, repr_guardLimit]
  rw [htext]
  exact scans_keyword .if rfl <| scans_space <| scans_openParen <|
    scans_guardVariable rfl <| scans_space <|
    scans_symbol .greater (by decide) (by decide) rfl <| scans_space <|
    scans_number guardLimit rfl <| scans_closeParen <| scans_space <|
    scans_openBrace (scans_nil rest)

theorem scansLine_guardWarning (name : String) :
    ScansLine ("  warn(" ++ Json.quote (guardWarning name) ++ ");")
      (callTokens "warn" (guardWarning name)) := by
  have hcall := scansLine_call (f := "warn") (by decide +kernel) (by decide +kernel)
    (by decide +kernel) (guardWarning name)
  have htext : "  warn(" ++ Json.quote (guardWarning name) ++ ");"
      = indentation ++ ("warn" ++ "(" ++ Json.quote (guardWarning name) ++ ");") := by
    simp only [← String.append_assoc]
    rfl
  rw [htext]
  exact hcall.indent

theorem scansLine_guardBreak : ScansLine "  break;" [.keyword .break, .mark .semicolon] := by
  intro rest _
  have htext : "  break;".toList = ' ' :: ' ' :: ("break".toList ++ [';']) := by simp
  rw [htext]
  exact scans_space <| scans_space <| scans_keyword .break rfl <| scans_semicolon (scans_nil rest)

/-- **The lines of the guard.** -/
theorem scansLines_guard (name : String) (n : Nat) :
    ScansLines ((guardLines name).map (indentBy n)) (guardTokens name) := by
  rw [Code.guardLines_eq]
  exact (scansLine_guardCount.indentBy n).cons <| (scansLine_guardTest.indentBy n).cons <|
    ((scansLine_guardWarning name).indentBy n).cons <| (scansLine_guardBreak.indentBy n).cons <|
    (scansLine_closeBrace.indentBy n).cons scansLines_nil

/-! ### Programs -/

theorem scansLines_linesAll {cs : List (Code ν)} {depth n : Nat}
    (h : ∀ c ∈ cs, ScansLines ((c.lines depth).map (indentBy n)) (c.tokens depth)) :
    ScansLines ((Code.linesAll depth cs).map (indentBy n)) (Code.tokensAll depth cs) := by
  induction cs with
  | nil => exact scansLines_nil
  | cons c cs ih =>
    rw [Code.linesAll, Code.tokensAll, List.map_append]
    exact (h c List.mem_cons_self).append (ih fun d hd => h d (List.mem_cons_of_mem c hd))

theorem scansLines_indented {ls : List String} {n : Nat}
    (h : ScansLines (ls.map (indentBy (n + 1))) ts) :
    ScansLines ((ls.map (indentation ++ ·)).map (indentBy n)) ts := by
  rw [List.map_map]
  exact h

/-- **The lines of code** are scanned to its tokens, wherever they stand. -/
theorem scansLines_lines (c : Code ν) (depth n : Nat) :
    ScansLines ((c.lines depth).map (indentBy n)) (c.tokens depth) := by
  induction c using Code.induction generalizing depth n with
  | call label verb argument =>
    have hcall : ScansLine (verb.function ++ "(" ++ Json.quote argument ++ ");")
        (callTokens verb.function argument) := by
      cases verb <;>
        exact scansLine_call (by decide +kernel) (by decide +kernel) (by decide +kernel) argument
    exact (hcall.indentBy n).cons scansLines_nil
  | loop label header body ih =>
    have hbody := scansLines_linesAll fun c hc => ih c hc (depth + 1) (n + 1)
    rw [Code.lines, Code.tokens, List.map_cons, List.map_append, List.map_append]
    exact ((scansLine_opening depth header).indentBy n).cons <|
      (scansLines_indented (scansLines_guard header.name (n + 1))).append <|
      (scansLines_indented hbody).append <|
      (scansLine_closeBrace.indentBy n).cons scansLines_nil

/-- The line that declares the counter. -/
theorem scansLine_prelude : ScansLine Fragment.prelude preludeTokens := by
  intro rest _
  have htext : Fragment.prelude.toList = "let".toList ++ (' ' :: (guardVariable.toList ++
      (' ' :: '=' :: ' ' :: ((Nat.repr 0).toList ++ [';'])))) := by
    change ("let " ++ guardVariable ++ " = 0;").toList = _
    simp [repr_zero]
  rw [htext]
  exact scans_keyword .let rfl <| scans_space <| scans_guardVariable rfl <| scans_space <|
    scans_symbol .assign (by decide) (by decide) rfl <| scans_space <| scans_number 0 rfl <|
    scans_semicolon (scans_nil rest)

/-- **Scanning a program** gives the declaration of the counter and the tokens of the code. -/
theorem scan_program {r : Registry} {bs : List (Block ι)}
    (h : ∀ b ∈ bs, b.WellFormed r ∧ b.shape? r ≠ some .reporter) :
    ∃ ls stop, scan (compileRoots r bs).executable = .ok ls ∧
      ls.map Lexeme.token = preludeTokens ++ Code.tokensAll 0 (Block.codeAll r bs) ∧
      Ordered 0 ls stop := by
  have hbroken := compileRoots_executable h
  have hlist : (compileRoots r bs).executable.toList
      = Fragment.prelude.toList ++ broken (Code.linesAll 0 (Block.codeAll r bs)) := by
    rw [broken_cons, broken_cons, broken_nil, List.append_nil] at hbroken
    exact (List.cons.inj hbroken).2
  -- the roots stand at the margin, so no line of them is moved in
  have hlines : ScansLines (Code.linesAll 0 (Block.codeAll r bs))
      (Code.tokensAll 0 (Block.codeAll r bs)) := by
    have hall : ScansLines ((Code.linesAll 0 (Block.codeAll r bs)).map (indentBy 0))
        (Code.tokensAll 0 (Block.codeAll r bs)) :=
      scansLines_linesAll fun c _ => scansLines_lines c 0 0
    rwa [show indentBy 0 = id from rfl, List.map_id] at hall
  have hends : EndsLine (broken (Code.linesAll 0 (Block.codeAll r bs)) ++ []) := by
    rcases Code.linesAll 0 (Block.codeAll r bs) with _ | ⟨l, ls⟩
    · exact Or.inl rfl
    · exact Or.inr ⟨_, rfl⟩
  have hscans : Scans (compileRoots r bs).executable.toList
      (preludeTokens ++ Code.tokensAll 0 (Block.codeAll r bs)) [] := by
    rw [hlist]
    exact (scansLine_prelude _ hends).append (hlines [] (Or.inl rfl))
  obtain ⟨ls, hscan, htokens, hordered⟩ := hscans.scan
  exact ⟨ls, _, hscan, htokens, hordered⟩

end Blockwork
