import Mathlib
import Blockwork.Proofs.Block.Tokens
import Blockwork.Proofs.Script.Reading

/-!
# Programs are read back

The tokens of code are read as the statements that they were written for (`Code.parses`), at any
depth that a workspace allows: a loop takes one level of nesting for its body, and the guard in it
one more. So the program of a workspace always parses (`parse_program`), and its statements are the
declaration of the counter and one statement for each piece of code. The statements carry the places
of the tokens, which here are the labels of the code (`Marks`).
-/

namespace Blockwork

open Script Script.Parser
open Fragment (guardVariable guardLimit loopVariable)

variable {ι ν : Type}

/-- The places of the tokens of a call or of a loop. -/
structure Marks where
  /-- The places of the header of a loop. -/
  head : Nat → Span
  /-- The places of the guard of a loop. The call in it is numbered from ten on, and so is a call
  that stands alone. -/
  inside : Nat → Span
  /-- The place of the closing brace. -/
  close : Span

/-- The place of the call: the call of the host, or that of the warning. -/
def Marks.callSpan (m : Marks) : Span :=
  ⟨(m.inside 10).start, (m.inside 13).stop⟩

/-- Tokens at the places that are numbered from `k` on. -/
def placed (place : Nat → Span) : (k : Nat) → List Token → List Lexeme
  | _, [] => []
  | k, t :: ts => ⟨t, place k⟩ :: placed place (k + 1) ts

/-! ### The statements of code -/

/-- A call with a text. -/
def callExpr (f s : String) (place : Nat → Span) (k : Nat) : Expr :=
  .call f [.text s] ⟨(place k).start, (place (k + 3)).stop⟩

def callStmt (f s : String) (place : Nat → Span) (k : Nat) : Stmt :=
  .simple (.evaluate (callExpr f s place k) ⟨(place k).start, (place (k + 3)).stop⟩)

/-- Leaving the loop with a warning. -/
def leaveStmts (name : String) (place : Nat → Span) : List Stmt :=
  [callStmt "warn" (guardWarning name) place 10, .break ⟨(place 15).start, (place 16).stop⟩]

/-- The statements of the guard. -/
def guardStmts (name : String) (place : Nat → Span) : List Stmt :=
  [.simple (.increment guardVariable ⟨(place 0).start, (place 1).stop⟩),
    .ifThen
      (.binary .greater (.var guardVariable (place 5)) (.number (Float.ofNat guardLimit))
        ⟨(place 5).start, (place 7).stop⟩)
      (leaveStmts name place) ⟨(place 3).start, (place 17).stop⟩]

/-- The expression of a count. -/
def countExpr : Int → Expr
  | .ofNat n => .number (Float.ofNat n)
  | .negSucc n => .unary .negate (.number (Float.ofNat (n + 1)))

/-- The loop with the given body. -/
def Header.stmt (depth : Nat) (m : Marks) (body : List Stmt) : Header → Stmt
  | .count n =>
    let k := (countTokens n).length
    .for
      (some (.declare (loopVariable depth) (.number (Float.ofNat 0))
        ⟨(m.head 2).start, (m.head 5).stop⟩))
      (some (.binary .less (.var (loopVariable depth) (m.head 7)) (countExpr n)
        ⟨(m.head 7).start, (m.head (8 + k)).stop⟩))
      (some (.increment (loopVariable depth)
        ⟨(m.head (10 + k)).start, (m.head (11 + k)).stop⟩))
      body ⟨(m.head 0).start, m.close.stop⟩
  | .endless => .while (.bool true) body ⟨(m.head 0).start, m.close.stop⟩

namespace Code

mutual

/-- The lexemes of code. -/
def lexemes (depth : Nat) : Code Marks → List Lexeme
  | .call m verb argument => placed m.inside 10 (callTokens verb.function argument)
  | .loop m header body =>
    placed m.head 0 (header.tokens depth) ++ (placed m.inside 0 (guardTokens header.name) ++
      (lexemesAll (depth + 1) body ++ [⟨.mark .closeBrace, m.close⟩]))

def lexemesAll (depth : Nat) : List (Code Marks) → List Lexeme
  | [] => []
  | c :: cs => lexemes depth c ++ lexemesAll depth cs

end

mutual

/-- The statement of code. -/
def stmt (depth : Nat) : Code Marks → Stmt
  | .call m verb argument => callStmt verb.function argument m.inside 10
  | .loop m header body =>
    header.stmt depth m (guardStmts header.name m.inside ++ stmtAll (depth + 1) body)

def stmtAll (depth : Nat) : List (Code Marks) → List Stmt
  | [] => []
  | c :: cs => stmt depth c :: stmtAll depth cs

end

/-- Where the last token of code ends. -/
def stop : Code Marks → Nat
  | .call m _ _ => (m.inside 14).stop
  | .loop m _ _ => m.close.stop

/-! ### Reading the pieces -/

variable {rest : List Lexeme} {prev stop' bound room : Nat}

theorem reads_call (f s : String) (place : Nat → Span) (k : Nat) :
    outcome (statement (bound + 1) (blockAt (bound + 1) (room + 2)) (exprAt (bound + 1) (room + 2) 0))
        ⟨placed place k (callTokens f s) ++ rest, prev, stop'⟩
      = (.ok (callStmt f s place k), ⟨rest, (place (k + 4)).stop, stop'⟩) :=
  outcome_statement_simple (Or.inl ⟨f, rfl⟩)
    (outcome_simple_call (outcome_exprAt outcome_operand_call rfl))

/-- The reader of the statements at a level. -/
def reader (bound room : Nat) : Parser Stmt :=
  statement bound (blockAt bound room) (exprAt bound room 0)

/-- What the guard does when it leaves the loop. -/
theorem reads_leave (name : String) (place : Nat → Span) :
    outcome (blockAt (bound + 2) (room + 3))
        ⟨⟨.mark .openBrace, place 9⟩ :: (placed place 10 (callTokens "warn" (guardWarning name)) ++
          ⟨.keyword .break, place 15⟩ :: ⟨.mark .semicolon, place 16⟩ ::
            ⟨.mark .closeBrace, place 17⟩ :: rest), prev, stop'⟩
      = (.ok (leaveStmts name place), ⟨rest, (place 17).stop, stop'⟩) :=
  outcome_blockAt <| outcome_blockRest_cons (by simp) (reads_call "warn" _ place 10) <|
    outcome_blockRest_cons (by simp) outcome_statement_break outcome_blockRest_nil

/-- The guard at the beginning of a body. -/
theorem reads_guard (name : String) (place : Nat → Span) {opening p : Span} {t : Token}
    {others : List Stmt} {s : Stream} {n : Nat} (ht : t ≠ .keyword .else)
    (hothers : outcome (blockRest opening (reader (bound + 2) (room + 3)) n)
        ⟨⟨t, p⟩ :: rest, (place 17).stop, stop'⟩ = (.ok others, s)) :
    outcome (blockRest opening (reader (bound + 2) (room + 3)) (n + 2))
        ⟨placed place 0 (guardTokens name) ++ ⟨t, p⟩ :: rest, prev, stop'⟩
      = (.ok (guardStmts name place ++ others), s) :=
  outcome_blockRest_cons (by simp)
    (outcome_statement_simple (Or.inl ⟨guardVariable, rfl⟩) outcome_simple_increment) <|
  outcome_blockRest_cons (by simp)
    (outcome_statement_if
      (outcome_condition
        (outcome_exprAt_binary rfl (outcome_exprAt outcome_operand_number rfl) rfl))
      (reads_leave name place) ht)
    hothers

/-- Code begins with a name or with the keyword of a loop. -/
theorem exists_head (c : Code Marks) (depth : Nat) :
    ∃ t p ls, c.lexemes depth = ⟨t, p⟩ :: ls ∧ t ≠ .mark .closeBrace ∧ t ≠ .keyword .else := by
  cases c with
  | call m verb argument => exact ⟨_, _, _, rfl, by simp, by simp⟩
  | loop m header body =>
    cases header with
    | count n => exact ⟨_, _, _, rfl, by simp, by simp⟩
    | endless => exact ⟨_, _, _, rfl, by simp, by simp⟩

/-- A piece of code has at least one lexeme. -/
theorem length_le_length_lexemesAll (cs : List (Code Marks)) (depth : Nat) :
    cs.length ≤ (lexemesAll depth cs).length := by
  induction cs with
  | nil => exact Nat.le_refl 0
  | cons c cs ih =>
    obtain ⟨t, p, ls, hls, -, -⟩ := exists_head c depth
    rw [lexemesAll, hls, List.length_append, List.length_cons, List.length_cons]
    omega

theorem length_le_lexemesAll {c : Code Marks} {cs : List (Code Marks)} (h : c ∈ cs) (depth : Nat) :
    (c.lexemes depth).length ≤ (lexemesAll depth cs).length := by
  induction cs with
  | nil => cases h
  | cons d cs ih =>
    rw [lexemesAll, List.length_append]
    rcases List.mem_cons.mp h with rfl | h
    · omega
    · have := ih h
      omega

/-- The pieces of code in a body, one after the other. -/
theorem reads_body {cs : List (Code Marks)} {depth n : Nat} {opening q : Span}
    (h : ∀ c ∈ cs, ∀ rest prev, outcome (reader bound room) ⟨c.lexemes depth ++ rest, prev, stop'⟩
      = (.ok (c.stmt depth), ⟨rest, c.stop, stop'⟩))
    (hn : cs.length ≤ n) :
    outcome (blockRest opening (reader bound room) (n + 1))
        ⟨lexemesAll depth cs ++ ⟨.mark .closeBrace, q⟩ :: rest, prev, stop'⟩
      = (.ok (stmtAll depth cs), ⟨rest, q.stop, stop'⟩) := by
  induction cs generalizing n prev with
  | nil => exact outcome_blockRest_nil
  | cons c cs ih =>
    obtain ⟨n, rfl⟩ := Nat.exists_eq_succ_of_ne_zero (by simp at hn; omega : n ≠ 0)
    -- code begins with a token that does not close the block
    obtain ⟨t, p, ls, hls, ht, -⟩ := exists_head c depth
    have hfirst := h c List.mem_cons_self
      (lexemesAll depth cs ++ ⟨.mark .closeBrace, q⟩ :: rest) prev
    have hothers : outcome (blockRest opening (reader bound room) (n + 1))
        ⟨lexemesAll depth cs ++ ⟨.mark .closeBrace, q⟩ :: rest, c.stop, stop'⟩
          = (.ok (stmtAll depth cs), ⟨rest, q.stop, stop'⟩) :=
      ih (fun d hd => h d (List.mem_cons_of_mem c hd)) (Nat.le_of_succ_le_succ hn)
    rw [lexemesAll, stmtAll, List.append_assoc]
    rw [hls, List.cons_append] at hfirst ⊢
    exact outcome_blockRest_cons ht hfirst hothers

/-- The count in the header of a loop. -/
theorem reads_count (n : Int) (place : Nat → Span) (k least : Nat) {q : Span} :
    outcome (exprAt bound (room + 2) least)
        ⟨placed place (k + 1) (countTokens n) ++ ⟨.mark .semicolon, q⟩ :: rest, prev, stop'⟩
      = (.ok (countExpr n), ⟨⟨.mark .semicolon, q⟩ :: rest,
          (place (k + (countTokens n).length)).stop, stop'⟩) := by
  cases n with
  | ofNat n => exact outcome_exprAt outcome_operand_number rfl
  | negSucc n => exact outcome_exprAt (outcome_operand_negated rfl) rfl

/-- A loop, whose body is read by the given lemma. -/
theorem reads_loop (m : Marks) (header : Header) (depth : Nat) {body : List Stmt}
    {ls : List Lexeme}
    (hbody : ∀ p prev, outcome (blockAt (bound + 2) (room + 3))
      ⟨⟨.mark .openBrace, p⟩ :: ls, prev, stop'⟩ = (.ok body, ⟨rest, m.close.stop, stop'⟩)) :
    outcome (reader (bound + 2) (room + 3))
        ⟨placed m.head 0 (header.tokens depth) ++ ls, prev, stop'⟩
      = (.ok (header.stmt depth m body), ⟨rest, m.close.stop, stop'⟩) := by
  cases header with
  | endless =>
    exact outcome_statement_while
      (outcome_condition (outcome_exprAt outcome_operand_true rfl)) (hbody (m.head 4) _)
  | count n =>
    have hheader : placed m.head 0 ((Header.count n).tokens depth) ++ ls
        = ⟨.keyword .for, m.head 0⟩ :: ⟨.mark .openParen, m.head 1⟩ ::
          ⟨.keyword .let, m.head 2⟩ :: ⟨.name (loopVariable depth), m.head 3⟩ ::
          ⟨.mark .assign, m.head 4⟩ :: ⟨.number (Float.ofNat 0), m.head 5⟩ ::
          ⟨.mark .semicolon, m.head 6⟩ :: ⟨.name (loopVariable depth), m.head 7⟩ ::
          ⟨.mark .less, m.head 8⟩ :: (placed m.head 9 (countTokens n) ++
          ⟨.mark .semicolon, m.head (9 + (countTokens n).length)⟩ ::
          ⟨.name (loopVariable depth), m.head (10 + (countTokens n).length)⟩ ::
          ⟨.mark .plusPlus, m.head (11 + (countTokens n).length)⟩ ::
          ⟨.mark .closeParen, m.head (12 + (countTokens n).length)⟩ ::
          ⟨.mark .openBrace, m.head (13 + (countTokens n).length)⟩ :: ls) := by
      -- a negative count has one token more
      cases n <;> rfl
    rw [hheader]
    refine outcome_statement_for (outcome_optional (by simp) (outcome_simple_declare
      (outcome_exprAt outcome_operand_number rfl))) (outcome_optional (by simp)
        (outcome_exprAt_binary rfl (reads_count n m.head 8 _) rfl))
        (outcome_optional (by simp) (outcome_update outcome_simple_increment rfl))
        (hbody _ _)

/-- **Code is read back**, whatever follows it. -/
theorem parses (c : Code Marks) (depth : Nat) (hbound : (c.lexemes depth).length ≤ bound + 2)
    (hroom : c.height ≤ room) (rest : List Lexeme) (prev stop' : Nat) :
    outcome (reader (bound + 2) (room + 3)) ⟨c.lexemes depth ++ rest, prev, stop'⟩
      = (.ok (c.stmt depth), ⟨rest, c.stop, stop'⟩) := by
  induction c using Code.induction generalizing depth room rest prev with
  | call m verb argument => exact reads_call _ _ _ _
  | loop m header body ih =>
    obtain ⟨room, rfl⟩ := Nat.exists_eq_succ_of_ne_zero (n := room) (by rw [height] at hroom; omega)
    rw [lexemes, stmt, List.append_assoc]
    refine reads_loop m header depth fun p prev => outcome_blockAt ?_
    -- two statements of the guard, those of the body, and the closing brace
    have hcount : (lexemesAll (depth + 1) body).length + 18 ≤ bound + 2 := by
      rw [lexemes, List.length_append, List.length_append, List.length_append] at hbound
      have hguard : (placed m.inside 0 (guardTokens header.name)).length = 18 := rfl
      omega
    have hcodes : ∀ c ∈ body, ∀ rest prev, outcome (reader (bound + 2) (room + 3))
        ⟨c.lexemes (depth + 1) ++ rest, prev, stop'⟩
          = (.ok (c.stmt (depth + 1)), ⟨rest, c.stop, stop'⟩) := by
      intro c hc rest prev
      have hlength := length_le_lexemesAll hc (depth + 1)
      exact ih c hc (depth + 1) (by omega) (height_loop_le.mp hroom c hc) rest prev
    have hbody : outcome (blockRest p (reader (bound + 2) (room + 3)) (bound + 1))
        ⟨lexemesAll (depth + 1) body ++ ⟨.mark .closeBrace, m.close⟩ :: rest, (m.inside 17).stop,
          stop'⟩ = (.ok (stmtAll (depth + 1) body), ⟨rest, m.close.stop, stop'⟩) := by
      have hlength := length_le_length_lexemesAll body (depth + 1)
      exact reads_body hcodes (by omega)
    obtain ⟨t, q, ls, hls, ht⟩ : ∃ t q ls, lexemesAll (depth + 1) body ++
        ⟨.mark .closeBrace, m.close⟩ :: rest = ⟨t, q⟩ :: ls ∧ t ≠ .keyword .else := by
      cases body with
      | nil => exact ⟨_, _, _, rfl, by simp⟩
      | cons c cs =>
        obtain ⟨t, q, ls, hls, -, ht⟩ := exists_head c (depth + 1)
        refine ⟨t, q, ls ++ (lexemesAll (depth + 1) cs ++ ⟨.mark .closeBrace, m.close⟩ :: rest),
          ?_, ht⟩
        rw [lexemesAll, hls, List.append_assoc, List.cons_append]
    rw [List.append_assoc, List.append_assoc, List.singleton_append, hls]
    rw [hls] at hbody
    exact reads_guard header.name m.inside ht hbody

/-! ### Whole programs -/

theorem statements_codes {cs : List (Code Marks)} {n : Nat}
    (hbound : (lexemesAll 0 cs).length ≤ bound + 2) (hroom : ∀ c ∈ cs, c.height ≤ room)
    (hn : cs.length ≤ n) :
    statements (reader (bound + 2) (room + 3)) n ⟨lexemesAll 0 cs, prev, stop'⟩
      = (stmtAll 0 cs, []) := by
  induction cs generalizing n prev with
  | nil => exact statements_nil _ n
  | cons c cs ih =>
    obtain ⟨n, rfl⟩ := Nat.exists_eq_succ_of_ne_zero (by simp at hn; omega : n ≠ 0)
    have hlength : (lexemesAll 0 (c :: cs)).length
        = (c.lexemes 0).length + (lexemesAll 0 cs).length := by
      rw [lexemesAll, List.length_append]
    have hfirst : (c.lexemes 0).length ≤ bound + 2 := by omega
    have hc := parses c 0 hfirst (hroom c List.mem_cons_self) (lexemesAll 0 cs) prev stop'
    have hcs : statements (reader (bound + 2) (room + 3)) n ⟨lexemesAll 0 cs, c.stop, stop'⟩
        = (stmtAll 0 cs, []) :=
      ih (by omega) (fun d hd => hroom d (List.mem_cons_of_mem c hd)) (Nat.le_of_succ_le_succ hn)
    have hne : c.lexemes 0 ++ lexemesAll 0 cs ≠ [] := by
      obtain ⟨t, p, ls, hls, -⟩ := exists_head c 0
      rw [hls]
      exact List.cons_ne_nil _ _
    rw [lexemesAll, stmtAll, statements_cons hne hc, hcs]

end Code

/-! ### Places for tokens -/

theorem placed_congr {place place' : Nat → Span} {k : Nat} {ts : List Token}
    (h : ∀ i, k ≤ i → place i = place' i) : placed place k ts = placed place' k ts := by
  induction ts generalizing k with
  | nil => rfl
  | cons t ts ih =>
    rw [placed, placed, h k le_rfl, ih fun i hi => h i (Nat.le_of_succ_le hi)]

/-- Lexemes are tokens at some places. -/
theorem exists_placed {ls : List Lexeme} {ts : List Token} (h : ls.map Lexeme.token = ts)
    (k : Nat) : ∃ place, placed place k ts = ls := by
  induction ls generalizing ts k with
  | nil =>
    subst h
    exact ⟨fun _ => default, rfl⟩
  | cons l ls ih =>
    subst h
    obtain ⟨place, hplace⟩ := ih rfl (k + 1)
    refine ⟨fun i => if i = k then l.span else place i, ?_⟩
    have hother : ∀ i, k + 1 ≤ i → (if i = k then l.span else place i) = place i :=
      fun i hi => if_neg (by omega)
    rw [List.map_cons, placed, if_pos rfl, placed_congr hother, hplace]

namespace Code

/-- Code without its labels. -/
def bare (c : Code ν) : Code Unit :=
  c.map fun _ => ()

/-- A list of code without labels. -/
def bareAll (cs : List (Code ν)) : List (Code Unit) :=
  mapAll (fun _ => ()) cs

theorem exists_lexemesAll {cs : List (Code ν)} {depth : Nat}
    (h : ∀ c ∈ cs, ∀ ls, ls.map Lexeme.token = c.tokens depth →
      ∃ c' : Code Marks, c'.lexemes depth = ls ∧ c'.bare = c.bare)
    {ls : List Lexeme} (hls : ls.map Lexeme.token = tokensAll depth cs) :
    ∃ cs' : List (Code Marks), lexemesAll depth cs' = ls ∧ bareAll cs' = bareAll cs := by
  induction cs generalizing ls with
  | nil => exact ⟨[], (List.map_eq_nil_iff.mp hls).symm, rfl⟩
  | cons c cs ih =>
    rw [tokensAll, List.map_eq_append_iff] at hls
    obtain ⟨ls₁, ls₂, rfl, h₁, h₂⟩ := hls
    obtain ⟨c', hc', hbare⟩ := h c List.mem_cons_self ls₁ h₁
    obtain ⟨cs', hcs', hbares⟩ := ih (fun d hd => h d (List.mem_cons_of_mem c hd)) h₂
    refine ⟨c' :: cs', by rw [lexemesAll, hc', hcs'], ?_⟩
    change c'.bare :: bareAll cs' = c.bare :: bareAll cs
    rw [hbare, hbares]

/-- **Labels for code.** Lexemes with the tokens of code are the lexemes of the same code with
some places. -/
theorem exists_lexemes (c : Code ν) (depth : Nat) {ls : List Lexeme}
    (hls : ls.map Lexeme.token = c.tokens depth) :
    ∃ c' : Code Marks, c'.lexemes depth = ls ∧ c'.bare = c.bare := by
  induction c using Code.induction generalizing depth ls with
  | call label verb argument =>
    obtain ⟨place, hplace⟩ := exists_placed hls 10
    exact ⟨.call ⟨place, place, default⟩ verb argument, hplace, rfl⟩
  | loop label header body ih =>
    rw [tokens, List.map_eq_append_iff] at hls
    -- the head, the guard, the body and the closing brace
    obtain ⟨ls₁, ls', rfl, h₁, hls⟩ := hls
    obtain ⟨ls₂, ls'', rfl, h₂, hls⟩ := List.map_eq_append_iff.mp hls
    obtain ⟨ls₃, ls₄, rfl, h₃, h₄⟩ := List.map_eq_append_iff.mp hls
    obtain ⟨head, hhead⟩ := exists_placed h₁ 0
    obtain ⟨guard, hguard⟩ := exists_placed h₂ 0
    obtain ⟨close, hclose⟩ := exists_placed h₄ 0
    obtain ⟨body', hbody, hbare⟩ :=
      exists_lexemesAll (fun c hc ls h => ih c hc (depth + 1) h) h₃
    refine ⟨.loop ⟨head, guard, close 0⟩ header body', ?_, ?_⟩
    · rw [lexemes, hhead, hguard, hbody, ← hclose]
      rfl
    · change Code.loop () header (bareAll body') = Code.loop () header (bareAll body)
      rw [hbare]

theorem heightAll_mapAll {μ : Type} {f : ν → μ} {cs : List (Code ν)}
    (h : ∀ c ∈ cs, (c.map f).height = c.height) : heightAll (mapAll f cs) = heightAll cs := by
  induction cs with
  | nil => rfl
  | cons c cs ih =>
    rw [mapAll, heightAll, heightAll, h c List.mem_cons_self,
      ih fun d hd => h d (List.mem_cons_of_mem c hd)]

theorem height_map {μ : Type} (f : ν → μ) (c : Code ν) : (c.map f).height = c.height := by
  induction c using Code.induction with
  | call => rfl
  | loop label header body ih => rw [map, height, height, heightAll_mapAll ih]

theorem heightAll_bareAll (cs : List (Code ν)) : heightAll (bareAll cs) = heightAll cs :=
  heightAll_mapAll fun c _ => height_map _ c

/-- Labels do not count for the height. -/
theorem height_le_of_bareAll {μ : Type} {cs : List (Code ν)} {ds : List (Code μ)} {n : Nat}
    (hsame : bareAll cs = bareAll ds) (h : ∀ d ∈ ds, d.height ≤ n) : ∀ c ∈ cs, c.height ≤ n := by
  rw [← heightAll_le] at h ⊢
  rwa [← heightAll_bareAll, hsame, heightAll_bareAll]

theorem sublist_starts_all {cs : List (Code Marks)} {depth : Nat}
    (h : ∀ c ∈ cs, List.Sublist (c.loops.map fun m => m.callSpan.start)
      ((c.lexemes depth).map (·.span.start))) :
    List.Sublist ((loopsAll cs).map fun m => m.callSpan.start)
      ((lexemesAll depth cs).map (·.span.start)) := by
  induction cs with
  | nil => exact List.Sublist.refl []
  | cons c cs ih =>
    rw [loopsAll, lexemesAll, List.map_append, List.map_append]
    exact (h c List.mem_cons_self).append (ih fun d hd => h d (List.mem_cons_of_mem c hd))

/-- Each loop has its own lexeme at which its warning begins. -/
theorem sublist_starts (c : Code Marks) (depth : Nat) :
    List.Sublist (c.loops.map fun m => m.callSpan.start)
      ((c.lexemes depth).map (·.span.start)) := by
  induction c using Code.induction generalizing depth with
  | call => exact List.nil_sublist _
  | loop m header body ih =>
    have hbody := sublist_starts_all fun c hc => ih c hc (depth + 1)
    have hguard : List.Sublist [m.callSpan.start]
        ((placed m.inside 0 (guardTokens header.name)).map (·.span.start)) := by
      refine List.singleton_sublist.mpr (List.mem_map.mpr ⟨⟨.name "warn", m.inside 10⟩, ?_, rfl⟩)
      simp [placed, guardTokens, callTokens]
    rw [loops, lexemes, List.map_append, List.map_append, List.map_append, List.map_cons]
    refine List.Sublist.trans ?_ (List.sublist_append_right _ _)
    exact hguard.append (hbody.trans (List.sublist_append_left _ _))

end Code

/-- The statement that declares the counter. -/
def preludeStmt (place : Nat → Span) : Stmt :=
  .simple (.declare guardVariable (.number (Float.ofNat 0)) ⟨(place 0).start, (place 3).stop⟩)

/-- The tokens of a program are read as the declaration of the counter and the statements of the
code, whose height leaves room for the three levels that a statement takes. -/
theorem statements_program {cs : List (Code Marks)} {place : Nat → Span} {stop : Nat}
    (hroom : ∀ c ∈ cs, c.height ≤ 61) {ls : List Lexeme}
    (hls : ls = placed place 0 preludeTokens ++ Code.lexemesAll 0 cs) :
    statements (topStatement ls.length) ls.length ⟨ls, 0, stop⟩
      = (preludeStmt place :: Code.stmtAll 0 cs, []) := by
  have hlength : ls.length = (Code.lexemesAll 0 cs).length + 3 + 2 := by
    rw [hls, List.length_append, show (placed place 0 preludeTokens).length = 5 from rfl]
    omega
  have hcount := Code.length_le_length_lexemesAll cs 0
  have hne : ls ≠ [] := by
    rw [hls]
    exact List.cons_ne_nil _ _
  have hprelude : outcome (Code.reader ((Code.lexemesAll 0 cs).length + 3 + 2) (61 + 3))
      ⟨ls, 0, stop⟩ = (.ok (preludeStmt place), ⟨Code.lexemesAll 0 cs, (place 4).stop, stop⟩) := by
    rw [hls]
    exact outcome_statement_simple (Or.inr rfl)
      (outcome_simple_declare (outcome_exprAt outcome_operand_number rfl))
  have hcodes : statements (Code.reader ((Code.lexemesAll 0 cs).length + 3 + 2) (61 + 3))
      ((Code.lexemesAll 0 cs).length + 3 + 1) ⟨Code.lexemesAll 0 cs, (place 4).stop, stop⟩
      = (Code.stmtAll 0 cs, []) :=
    Code.statements_codes (by omega) hroom (by omega)
  rw [hlength]
  exact (statements_cons hne hprelude).trans (by rw [hcodes])

/-- **The program of a workspace parses**, to the declaration of the counter and the statements of
the code. The warnings of no two loops are called at the same place. -/
theorem parse_program {r : Registry} {bs : List (Block ι)} (source : Nat)
    (h : ∀ b ∈ bs, b.WellFormed r ∧ b.shape? r ≠ some .reporter)
    (hheight : ∀ b ∈ bs, b.height ≤ heightLimit) :
    ∃ (place : Nat → Span) (cs : List (Code Marks)),
      Program.parse (compileRoots r bs).executable source
        = .ok ⟨preludeStmt place :: Code.stmtAll 0 cs, source⟩ ∧
      Code.bareAll cs = Code.bareAll (Block.codeAll r bs) ∧
      ((Code.loopsAll cs).map Marks.callSpan).Nodup := by
  obtain ⟨ls, last, hscan, htokens, hordered⟩ := scan_program h
  obtain ⟨ls₁, ls₂, rfl, h₁, h₂⟩ := List.map_eq_append_iff.mp htokens
  obtain ⟨place, hplace⟩ := exists_placed h₁ 0
  obtain ⟨cs, hcs, hbare⟩ :=
    Code.exists_lexemesAll (fun c _ _ hls => Code.exists_lexemes c 0 hls) h₂
  subst hplace hcs
  refine ⟨place, cs, ?_, hbare, ?_⟩
  · -- the limit on the height of blocks leaves room under the depth of the parser
    have hroom : ∀ c ∈ cs, c.height ≤ 61 := fun c hc =>
      (Code.height_le_of_bareAll hbare (Block.height_codeAll_le r hheight) c hc).trans (by decide)
    unfold Program.parse
    rw [hscan]
    dsimp only
    unfold Program.ofLexemes
    dsimp only
    rw [statements_program hroom rfl]
  · -- the warnings are called at places of the program, which go up
    have hsublist : List.Sublist ((Code.loopsAll cs).map fun m => m.callSpan.start)
        ((placed place 0 preludeTokens ++ Code.lexemesAll 0 cs).map (·.span.start)) := by
      rw [List.map_append]
      exact (Code.sublist_starts_all fun c _ => Code.sublist_starts c 0).trans
        (List.sublist_append_right _ _)
    have hstarts := hordered.starts_lt.1.imp fun h => Nat.ne_of_lt h
    refine List.Nodup.of_map Span.start ?_
    rw [List.map_map]
    exact List.Nodup.sublist hsublist hstarts

end Blockwork
