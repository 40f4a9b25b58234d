import Mathlib
import Blockwork.Proofs.Computation
import Blockwork.Script.Statement

/-!
# What the readers take from a stream

One lemma for each reader, on a stream whose next tokens are known: what it gives, and which
lexemes are left. They cover the statements that programs of blocks are made of. A reader of
expressions needs a level of nesting for each level of the expression, which the lemmas ask for by
the form of `room`.
-/

namespace Blockwork.Script.Parser

variable {rest : List Lexeme} {prev stop : Nat} {t u : Token} {p q : Span}

/-! ### Single tokens -/

theorem outcome_here (s : Stream) : outcome here s = (.ok s.here, s) := rfl

theorem outcome_peek (s : Stream) :
    outcome peek s = (.ok (s.ahead.head?.map Lexeme.token), s) := rfl

theorem outcome_peekTwo (s : Stream) :
    outcome peekTwo s
      = (.ok (s.ahead.head?.map Lexeme.token, s.ahead[1]?.map Lexeme.token), s) := rfl

theorem outcome_previous (s : Stream) : outcome previous s = (.ok s.previous, s) := rfl

theorem outcome_advance (s : Stream) : outcome advance s = (.ok s.ahead.head?, s.advance) := rfl

theorem outcome_eat (token : Token) (s : Stream) :
    outcome (eat token) s = if s.ahead.head?.map Lexeme.token = some token
      then (.ok true, s.advance) else (.ok false, s) := by
  unfold eat
  rw [outcome_bind_ok (outcome_peek s)]
  split
  · rw [outcome_bind_ok (outcome_advance s)]
    rfl
  · rfl

theorem outcome_eat_same :
    outcome (eat t) ⟨⟨t, p⟩ :: rest, prev, stop⟩ = (.ok true, ⟨rest, p.stop, stop⟩) := by
  rw [outcome_eat]
  exact if_pos rfl

theorem outcome_eat_other (h : u ≠ t) :
    outcome (eat t) ⟨⟨u, p⟩ :: rest, prev, stop⟩
      = (.ok false, ⟨⟨u, p⟩ :: rest, prev, stop⟩) := by
  rw [outcome_eat, if_neg]
  simpa using h

theorem outcome_expect :
    outcome (expect t) ⟨⟨t, p⟩ :: rest, prev, stop⟩ = (.ok p, ⟨rest, p.stop, stop⟩) := by
  unfold expect
  rw [outcome_bind_ok (outcome_here _), outcome_bind_ok (outcome_peek _)]
  simp only [List.head?_cons, Option.map_some, if_true]
  rw [outcome_bind_ok (outcome_advance _)]
  rfl

theorem outcome_expectName {word : String} :
    outcome expectName ⟨⟨.name word, p⟩ :: rest, prev, stop⟩
      = (.ok word, ⟨rest, p.stop, stop⟩) := by
  unfold expectName
  rw [outcome_bind_ok (outcome_here _), outcome_bind_ok (outcome_advance _)]
  rfl

/-! ### What has been taken

The other way round: what a reader of a token has found, if it has given a value. -/

theorem eat_taken {s s' : Stream} (h : outcome (eat t) s = (.ok true, s')) :
    ∃ p, s.ahead = ⟨t, p⟩ :: s'.ahead := by
  rw [outcome_eat] at h
  split at h
  · next hhead =>
    obtain ⟨_ | ⟨⟨u, p⟩, rest⟩, prev, stop⟩ := s
    · cases hhead
    · cases hhead
      cases h
      exact ⟨p, rfl⟩
  · cases h

theorem eat_left {s s' : Stream} (h : outcome (eat t) s = (.ok false, s')) :
    s' = s ∧ s.ahead.head?.map Lexeme.token ≠ some t := by
  rw [outcome_eat] at h
  split at h
  · cases h
  · next hhead =>
    cases h
    exact ⟨rfl, hhead⟩

theorem expect_taken {s s' : Stream} {span : Span} (h : outcome (expect t) s = (.ok span, s')) :
    s.ahead = ⟨t, span⟩ :: s'.ahead := by
  unfold expect at h
  rw [outcome_bind_ok (outcome_here s), outcome_bind_ok (outcome_peek s)] at h
  split at h
  · next hhead =>
    rw [outcome_bind_ok (outcome_advance s)] at h
    obtain ⟨_ | ⟨⟨u, p⟩, rest⟩, prev, stop⟩ := s
    · cases hhead
    · cases hhead
      cases h
      rfl
  · cases h

/-- Lexemes whose first token is known. -/
theorem exists_of_map_token {ls : List Lexeme} {ts : List Token}
    (h : ls.map Lexeme.token = t :: ts) : ∃ p ks, ls = ⟨t, p⟩ :: ks ∧ ks.map Lexeme.token = ts := by
  obtain ⟨⟨u, p⟩, ks, rfl, htoken, hks⟩ := List.map_eq_cons_iff.mp h
  cases htoken
  exact ⟨p, ks, rfl, hks⟩

/-! ### Expressions -/

/-- The operator at the front. -/
def nextOperator (ls : List Lexeme) : Option BinaryOp :=
  (ls.head?.map Lexeme.token).bind Token.binaryOp?

/-- No operator follows. -/
def NoOperator (rest : List Lexeme) : Prop :=
  nextOperator rest = none

/-- The next operator, if there is one, binds less tightly than this. -/
def StopsBelow (power : Nat) (ls : List Lexeme) : Prop :=
  ∀ op, nextOperator ls = some op → op.power < power

theorem NoOperator.stopsBelow (h : NoOperator rest) (power : Nat) : StopsBelow power rest := by
  intro op hop
  cases h.symm.trans hop

theorem outcome_operators_stop {inner : Nat → Parser Expr} {least start bound : Nat} {left : Expr}
    (h : StopsBelow least rest) :
    outcome (operators inner least start bound left) ⟨rest, prev, stop⟩
      = (.ok left, ⟨rest, prev, stop⟩) := by
  cases bound with
  | zero => rfl
  | succ bound =>
    rw [operators, outcome_bind_ok (outcome_peek _)]
    split
    · rfl
    · next op hop =>
      rw [if_pos (h op hop)]
      rfl

/-- An operand with nothing behind it that belongs to the expression. -/
theorem outcome_exprAt {bound room least : Nat} {ls : List Lexeme} {e : Expr}
    (hoperand : outcome (operand bound (exprAt bound room)) ⟨ls, prev, stop⟩
      = (.ok e, ⟨rest, q.stop, stop⟩))
    (h : NoOperator rest) :
    outcome (exprAt bound (room + 1) least) ⟨ls, prev, stop⟩ = (.ok e, ⟨rest, q.stop, stop⟩) := by
  unfold exprAt
  rw [outcome_bind_ok (outcome_here _), outcome_bind_ok hoperand]
  exact outcome_operators_stop (h.stopsBelow _)

theorem outcome_operand_number {bound : Nat} {inner : Nat → Parser Expr} {x : Float} :
    outcome (operand bound inner) ⟨⟨.number x, p⟩ :: rest, prev, stop⟩
      = (.ok (.number x), ⟨rest, p.stop, stop⟩) := rfl

theorem outcome_operand_text {bound : Nat} {inner : Nat → Parser Expr} {s : String} :
    outcome (operand bound inner) ⟨⟨.text s, p⟩ :: rest, prev, stop⟩
      = (.ok (.text s), ⟨rest, p.stop, stop⟩) := rfl

theorem outcome_operand_true {bound : Nat} {inner : Nat → Parser Expr} :
    outcome (operand bound inner) ⟨⟨.keyword .true, p⟩ :: rest, prev, stop⟩
      = (.ok (.bool true), ⟨rest, p.stop, stop⟩) := rfl

theorem outcome_operand_var {bound : Nat} {inner : Nat → Parser Expr} {word : String}
    (h : u ≠ .mark .openParen) :
    outcome (operand bound inner) ⟨⟨.name word, p⟩ :: ⟨u, q⟩ :: rest, prev, stop⟩
      = (.ok (.var word p), ⟨⟨u, q⟩ :: rest, p.stop, stop⟩) := by
  unfold operand
  rw [outcome_bind_ok (outcome_here _), outcome_bind_ok (outcome_advance _)]
  dsimp only [List.head?_cons, Stream.advance]
  rw [outcome_bind_ok (outcome_eat_other h)]
  rfl

theorem outcome_operand_negated {bound room : Nat} {x : Float} (h : NoOperator rest) :
    outcome (operand bound (exprAt bound (room + 1)))
        ⟨⟨.mark .minus, p⟩ :: ⟨.number x, q⟩ :: rest, prev, stop⟩
      = (.ok (.unary .negate (.number x)), ⟨rest, q.stop, stop⟩) := by
  unfold operand
  rw [outcome_bind_ok (outcome_here _), outcome_bind_ok (outcome_advance _)]
  dsimp only [List.head?_cons, Stream.advance]
  rw [outcome_bind_ok (outcome_exprAt outcome_operand_number h)]
  rfl

/-- A call with a text. -/
theorem outcome_operand_call {bound room : Nat} {f s : String} {p₁ p₂ p₃ : Span} :
    outcome (operand (bound + 1) (exprAt (bound + 1) (room + 1)))
        ⟨⟨.name f, p⟩ :: ⟨.mark .openParen, p₁⟩ :: ⟨.text s, p₂⟩ :: ⟨.mark .closeParen, p₃⟩ :: rest,
          prev, stop⟩
      = (.ok (.call f [.text s] ⟨p.start, p₃.stop⟩), ⟨rest, p₃.stop, stop⟩) := by
  unfold operand
  rw [outcome_bind_ok (outcome_here _), outcome_bind_ok (outcome_advance _)]
  dsimp only [List.head?_cons, Stream.advance]
  rw [outcome_bind_ok outcome_eat_same]
  have hargument : outcome (exprAt (bound + 1) (room + 1) 0)
      ⟨⟨.text s, p₂⟩ :: ⟨.mark .closeParen, p₃⟩ :: rest, p₁.stop, stop⟩
      = (.ok (.text s), ⟨⟨.mark .closeParen, p₃⟩ :: rest, p₂.stop, stop⟩) :=
    outcome_exprAt outcome_operand_text rfl
  -- one argument, and no comma behind it
  have harguments : outcome (arguments (exprAt (bound + 1) (room + 1) 0) (bound + 1))
      ⟨⟨.text s, p₂⟩ :: ⟨.mark .closeParen, p₃⟩ :: rest, p₁.stop, stop⟩
      = (.ok [.text s], ⟨rest, p₃.stop, stop⟩) := by
    unfold arguments
    rw [outcome_bind_ok hargument, outcome_bind_ok (outcome_eat_other (by simp)), if_neg (by simp),
      outcome_bind_ok outcome_expect]
    rfl
  rw [if_pos rfl, outcome_bind_ok (outcome_eat_other (by simp)), if_neg (by simp),
    outcome_bind_ok harguments]
  rfl

/-- A variable, an operator, and an operand on its right. -/
theorem outcome_exprAt_binary {bound room : Nat} {word : String} {m : Mark} {op : BinaryOp}
    {ls : List Lexeme} {right : Expr} {r : Span} (hop : m.binaryOp? = some op)
    (hright : outcome (exprAt (bound + 1) room (op.power + 1)) ⟨ls, q.stop, stop⟩
      = (.ok right, ⟨rest, r.stop, stop⟩))
    (h : NoOperator rest) :
    outcome (exprAt (bound + 1) (room + 1) 0) ⟨⟨.name word, p⟩ :: ⟨.mark m, q⟩ :: ls, prev, stop⟩
      = (.ok (.binary op (.var word p) right ⟨p.start, r.stop⟩), ⟨rest, r.stop, stop⟩) := by
  have hparen : Token.mark m ≠ .mark .openParen := by
    intro he
    rw [Token.mark.inj he] at hop
    cases hop
  unfold exprAt
  rw [outcome_bind_ok (outcome_here _), outcome_bind_ok (outcome_operand_var hparen)]
  unfold operators
  rw [outcome_bind_ok (outcome_peek _)]
  have hfound : (((⟨.mark m, q⟩ : Lexeme) :: ls).head?.map Lexeme.token).bind Token.binaryOp?
      = some op := hop
  dsimp only
  rw [hfound]
  dsimp only
  rw [if_neg (by omega), outcome_bind_ok (outcome_advance _)]
  dsimp only [Stream.advance]
  rw [outcome_bind_ok hright, outcome_bind_ok (outcome_previous _)]
  exact outcome_operators_stop (h.stopsBelow _)

/-! ### Simple statements -/

theorem outcome_simple_increment {expr : Parser Expr} {word : String} :
    outcome (simple expr) ⟨⟨.name word, p⟩ :: ⟨.mark .plusPlus, q⟩ :: rest, prev, stop⟩
      = (.ok (.increment word ⟨p.start, q.stop⟩), ⟨rest, q.stop, stop⟩) := by
  unfold simple
  rw [outcome_bind_ok (outcome_here _), outcome_bind_ok (outcome_eat_other (by simp)),
    if_neg (by simp), outcome_bind_ok (outcome_peekTwo _)]
  rfl

theorem outcome_simple_declare {expr : Parser Expr} {word : String} {ls : List Lexeme}
    {value : Expr} {p₁ p₂ : Span}
    (hvalue : outcome expr ⟨ls, p₂.stop, stop⟩ = (.ok value, ⟨rest, q.stop, stop⟩)) :
    outcome (simple expr)
        ⟨⟨.keyword .let, p⟩ :: ⟨.name word, p₁⟩ :: ⟨.mark .assign, p₂⟩ :: ls, prev, stop⟩
      = (.ok (.declare word value ⟨p.start, q.stop⟩), ⟨rest, q.stop, stop⟩) := by
  unfold simple
  rw [outcome_bind_ok (outcome_here _), outcome_bind_ok outcome_eat_same, if_pos rfl,
    outcome_bind_ok outcome_expectName, outcome_bind_ok outcome_expect, outcome_bind_ok hvalue,
    outcome_bind_ok (outcome_previous _)]
  rfl

theorem outcome_simple_call {expr : Parser Expr} {f : String} {ls : List Lexeme} {value : Expr}
    {p₁ : Span} (hvalue : outcome expr ⟨⟨.name f, p⟩ :: ⟨.mark .openParen, p₁⟩ :: ls, prev, stop⟩
      = (.ok value, ⟨rest, q.stop, stop⟩)) :
    outcome (simple expr) ⟨⟨.name f, p⟩ :: ⟨.mark .openParen, p₁⟩ :: ls, prev, stop⟩
      = (.ok (.evaluate value ⟨p.start, q.stop⟩), ⟨rest, q.stop, stop⟩) := by
  unfold simple
  rw [outcome_bind_ok (outcome_here _), outcome_bind_ok (outcome_eat_other (by simp)),
    if_neg (by simp), outcome_bind_ok (outcome_peekTwo _)]
  dsimp only [List.head?_cons, Option.map_some]
  change outcome (expr >>= _) _ = _
  rw [outcome_bind_ok hvalue, outcome_bind_ok (outcome_previous _)]
  rfl

/-! ### Statements -/

variable {block : Parser (List Stmt)} {expr : Parser Expr} {bound : Nat}

/-- A simple statement and its semicolon. -/
theorem outcome_statement_simple {ls : List Lexeme} {s : Simple} {prev' : Nat}
    (ht : (∃ word, t = .name word) ∨ t = .keyword .let)
    (hs : outcome (simple expr) ⟨⟨t, p⟩ :: ls, prev, stop⟩
      = (.ok s, ⟨⟨.mark .semicolon, q⟩ :: rest, prev', stop⟩)) :
    outcome (statement bound block expr) ⟨⟨t, p⟩ :: ls, prev, stop⟩
      = (.ok (.simple s), ⟨rest, q.stop, stop⟩) := by
  unfold statement
  rw [outcome_bind_ok (outcome_here _), outcome_bind_ok (outcome_peek _)]
  obtain ⟨word, rfl⟩ | rfl := ht
  · change outcome (simple expr >>= _) _ = _
    rw [outcome_bind_ok hs, outcome_bind_ok outcome_expect]
    rfl
  · change outcome (simple expr >>= _) _ = _
    rw [outcome_bind_ok hs, outcome_bind_ok outcome_expect]
    rfl

theorem outcome_statement_break :
    outcome (statement bound block expr)
        ⟨⟨.keyword .break, p⟩ :: ⟨.mark .semicolon, q⟩ :: rest, prev, stop⟩
      = (.ok (.break ⟨p.start, q.stop⟩), ⟨rest, q.stop, stop⟩) := by
  unfold statement
  rw [outcome_bind_ok (outcome_here _), outcome_bind_ok (outcome_peek _)]
  change outcome (advance >>= _) _ = _
  rw [outcome_bind_ok (outcome_advance _)]
  dsimp only [Stream.advance]
  rw [outcome_bind_ok outcome_expect, outcome_bind_ok (outcome_previous _)]
  rfl

theorem outcome_condition {ls : List Lexeme} {e : Expr} {prev' : Nat}
    (he : outcome expr ⟨ls, p.stop, stop⟩
      = (.ok e, ⟨⟨.mark .closeParen, q⟩ :: rest, prev', stop⟩)) :
    outcome (condition expr) ⟨⟨.mark .openParen, p⟩ :: ls, prev, stop⟩
      = (.ok e, ⟨rest, q.stop, stop⟩) := by
  unfold condition
  rw [outcome_bind_ok outcome_expect, outcome_bind_ok he, outcome_bind_ok outcome_expect]
  rfl

/-- A conditional without a second part. -/
theorem outcome_statement_if {ls ms : List Lexeme} {e : Expr} {body : List Stmt} {prev' last : Nat}
    (he : outcome (condition expr) ⟨ls, p.stop, stop⟩ = (.ok e, ⟨ms, prev', stop⟩))
    (hbody : outcome block ⟨ms, prev', stop⟩ = (.ok body, ⟨⟨u, q⟩ :: rest, last, stop⟩))
    (hu : u ≠ .keyword .else) :
    outcome (statement (bound + 1) block expr) ⟨⟨.keyword .if, p⟩ :: ls, prev, stop⟩
      = (.ok (.ifThen e body ⟨p.start, last⟩), ⟨⟨u, q⟩ :: rest, last, stop⟩) := by
  unfold statement
  rw [outcome_bind_ok (outcome_here _), outcome_bind_ok (outcome_peek _)]
  change outcome (conditional block expr (bound + 1)) _ = _
  unfold conditional
  rw [outcome_bind_ok (outcome_here _), outcome_bind_ok outcome_expect, outcome_bind_ok he,
    outcome_bind_ok hbody, outcome_bind_ok (outcome_eat_other hu), if_neg (by simp),
    outcome_bind_ok (outcome_previous _)]
  rfl

theorem outcome_statement_while {ls ms : List Lexeme} {e : Expr} {body : List Stmt}
    {prev' last : Nat}
    (he : outcome (condition expr) ⟨ls, p.stop, stop⟩ = (.ok e, ⟨ms, prev', stop⟩))
    (hbody : outcome block ⟨ms, prev', stop⟩ = (.ok body, ⟨rest, last, stop⟩)) :
    outcome (statement bound block expr) ⟨⟨.keyword .while, p⟩ :: ls, prev, stop⟩
      = (.ok (.while e body ⟨p.start, last⟩), ⟨rest, last, stop⟩) := by
  unfold statement
  rw [outcome_bind_ok (outcome_here _), outcome_bind_ok (outcome_peek _)]
  change outcome (advance >>= _) _ = _
  rw [outcome_bind_ok (outcome_advance _)]
  dsimp only [Stream.advance]
  rw [outcome_bind_ok he, outcome_bind_ok hbody, outcome_bind_ok (outcome_previous _)]
  rfl

/-- A part of a header that is there. -/
theorem outcome_optional {α : Type} {ending : Token} {part : Parser α} {ls : List Lexeme} {a : α}
    {s : Stream} (ht : t ≠ ending)
    (hpart : outcome part ⟨⟨t, p⟩ :: ls, prev, stop⟩ = (.ok a, s)) :
    outcome (optional ending part) ⟨⟨t, p⟩ :: ls, prev, stop⟩ = (.ok (some a), s) := by
  have hne : ¬ (((⟨t, p⟩ : Lexeme) :: ls).head?.map Lexeme.token) = some ending := by simpa using ht
  unfold optional
  rw [outcome_bind_ok (outcome_peek _), if_neg hne, outcome_bind_ok hpart]
  rfl

theorem outcome_update {s : Simple} {st st' : Stream}
    (hs : outcome (simple expr) st = (.ok s, st')) (hdeclaration : s.isDeclaration = false) :
    outcome (update expr) st = (.ok s, st') := by
  unfold update
  rw [outcome_bind_ok hs, if_neg (by simp [hdeclaration])]
  rfl

theorem outcome_statement_for {ls₁ ls₂ ls₃ ls₄ : List Lexeme} {first update' : Option Simple}
    {test : Option Expr} {body : List Stmt} {p₁ p₂ p₃ p₄ : Span} {prev₁ prev₂ prev₃ last : Nat}
    (hfirst : outcome (optional (.mark .semicolon) (simple expr)) ⟨ls₁, p₁.stop, stop⟩
      = (.ok first, ⟨⟨.mark .semicolon, p₂⟩ :: ls₂, prev₁, stop⟩))
    (htest : outcome (optional (.mark .semicolon) expr) ⟨ls₂, p₂.stop, stop⟩
      = (.ok test, ⟨⟨.mark .semicolon, p₃⟩ :: ls₃, prev₂, stop⟩))
    (hupdate : outcome (optional (.mark .closeParen) (update expr)) ⟨ls₃, p₃.stop, stop⟩
      = (.ok update', ⟨⟨.mark .closeParen, p₄⟩ :: ls₄, prev₃, stop⟩))
    (hbody : outcome block ⟨ls₄, p₄.stop, stop⟩ = (.ok body, ⟨rest, last, stop⟩)) :
    outcome (statement bound block expr)
        ⟨⟨.keyword .for, p⟩ :: ⟨.mark .openParen, p₁⟩ :: ls₁, prev, stop⟩
      = (.ok (.for first test update' body ⟨p.start, last⟩), ⟨rest, last, stop⟩) := by
  unfold statement
  rw [outcome_bind_ok (outcome_here _), outcome_bind_ok (outcome_peek _)]
  change outcome (forLoop block expr) _ = _
  unfold forLoop
  rw [outcome_bind_ok (outcome_here _), outcome_bind_ok outcome_expect,
    outcome_bind_ok outcome_expect, outcome_bind_ok hfirst, outcome_bind_ok outcome_expect,
    outcome_bind_ok htest, outcome_bind_ok outcome_expect, outcome_bind_ok hupdate,
    outcome_bind_ok outcome_expect, outcome_bind_ok hbody, outcome_bind_ok (outcome_previous _)]
  rfl

/-! ### Blocks -/

theorem outcome_blockAt {room : Nat} {ls : List Lexeme} {body : List Stmt} {s : Stream}
    (h : outcome (blockRest p (statement bound (blockAt bound room) (exprAt bound room 0))
      (bound + 1)) ⟨ls, p.stop, stop⟩ = (.ok body, s)) :
    outcome (blockAt bound (room + 1)) ⟨⟨.mark .openBrace, p⟩ :: ls, prev, stop⟩
      = (.ok body, s) := by
  unfold blockAt
  rw [outcome_bind_ok outcome_expect, h]

theorem outcome_blockRest_nil {reader : Parser Stmt} {opening : Span} :
    outcome (blockRest opening reader (bound + 1)) ⟨⟨.mark .closeBrace, p⟩ :: rest, prev, stop⟩
      = (.ok [], ⟨rest, p.stop, stop⟩) := by
  unfold blockRest
  rw [outcome_bind_ok outcome_eat_same, if_pos rfl]
  rfl

theorem outcome_blockRest_cons {reader : Parser Stmt} {opening : Span} {ls ms : List Lexeme}
    {first : Stmt} {others : List Stmt} {s : Stream} {prev' : Nat} (ht : t ≠ .mark .closeBrace)
    (hfirst : outcome reader ⟨⟨t, p⟩ :: ls, prev, stop⟩ = (.ok first, ⟨ms, prev', stop⟩))
    (hothers : outcome (blockRest opening reader bound) ⟨ms, prev', stop⟩ = (.ok others, s)) :
    outcome (blockRest opening reader (bound + 1)) ⟨⟨t, p⟩ :: ls, prev, stop⟩
      = (.ok (first :: others), s) := by
  unfold blockRest
  rw [outcome_bind_ok (outcome_eat_other ht), if_neg (by simp), outcome_bind_ok (outcome_get _),
    if_neg (by simp), outcome_bind_ok hfirst, outcome_bind_ok hothers]
  rfl

/-! ### Programs -/

theorem statements_nil (reader : Parser Stmt) (n : Nat) :
    statements reader n ⟨[], prev, stop⟩ = ([], []) := by
  cases n <;> rfl

theorem statements_cons {reader : Parser Stmt} {n : Nat} {ls ms : List Lexeme} {first : Stmt}
    {prev' : Nat} (hne : ls ≠ [])
    (h : outcome reader ⟨ls, prev, stop⟩ = (.ok first, ⟨ms, prev', stop⟩)) :
    statements reader (n + 1) ⟨ls, prev, stop⟩
      = (first :: (statements reader n ⟨ms, prev', stop⟩).1,
          (statements reader n ⟨ms, prev', stop⟩).2) := by
  have hrun : reader.run ⟨ls, prev, stop⟩ = (.ok first, ⟨ms, prev', stop⟩) := h
  rw [statements, if_neg (by simpa using hne), hrun]

end Blockwork.Script.Parser
