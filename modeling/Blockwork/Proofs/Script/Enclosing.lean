import Mathlib
import Blockwork.Proofs.Script.Nesting
import Blockwork.Proofs.Script.Reading
import Blockwork.Proofs.Script.Scanning

/-!
# Statements inside statements

How many statements a statement of a program lies inside. `Stmt.Way s steps t` leads from `s` to a
statement `t` in it, through one more enclosing statement with each step. A step goes into a body,
to a statement in the header of a `for` loop, or from a conditional to the one behind its `else`.

Every body stands in braces, and braces take a level of nesting when they are read. A conditional
behind an `else` stands in no braces of its own, and takes none. So the limit of the readers is one
on the other steps:

* `Program.length_way_le`: of a program that has been read, every statement lies inside at most
  `nestingLimit` statements that are not stepped through on an `else if`.
* `exists_way_elseIf`: nothing bounds the steps on an `else if`. For every number there is a source
  that is read, with a statement inside so many.
-/

namespace Blockwork.Script

/-! ### Ways into a statement -/

/-- The step from a conditional that ends here to a statement of its second part. A statement in
braces ends before the conditional does, since the closing brace is still to come. -/
def Stmt.elseStepTo (stop : Nat) (t : Stmt) : Step :=
  if t.span.stop = stop then .elseIf else .body

/-- The statements right inside a statement, each with the step to it. -/
def Stmt.inner : Stmt → List (Step × Stmt)
  | .simple _ | .break _ => []
  | .ifThen _ body _ | .while _ body _ | .block body _ => body.map (Step.body, ·)
  | .ifElse _ body otherwise span =>
    body.map (Step.body, ·) ++ otherwise.map fun t => (Stmt.elseStepTo span.stop t, t)
  | .for first _ update body _ =>
    (first.toList ++ update.toList).map (fun s => (Step.header, .simple s)) ++
      body.map (Step.body, ·)

/-- **The steps lead from a statement to one in it.** Each goes through one more statement that
encloses the last one, so there are as many of these as steps. -/
inductive Stmt.Way : Stmt → List Step → Stmt → Prop
  | here (s : Stmt) : Way s [] s
  | into {s t u : Stmt} {step : Step} {steps : List Step} :
      (step, t) ∈ s.inner → Way t steps u → Way s (step :: steps) u

/-- No statement lies inside more than `room` statements of this one, but for those that are
stepped through on an `else if`. -/
def Stmt.Within (room : Nat) (s : Stmt) : Prop :=
  ∀ steps t, s.Way steps t → steps.length ≤ room + steps.count .elseIf

/-- The statements of a body: its braces take one of the levels. -/
def Stmt.Housed (room : Nat) (ss : List Stmt) : Prop :=
  ∃ k, room = k + 1 ∧ ∀ s ∈ ss, s.Within k

/-- It is enough to look at the statements right inside. -/
theorem Stmt.within_of_inner {room : Nat} {s : Stmt}
    (h : ∀ step t, (step, t) ∈ s.inner →
      step = .elseIf ∧ t.Within room ∨ ∃ k, room = k + 1 ∧ t.Within k) : s.Within room := by
  intro steps u hway
  cases hway with
  | here => exact Nat.zero_le _
  | @into _ t _ step steps hmem hway =>
    rw [List.length_cons]
    rcases h step t hmem with ⟨rfl, ht⟩ | ⟨k, rfl, ht⟩
    · -- the step is counted on both sides
      have hlength := ht steps u hway
      rw [List.count_cons_self]
      omega
    · have hlength := ht steps u hway
      have hcount : steps.count .elseIf ≤ (step :: steps).count .elseIf := List.count_le_count_cons
      omega

theorem Stmt.within_simple (room : Nat) (s : Simple) : (Stmt.simple s).Within room :=
  within_of_inner fun _ _ hmem => absurd hmem List.not_mem_nil

/-- A statement whose bodies stand in braces. -/
theorem Stmt.Housed.within {room : Nat} {ss : List Stmt} {s : Stmt} (h : Stmt.Housed room ss)
    (hinner : s.inner = ss.map (Step.body, ·)) : s.Within room := by
  obtain ⟨k, hk, hall⟩ := h
  refine Stmt.within_of_inner fun step t hmem => .inr ⟨k, hk, ?_⟩
  rw [hinner] at hmem
  obtain ⟨t', ht', heq⟩ := List.mem_map.mp hmem
  cases heq
  exact hall t ht'

namespace Parser

variable {room bound : Nat} {block : Parser (List Stmt)} {expr : Parser Expr}

/-! ### What the readers give -/

/-- **Conditionals.** The one behind an `else` ends where the whole of it ends, which is how the
step to it is known. -/
theorem within_conditional (hblock : Gives (Stmt.Housed room) block) {st st' : Stream} {s : Stmt}
    (h : outcome (conditional block expr bound) st = (.ok s, st')) :
    s.Within room ∧ s.span.stop = st'.previous := by
  induction bound generalizing st s with
  | zero => cases h
  | succ bound ih =>
    rw [conditional] at h
    obtain ⟨start, _, -, h⟩ := outcome_bind_eq_ok h
    obtain ⟨_, _, -, h⟩ := outcome_bind_eq_ok h
    obtain ⟨e, _, -, h⟩ := outcome_bind_eq_ok h
    obtain ⟨body, _, hbody, h⟩ := outcome_bind_eq_ok h
    have hhoused := hblock _ _ _ hbody
    obtain ⟨more, _, -, h⟩ := outcome_bind_eq_ok h
    cases more with
    | false =>
      cases h
      exact ⟨hhoused.within rfl, rfl⟩
    | true =>
      have hwithin {otherwise : List Stmt} {stop : Nat}
          (h : ∀ t ∈ otherwise, Stmt.elseStepTo stop t = .elseIf ∧ t.Within room ∨
            ∃ k, room = k + 1 ∧ t.Within k) :
          (Stmt.ifElse e body otherwise ⟨start.start, stop⟩).Within room := by
        refine Stmt.within_of_inner fun step t hmem => ?_
        rcases List.mem_append.mp hmem with hmem | hmem
        · obtain ⟨k, hk, hall⟩ := hhoused
          obtain ⟨t', ht', heq⟩ := List.mem_map.mp hmem
          cases heq
          exact .inr ⟨k, hk, hall t ht'⟩
        · obtain ⟨t', ht', heq⟩ := List.mem_map.mp hmem
          cases heq
          exact h t ht'
      obtain ⟨next, _, -, h⟩ := outcome_bind_eq_ok h
      split at h
      · obtain ⟨t, u, ht, h⟩ := outcome_bind_eq_ok h
        cases h
        obtain ⟨hwithin', hstop⟩ := ih ht
        refine ⟨hwithin (List.forall_mem_singleton.mpr (.inl ⟨?_, hwithin'⟩)), rfl⟩
        -- nothing is read between the end of the inner conditional and that of the outer one
        exact if_pos hstop
      · obtain ⟨otherwise, u, hotherwise, h⟩ := outcome_bind_eq_ok h
        cases h
        obtain ⟨k, hk, hall⟩ := hblock _ _ _ hotherwise
        exact ⟨hwithin fun t ht => .inr ⟨k, hk, hall t ht⟩, rfl⟩

/-- A `for` loop has braces, so there is room for the statements of its header too. -/
theorem within_forLoop (hblock : Gives (Stmt.Housed room) block) :
    Gives (Stmt.Within room) (forLoop block expr) := by
  unfold forLoop
  refine gives_then fun place => gives_then fun _ => gives_then fun _ => gives_then fun first => ?_
  refine gives_then fun _ => gives_then fun e => gives_then fun _ => gives_then fun step => ?_
  refine gives_then fun _ => hblock.bind fun body hbody => gives_then fun _ => gives_pure ?_
  obtain ⟨k, hk, hall⟩ := hbody
  refine Stmt.within_of_inner fun step t hmem => .inr ⟨k, hk, ?_⟩
  rcases List.mem_append.mp hmem with hmem | hmem
  · obtain ⟨s, -, heq⟩ := List.mem_map.mp hmem
    cases heq
    exact Stmt.within_simple k s
  · obtain ⟨t', ht', heq⟩ := List.mem_map.mp hmem
    cases heq
    exact hall t ht'

theorem within_statement (hblock : Gives (Stmt.Housed room) block) :
    Gives (Stmt.Within room) (statement bound block expr) := by
  unfold statement
  refine gives_then fun place => gives_then fun next => ?_
  split
  · exact hblock.bind fun body hbody => gives_then fun _ => gives_pure (hbody.within rfl)
  · exact fun st s st' h => (within_conditional hblock h).1
  · exact gives_then fun _ => gives_then fun e => hblock.bind fun body hbody =>
      gives_then fun _ => gives_pure (hbody.within rfl)
  · exact within_forLoop hblock
  · exact gives_then fun _ => gives_then fun _ => gives_then fun _ =>
      gives_pure (Stmt.within_of_inner fun _ _ hmem => absurd hmem List.not_mem_nil)
  · exact gives_then fun s => gives_then fun _ => gives_pure (Stmt.within_simple room s)

theorem housed_blockRest {opening : Span} {reader : Parser Stmt}
    (h : Gives (Stmt.Within room) reader) :
    Gives (Stmt.Housed (room + 1)) (blockRest opening reader bound) := by
  induction bound with
  | zero => exact gives_throw _
  | succ bound ih =>
    rw [blockRest]
    refine gives_then fun closes => ?_
    cases closes with
    | true => exact gives_pure ⟨room, rfl, List.forall_mem_nil _⟩
    | false =>
      refine gives_then fun rest => ?_
      dsimp only
      split
      · exact gives_throw _
      · refine h.bind fun first hfirst => ih.bind fun others hothers => gives_pure ?_
        obtain ⟨k, hk, hall⟩ := hothers
        cases hk
        exact ⟨room, rfl, List.forall_mem_cons.mpr ⟨hfirst, hall⟩⟩

/-- **Blocks.** Their braces take one of the levels. -/
theorem housed_blockAt (bound room : Nat) : Gives (Stmt.Housed room) (blockAt bound room) := by
  induction room with
  | zero => exact gives_failHere _
  | succ room ih =>
    rw [blockAt]
    exact gives_then fun opening => housed_blockRest (within_statement ih)

end Parser

/-! ### Chains of conditionals -/

/-- A conditional with so many `else if` parts. -/
def chained : Nat → String
  | 0 => "if (a) \x7b \x7d"
  | n + 1 => "if (a) \x7b \x7d else " ++ chained n

/-- The tokens of one part, in front of others. -/
def partTokens (ts : List Token) : List Token :=
  .keyword .if :: .mark .openParen :: .name "a" :: .mark .closeParen :: .mark .openBrace ::
    .mark .closeBrace :: ts

/-- The tokens of such a conditional. -/
def chainedTokens : Nat → List Token
  | 0 => partTokens []
  | n + 1 => partTokens (.keyword .else :: chainedTokens n)

theorem exists_chainedTokens (n : Nat) : ∃ ts, chainedTokens n = .keyword .if :: ts := by
  cases n <;> exact ⟨_, rfl⟩

theorem scans_chained (n : Nat) : Scans (chained n).toList (chainedTokens n) [] := by
  -- one part of the chain, in front of whatever is scanned behind it
  have hpart {cs : List Char} {ts : List Token} (h : Scans cs ts []) :
      Scans ("if".toList ++ (' ' :: '(' :: ("a".toList ++ (')' :: ' ' :: '\x7b' :: ' ' :: '\x7d' ::
        cs))))
        (partTokens ts) [] :=
    scans_keyword .if rfl <| scans_space <| scans_openParen <|
      scans_name (by decide +kernel) (by decide +kernel) (by decide +kernel) rfl <|
      scans_closeParen <| scans_space <| scans_openBrace <| scans_space <|
      scans_closeBrace h
  induction n with
  | zero =>
    have htext : (chained 0).toList = "if".toList ++ (' ' :: '(' :: ("a".toList ++
        (')' :: ' ' :: '\x7b' :: ' ' :: '\x7d' :: []))) := by
      simp [chained]
    rw [htext]
    exact hpart (scans_nil [])
  | succ n ih =>
    have htext : (chained (n + 1)).toList = "if".toList ++ (' ' :: '(' :: ("a".toList ++
        (')' :: ' ' :: '\x7b' :: ' ' :: '\x7d' :: ' ' ::
          ("else".toList ++ (' ' :: (chained n).toList))))) := by
      simp [chained]
    rw [htext]
    exact hpart (scans_space (scans_keyword .else rfl (scans_space ih)))

namespace Parser

variable {prev mid last stop : Nat} {p q r : Span} {ls ms rest : List Lexeme} {e : Expr}
  {body : List Stmt}

/-- A conditional at the end of the source. -/
theorem outcome_conditional_last
    (he : outcome (condition expr) ⟨ls, p.stop, stop⟩ = (.ok e, ⟨ms, mid, stop⟩))
    (hbody : outcome block ⟨ms, mid, stop⟩ = (.ok body, ⟨[], last, stop⟩)) :
    outcome (conditional block expr (bound + 1)) ⟨⟨.keyword .if, p⟩ :: ls, prev, stop⟩
      = (.ok (.ifThen e body ⟨p.start, last⟩), ⟨[], last, stop⟩) := by
  rw [conditional, outcome_bind_ok (outcome_here _), outcome_bind_ok outcome_expect,
    outcome_bind_ok he, outcome_bind_ok hbody]
  rfl

/-- A conditional with an `else if` part. -/
theorem outcome_conditional_elseIf {t : Stmt} {s : Stream}
    (he : outcome (condition expr) ⟨ls, p.stop, stop⟩ = (.ok e, ⟨ms, mid, stop⟩))
    (hbody : outcome block ⟨ms, mid, stop⟩
      = (.ok body, ⟨⟨.keyword .else, q⟩ :: ⟨.keyword .if, r⟩ :: rest, last, stop⟩))
    (hnext : outcome (conditional block expr bound) ⟨⟨.keyword .if, r⟩ :: rest, q.stop, stop⟩
      = (.ok t, s)) :
    outcome (conditional block expr (bound + 1)) ⟨⟨.keyword .if, p⟩ :: ls, prev, stop⟩
      = (.ok (.ifElse e body [t] ⟨p.start, s.previous⟩), s) := by
  rw [conditional, outcome_bind_ok (outcome_here _), outcome_bind_ok outcome_expect,
    outcome_bind_ok he, outcome_bind_ok hbody, outcome_bind_ok outcome_eat_same, if_pos rfl,
    outcome_bind_ok (outcome_peek _)]
  change outcome (conditional block expr bound >>= _) _ = _
  rw [outcome_bind_ok hnext]
  rfl

theorem exists_of_partTokens {ts : List Token} (h : ls.map Lexeme.token = partTokens ts) :
    ∃ (p₁ p₂ p₃ p₄ p₅ p₆ : Span) (ks : List Lexeme),
      ls = ⟨.keyword .if, p₁⟩ :: ⟨.mark .openParen, p₂⟩ :: ⟨.name "a", p₃⟩ ::
        ⟨.mark .closeParen, p₄⟩ :: ⟨.mark .openBrace, p₅⟩ :: ⟨.mark .closeBrace, p₆⟩ :: ks ∧
      ks.map Lexeme.token = ts := by
  obtain ⟨p₁, _, rfl, h₁⟩ := exists_of_map_token h
  obtain ⟨p₂, _, rfl, h₂⟩ := exists_of_map_token h₁
  obtain ⟨p₃, _, rfl, h₃⟩ := exists_of_map_token h₂
  obtain ⟨p₄, _, rfl, h₄⟩ := exists_of_map_token h₃
  obtain ⟨p₅, _, rfl, h₅⟩ := exists_of_map_token h₄
  obtain ⟨p₆, ks, rfl, h₆⟩ := exists_of_map_token h₅
  exact ⟨p₁, p₂, p₃, p₄, p₅, p₆, ks, rfl, h₆⟩

/-- **The reader of conditionals takes the chain**, and its last part is behind all the others. -/
theorem exists_conditional_chained {B n : Nat} (hls : ls.map Lexeme.token = chainedTokens n)
    (hbound : n < bound) :
    ∃ s t last, outcome (conditional (blockAt B nestingLimit) (exprAt B nestingLimit 0) bound)
        ⟨ls, prev, stop⟩ = (.ok s, ⟨[], last, stop⟩) ∧
      s.span.stop = last ∧ s.Way (List.replicate n .elseIf) t := by
  have hcondition {p₁ p₂ p₃ : Span} (prev : Nat) (ks : List Lexeme) :
      outcome (condition (exprAt B nestingLimit 0))
        ⟨⟨.mark .openParen, p₁⟩ :: ⟨.name "a", p₂⟩ :: ⟨.mark .closeParen, p₃⟩ :: ks, prev, stop⟩
      = (.ok (.var "a" p₂), ⟨ks, p₃.stop, stop⟩) :=
    outcome_condition (outcome_exprAt (outcome_operand_var (by simp)) rfl)
  have hblock {p₁ p₂ : Span} (prev : Nat) (ks : List Lexeme) :
      outcome (blockAt B nestingLimit)
        ⟨⟨.mark .openBrace, p₁⟩ :: ⟨.mark .closeBrace, p₂⟩ :: ks, prev, stop⟩
      = (.ok [], ⟨ks, p₂.stop, stop⟩) :=
    outcome_blockAt outcome_blockRest_nil
  induction n generalizing bound prev ls with
  | zero =>
    obtain ⟨bound, rfl⟩ := Nat.exists_eq_succ_of_ne_zero (Nat.ne_zero_of_lt hbound)
    obtain ⟨p₁, p₂, p₃, p₄, p₅, p₆, ks, rfl, hks⟩ := exists_of_partTokens hls
    obtain rfl := List.map_eq_nil_iff.mp hks
    exact ⟨_, _, _, outcome_conditional_last (hcondition _ _) (hblock _ _), rfl, .here _⟩
  | succ n ih =>
    obtain ⟨bound, rfl⟩ := Nat.exists_eq_succ_of_ne_zero (Nat.ne_zero_of_lt hbound)
    obtain ⟨p₁, p₂, p₃, p₄, p₅, p₆, ks, rfl, hks⟩ := exists_of_partTokens hls
    obtain ⟨p₇, ms, rfl, hms⟩ := exists_of_map_token hks
    obtain ⟨t, u, last, hnext, hstop, hway⟩ := ih hms (Nat.lt_of_succ_lt_succ hbound)
    -- what follows the `else` is a chain again, and begins with a conditional
    obtain ⟨ts, hts⟩ := exists_chainedTokens n
    obtain ⟨p₈, _, rfl, -⟩ := exists_of_map_token (hms.trans hts)
    refine ⟨_, u, _, outcome_conditional_elseIf (hcondition _ _) (hblock _ _) hnext, rfl, ?_⟩
    refine Stmt.Way.into (List.mem_append_right _ ?_) hway
    exact List.mem_map.mpr ⟨t, List.mem_singleton_self t, congrArg (·, t) (if_pos hstop)⟩

end Parser

theorem lt_length_chainedTokens (n : Nat) : n < (chainedTokens n).length := by
  induction n with
  | zero => exact Nat.succ_pos _
  | succ n ih =>
    change n + 1 < (chainedTokens n).length + 7
    omega

/-- **No bound on `else if`.** For every number there is a source that is read, with a statement
inside so many. -/
theorem Program.exists_way_elseIf (n : Nat) : ∃ p s t, Program.parse (chained n) 0 = .ok p ∧
    s ∈ p.statements ∧ s.Way (List.replicate n .elseIf) t := by
  obtain ⟨ls, hscan, htokens, -⟩ := (scans_chained n).scan
  have hlength : n < ls.length := by
    rw [← List.length_map, htokens]
    exact lt_length_chainedTokens n
  have hread : ∃ s t last, outcome (Parser.conditional (Parser.blockAt ls.length nestingLimit)
        (Parser.exprAt ls.length nestingLimit 0) ls.length) ⟨ls, 0, (chained n).utf8ByteSize⟩
        = (.ok s, ⟨[], last, (chained n).utf8ByteSize⟩) ∧
      s.span.stop = last ∧ s.Way (List.replicate n .elseIf) t :=
    Parser.exists_conditional_chained htokens hlength
  obtain ⟨s, t, last, hread, -, hway⟩ := hread
  obtain ⟨ts, hts⟩ := exists_chainedTokens n
  obtain ⟨p, ks, rfl, -⟩ := Parser.exists_of_map_token (htokens.trans hts)
  -- the reader of statements sees the `if`, and hands over to that of conditionals
  have htop : outcome (Parser.topStatement (ks.length + 1))
      ⟨⟨.keyword .if, p⟩ :: ks, 0, (chained n).utf8ByteSize⟩
      = (.ok s, ⟨[], last, (chained n).utf8ByteSize⟩) := hread
  refine ⟨⟨[s], 0⟩, s, t, ?_, List.mem_singleton_self s, hway⟩
  unfold parse
  rw [hscan]
  unfold ofLexemes
  dsimp only [List.length_cons]
  rw [Parser.statements_cons (List.cons_ne_nil _ _) htop, Parser.statements_nil]

/-! ### Programs -/

/-- **How far inside the statements of a program lie.** Every statement lies inside at most as many
statements as there are levels of nesting, and one more for each `else if` on the way to it. -/
theorem Program.length_way_le {text : String} {source : Nat} {p : Program} {s t : Stmt}
    {steps : List Step} (h : Program.parse text source = .ok p) (hs : s ∈ p.statements)
    (hway : s.Way steps t) : steps.length ≤ nestingLimit + steps.count .elseIf := by
  have hreader (bound : Nat) : Parser.Gives (Stmt.Within nestingLimit)
      (Parser.topStatement bound) :=
    Parser.within_statement (Parser.housed_blockAt bound nestingLimit)
  exact Program.forall_statements_of_parse hreader h s hs steps t hway

/-- A conditional with two `else if` parts: the last of them lies inside two conditionals. -/
theorem Program.length_way_le_chained : ∃ p s t, Program.parse (chained 2) 0 = .ok p ∧
    s ∈ p.statements ∧ s.Way [.elseIf, .elseIf] t ∧
    [Step.elseIf, Step.elseIf].length
      ≤ nestingLimit + [Step.elseIf, Step.elseIf].count .elseIf := by
  obtain ⟨p, s, t, hparse, hs, hway⟩ := exists_way_elseIf 2
  exact ⟨p, s, t, hparse, hs, hway, Program.length_way_le hparse hs hway⟩

/-- **A source that is read, with a statement inside more statements than there are levels of
nesting**: the last of so many `else if` parts. -/
theorem Program.exists_way_beyond_limit : ∃ p s t steps, Program.parse (chained 65) 0 = .ok p ∧
    s ∈ p.statements ∧ s.Way steps t ∧ nestingLimit < steps.length := by
  obtain ⟨p, s, t, hparse, hs, hway⟩ := exists_way_elseIf 65
  refine ⟨p, s, t, _, hparse, hs, hway, ?_⟩
  rw [List.length_replicate]
  decide

end Blockwork.Script
