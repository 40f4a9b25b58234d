import Mathlib
import Blockwork.Proofs.Script.Grammar
import Blockwork.Proofs.Script.Reading
import Blockwork.Proofs.Script.Trees

/-!
# The reader of expressions and the grammar

The reader knows no levels. It reads an operand, and then all operators that bind tightly enough,
with right operands of the next higher power. That this is the grammar is shown in both directions,
each by induction on what the one side recurses on.

From the reader to the grammar, the induction is on the room that is left, and within one expression
on the loop over the operators. What the loop has read so far is an expression of some level, and no
operator that binds tighter than this level is next (`operators_sound`); so it may stand to the left
of the operator that is.

From the grammar to the reader, the induction is on the derivation. An expression on the left of an
operator is not read by a call of its own, so the statement is about the loop: in front of the
tokens of an expression of a level, the reader gets to behind them with its tree as what may become
a left operand (`Climbs`). This needs that nothing which binds tighter than the level comes next, so
it covers an operator of the level itself.

## Main result

* `exprAt_iff_derives`: what the reader takes is an expression of the grammar, and it takes every
  expression of the grammar that is not nested too deep.
-/

namespace Blockwork.Script.Parser

/-! ### From the reader to the grammar -/

theorem exists_of_nextOperator {ls : List Lexeme} {op : BinaryOp} (h : nextOperator ls = some op) :
    ∃ m q rest, ls = ⟨.mark m, q⟩ :: rest ∧ m.binaryOp? = some op := by
  obtain _ | ⟨⟨t, q⟩, rest⟩ := ls
  · cases h
  · cases t with
    | mark m => exact ⟨m, q, rest, rfl, h⟩
    | _ => cases h

/-- What is read with operators of at least the power `least` is an expression of the level. -/
def Covers (l : Level) (least : Nat) : Prop :=
  least ≤ Level.power .prefixed ∧ ∀ l' : Level, least ≤ l'.power → l.power ≤ l'.power

theorem covers_zero : Covers .or 0 :=
  ⟨by decide, fun l' _ => by cases l' <;> decide⟩

theorem covers_prefixed : Covers .prefixed prefixPower :=
  ⟨by decide, fun _ h => h⟩

/-- Behind an operator, an operand of the next tighter level is read. -/
theorem covers_tighter {l : Level} {m : Mark} {op : BinaryOp} (h : (m, op) ∈ l.operators) :
    Covers l.tighter (op.power + 1) := by
  obtain ⟨-, hpower⟩ := Level.binaryOp?_of_mem h
  rw [hpower]
  refine ⟨?_, fun l' h' => ?_⟩
  · revert h
    cases l <;> simp [Level.operators, Level.power]
  · revert h'
    cases l <;> cases l' <;> simp [Level.power, Level.tighter]

/-- The reader gives only what the grammar has, from at most `room` levels, and stops where no
operator of at least this power follows. -/
def Sound (bound room least : Nat) (x : Parser Expr) : Prop :=
  ∀ (l : Level) (s s' : Stream) (e : Expr), Covers l least → s.ahead.length ≤ bound →
    outcome x s = (.ok e, s') → StopsBelow least s'.ahead ∧
      ∃ ls n, s.ahead = ls ++ s'.ahead ∧ n ≤ room ∧ Derives l n (ls.map Lexeme.token) e

variable {bound room : Nat} {inner : Nat → Parser Expr} {s s' : Stream}

/-- What is read from behind some lexemes on is shorter by them. -/
theorem length_lt_of_derives {l : Level} {n : Nat} {e : Expr} {ls rest : List Lexeme}
    (h : Derives l n (ls.map Lexeme.token) e) : rest.length < (ls ++ rest).length := by
  obtain ⟨t, us, htokens, -⟩ := h.exists_first
  obtain ⟨k, ks, rfl, -⟩ := List.map_eq_cons_iff.mp htokens
  rw [List.length_append, List.length_cons]
  omega

theorem argumentTokens_singleton (a : Phrase) : argumentTokens [a] = a.tokens := by
  simp [argumentTokens, List.intercalate]

theorem argumentTokens_cons_cons (a b : Phrase) (rest : List Phrase) :
    argumentTokens (a :: b :: rest) = a.tokens ++ .mark .comma :: argumentTokens (b :: rest) := by
  simp [argumentTokens, List.intercalate]

theorem exists_argumentTokens_cons (a : Phrase) (rest : List Phrase) :
    ∃ more, argumentTokens (a :: rest) = a.tokens ++ more := by
  cases rest with
  | nil => exact ⟨[], by rw [argumentTokens_singleton, List.append_nil]⟩
  | cons b rest => exact ⟨_, argumentTokens_cons_cons a b rest⟩

/-- **Arguments.** They are read up to the parenthesis that closes the call. -/
theorem arguments_sound (hinner : Sound bound room 0 (inner 0)) {b : Nat} {es : List Expr}
    (hb : s.ahead.length < b) (hbound : s.ahead.length ≤ bound)
    (h : outcome (arguments (inner 0) b) s = (.ok es, s')) :
    ∃ ls a as, s.ahead = ls ++ s'.ahead ∧ es = (a :: as).map Phrase.tree ∧
      ls.map Lexeme.token = argumentTokens (a :: as) ++ [.mark .closeParen] ∧
      ∀ p ∈ a :: as, p.nesting ≤ room ∧ Derives .or p.nesting p.tokens p.tree := by
  induction b generalizing s es with
  | zero => exact absurd hb (Nat.not_lt_zero _)
  | succ b ih =>
    rw [arguments] at h
    obtain ⟨e, t, hfirst, h⟩ := outcome_bind_eq_ok h
    obtain ⟨-, ls, n, hs, hn, hderives⟩ := hinner _ _ _ _ covers_zero hbound hfirst
    -- an argument has at least one lexeme, so the bound of the loop is not met
    have hshort : t.ahead.length < s.ahead.length := by
      rw [hs]
      exact length_lt_of_derives hderives
    obtain ⟨more, u, hcomma, hrest⟩ := outcome_bind_eq_ok h
    cases more with
    | false =>
      rw [if_neg Bool.false_ne_true] at hrest
      obtain ⟨p, v, hclose, hlast⟩ := outcome_bind_eq_ok hrest
      obtain ⟨rfl, -⟩ := eat_left hcomma
      cases hlast
      refine ⟨ls ++ [⟨.mark .closeParen, p⟩], ⟨n, ls.map Lexeme.token, e⟩, [], ?_, rfl, ?_, ?_⟩
      · rw [hs, expect_taken hclose, List.append_assoc]
        rfl
      · rw [argumentTokens_singleton, List.map_append]
        rfl
      · exact List.forall_mem_singleton.mpr ⟨hn, hderives⟩
    | true =>
      rw [if_pos rfl] at hrest
      obtain ⟨p, hcomma⟩ := eat_taken hcomma
      rw [hcomma, List.length_cons] at hshort
      obtain ⟨es', v, hothers, hlast⟩ := outcome_bind_eq_ok hrest
      cases hlast
      obtain ⟨ks, a, as, hu, rfl, htokens, hall⟩ := ih (by omega) (by omega) hothers
      refine ⟨ls ++ ⟨.mark .comma, p⟩ :: ks, ⟨n, ls.map Lexeme.token, e⟩, a :: as, ?_, rfl, ?_, ?_⟩
      · rw [hs, hcomma, hu, List.append_assoc]
        rfl
      · rw [argumentTokens_cons_cons, List.map_append, List.map_cons, htokens,
          List.append_assoc]
        rfl
      · exact List.forall_mem_cons.mpr ⟨⟨hn, hderives⟩, hall⟩

/-- The nesting of a call, whose arguments are one level further in. -/
theorem nesting_call_le_iff {arguments : List Phrase} :
    (arguments.map (·.nesting + 1)).foldr max 1 ≤ room + 1 ↔
      ∀ a ∈ arguments, a.nesting ≤ room := by
  induction arguments with
  | nil => simp
  | cons a rest ih => simp [ih]

/-- What a reader has taken is an operand, nested in at most one level more than `room`. -/
def TakesOperand (room : Nat) (ahead rest : List Lexeme) (e : Expr) : Prop :=
  ∃ ls n, ahead = ls ++ rest ∧ n ≤ room + 1 ∧ Derives .prefixed n (ls.map Lexeme.token) e

/-- An operand that is one token. -/
theorem TakesOperand.single {t : Token} {p : Span} {rest : List Lexeme} {e : Expr}
    (h : Derives .primary 1 [t] e) : TakesOperand room (⟨t, p⟩ :: rest) rest e :=
  ⟨[⟨t, p⟩], 1, rfl, Nat.le_add_left 1 room, .of_tighter h⟩

/-- A prefix operator and what is read behind it. -/
theorem TakesOperand.prefixed {m : Mark} {op : UnaryOp} {p : Span} {e : Expr}
    (hinner : Sound bound room prefixPower (inner prefixPower)) (hop : (m, op) ∈ prefixOperators)
    (hbound : s.ahead.length ≤ bound)
    (h : outcome (do return Expr.unary op (← inner prefixPower)) s = (.ok e, s')) :
    TakesOperand room (⟨.mark m, p⟩ :: s.ahead) s'.ahead e := by
  obtain ⟨e', u, hoperand, hlast⟩ := outcome_bind_eq_ok h
  cases hlast
  obtain ⟨-, ls, n, hs, hn, hderives⟩ := hinner _ _ _ _ covers_prefixed hbound hoperand
  exact ⟨⟨.mark m, p⟩ :: ls, n + 1, congrArg (_ :: ·) hs, Nat.succ_le_succ hn,
    .prefixed hop hderives⟩

/-- An opening parenthesis and what is read behind it. -/
theorem TakesOperand.parenthesis {p : Span} {e : Expr}
    (hinner : Sound bound room 0 (inner 0)) (hbound : s.ahead.length ≤ bound)
    (h : outcome (do
        let value ← inner 0
        let _ ← expect (.mark .closeParen)
        return value) s = (.ok e, s')) :
    TakesOperand room (⟨.mark .openParen, p⟩ :: s.ahead) s'.ahead e := by
  obtain ⟨e', u, hvalue, hrest⟩ := outcome_bind_eq_ok h
  obtain ⟨q, v, hclose, hlast⟩ := outcome_bind_eq_ok hrest
  cases hlast
  obtain ⟨-, ls, n, hs, hn, hderives⟩ := hinner _ _ _ _ covers_zero hbound hvalue
  refine ⟨⟨.mark .openParen, p⟩ :: (ls ++ [⟨.mark .closeParen, q⟩]), n + 1, ?_,
    Nat.succ_le_succ hn, .of_tighter ?_⟩
  · rw [hs, expect_taken hclose]
    simp
  · rw [List.map_cons, List.map_append]
    exact .parenthesis hderives

/-- A name and what is read behind it: a call, if that is a parenthesis. -/
theorem TakesOperand.name {word : String} {p : Span} {e : Expr}
    (hinner : Sound bound room 0 (inner 0)) (hbound : s.ahead.length ≤ bound)
    (h : outcome (do
        if ← eat (.mark .openParen) then
          let values ← if ← eat (.mark .closeParen) then pure [] else arguments (inner 0) bound
          return .call word values ⟨p.start, ← previous⟩
        else
          return .var word p) s = (.ok e, s')) :
    TakesOperand room (⟨.name word, p⟩ :: s.ahead) s'.ahead e := by
  obtain ⟨isCall, u, hopen, hrest⟩ := outcome_bind_eq_ok h
  cases isCall with
  | false =>
    obtain ⟨rfl, -⟩ := eat_left hopen
    cases hrest
    exact .single (.name word p)
  | true =>
    obtain ⟨q, hopen⟩ := eat_taken hopen
    rw [if_pos rfl] at hrest
    obtain ⟨isEmpty, v, hclose, hrest'⟩ := outcome_bind_eq_ok hrest
    cases isEmpty with
    | true =>
      -- without arguments the whole call is the three tokens
      obtain ⟨q', hclose⟩ := eat_taken hclose
      cases hrest'
      refine ⟨[⟨.name word, p⟩, ⟨.mark .openParen, q⟩, ⟨.mark .closeParen, q'⟩], 1, ?_,
        Nat.le_add_left 1 room, .of_tighter (.call word _ (List.forall_mem_nil _))⟩
      rw [hopen, hclose]
      rfl
    | false =>
      obtain ⟨rfl, -⟩ := eat_left hclose
      obtain ⟨es, w, hvalues, hlast⟩ := outcome_bind_eq_ok hrest'
      cases hlast
      rw [hopen, List.length_cons] at hbound
      obtain ⟨ls, a, as, hv, rfl, htokens, hall⟩ :=
        arguments_sound hinner (by omega) (by omega) hvalues
      refine ⟨⟨.name word, p⟩ :: ⟨.mark .openParen, q⟩ :: ls, _, ?_,
        nesting_call_le_iff.mpr fun b hb => (hall b hb).1, .of_tighter ?_⟩
      · rw [hopen, hv]
        rfl
      · change Derives _ _ (.name word :: .mark .openParen :: ls.map Lexeme.token) _
        rw [htokens]
        exact .call word _ fun b hb => (hall b hb).2

/-- **Operands.** -/
theorem operand_sound (hinner : ∀ least, Sound bound room least (inner least)) {e : Expr}
    (hbound : s.ahead.length ≤ bound) (h : outcome (operand bound inner) s = (.ok e, s')) :
    TakesOperand room s.ahead s'.ahead e := by
  unfold operand at h
  rw [outcome_bind_ok (outcome_here s), outcome_bind_ok (outcome_advance s)] at h
  obtain ⟨_ | ⟨⟨t, p⟩, rest⟩, prev, stop⟩ := s
  · cases h
  have hrest : rest.length ≤ bound := (Nat.le_succ _).trans hbound
  -- only some tokens begin an operand, and behind any other one nothing has been read
  cases t with
  | number x =>
    cases h
    exact .single (.number x)
  | text x =>
    cases h
    exact .single (.text x)
  | name word => exact .name (s := ⟨rest, p.stop, stop⟩) (hinner 0) hrest h
  | keyword k =>
    cases k with
    | true =>
      cases h
      exact .single .true
    | false =>
      cases h
      exact .single .false
    | _ => cases h
  | mark m =>
    cases m with
    | not => exact .prefixed (s := ⟨rest, p.stop, stop⟩) (hinner _) (by decide) hrest h
    | minus => exact .prefixed (s := ⟨rest, p.stop, stop⟩) (hinner _) (by decide) hrest h
    | openParen => exact .parenthesis (s := ⟨rest, p.stop, stop⟩) (hinner 0) hrest h
    | _ => cases h

/-- **Operators.** What has been read so far is the left operand of the next operator, since no
operator of a tighter level has been left behind it. -/
theorem operators_sound (hinner : ∀ least, Sound bound room least (inner least))
    {least start b n₀ : Nat} {l₀ : Level} {ls₀ : List Lexeme} {left e : Expr}
    (hb : s.ahead.length ≤ b) (hbound : s.ahead.length ≤ bound) (hn₀ : n₀ ≤ room + 1)
    (hleft : Derives l₀ n₀ (ls₀.map Lexeme.token) left) (hleast : least ≤ l₀.power)
    (hnext : ∀ op, nextOperator s.ahead = some op → op.power ≤ l₀.power)
    (h : outcome (operators inner least start b left) s = (.ok e, s')) :
    StopsBelow least s'.ahead ∧ ∃ ls n l, s.ahead = ls ++ s'.ahead ∧ n ≤ room + 1 ∧
      least ≤ l.power ∧ Derives l n ((ls₀ ++ ls).map Lexeme.token) e := by
  induction b generalizing s ls₀ n₀ l₀ left with
  | zero =>
    cases h
    -- the bound covers all that is ahead, so there is nothing
    have hnil : s'.ahead = [] := List.length_eq_zero_iff.mp (Nat.le_zero.mp hb)
    refine ⟨?_, [], n₀, l₀, rfl, hn₀, hleast, ?_⟩
    · rw [hnil]
      exact fun op hop => nomatch hop
    · rwa [List.append_nil]
  | succ b ih =>
    rw [operators, outcome_bind_ok (outcome_peek s)] at h
    split at h
    · next hnone =>
      cases h
      refine ⟨fun op hop => ?_, [], n₀, l₀, rfl, hn₀, hleast, ?_⟩
      · unfold nextOperator at hop
        rw [hnone] at hop
        cases hop
      · rwa [List.append_nil]
    · next op hop =>
      split at h
      · next hlow =>
        cases h
        -- the operator is not tight enough, so it is what the expression stops at
        refine ⟨fun op' hop' => ?_, [], n₀, l₀, rfl, hn₀, hleast, ?_⟩
        · cases hop.symm.trans hop'
          exact hlow
        · rwa [List.append_nil]
      · next hhigh =>
        rw [outcome_bind_ok (outcome_advance s)] at h
        obtain ⟨right, t, hright, hrest⟩ := outcome_bind_eq_ok h
        rw [outcome_bind_ok (outcome_previous t)] at hrest
        obtain ⟨m, q, rest, hs, hm⟩ := exists_of_nextOperator hop
        obtain ⟨l, hmem⟩ := Level.exists_mem_operators hm
        have hpower := (Level.binaryOp?_of_mem hmem).2
        have hadvance : s.advance.ahead = rest := by
          unfold Stream.advance
          rw [hs]
        rw [hs, List.length_cons] at hb hbound
        obtain ⟨hstops, ks, k, hks, hk, hderives⟩ :=
          hinner _ _ _ _ _ (covers_tighter hmem) (by rw [hadvance]; omega) hright
        rw [hadvance] at hks
        have hlength : t.ahead.length < rest.length := by
          rw [hks]
          exact length_lt_of_derives hderives
        -- the right operand has taken every operator that binds tighter than this one
        have hnext' : ∀ op', nextOperator t.ahead = some op' → op'.power ≤ l.power := by
          intro op' hop'
          have := hstops op' hop'
          omega
        have hoperation : Derives l (max n₀ (k + 1))
            ((ls₀ ++ ⟨.mark m, q⟩ :: ks).map Lexeme.token)
            (.binary op left right ⟨start, t.previous⟩) := by
          rw [List.map_append, List.map_cons]
          exact .operation _ hmem (hleft.of_power_le (hpower ▸ hnext op hop)) hderives
        obtain ⟨hstops', ls, n, l', hls, hn, hl', hderives'⟩ :=
          ih (by omega) (by omega) (max_le hn₀ (Nat.succ_le_succ hk)) hoperation (by omega) hnext'
            hrest
        refine ⟨hstops', ⟨.mark m, q⟩ :: (ks ++ ls), n, l', ?_, hn, hl', ?_⟩
        · rw [hs, hks, hls, List.cons_append, List.append_assoc]
        · rwa [List.append_assoc, List.cons_append] at hderives'

/-- **What the reader gives, the grammar has.** -/
theorem exprAt_sound (bound room least : Nat) :
    Sound bound room least (exprAt bound room least) := by
  induction room generalizing least with
  | zero =>
    intro l s s' e _ _ h
    cases h
  | succ room ih =>
    intro l s s' e hl hbound h
    rw [exprAt, outcome_bind_ok (outcome_here s)] at h
    obtain ⟨left, t, hoperand, hrest⟩ := outcome_bind_eq_ok h
    obtain ⟨ls₀, n₀, hs, hn₀, hleft⟩ := operand_sound ih hbound hoperand
    have hlength : t.ahead.length ≤ s.ahead.length := by
      rw [hs, List.length_append]
      omega
    have hnext : ∀ op, nextOperator t.ahead = some op → op.power ≤ Level.power .prefixed := by
      intro op _
      cases op <;> decide
    obtain ⟨hstops, ls, n, l', hls, hn, hleast, hderives⟩ :=
      operators_sound ih (by omega) (by omega) hn₀ hleft hl.1 hnext hrest
    refine ⟨hstops, ls₀ ++ ls, n, ?_, hn, hderives.of_power_le (hl.2 l' hleast)⟩
    rw [hs, hls, List.append_assoc]

/-! ### From the grammar to the reader -/

/-- What comes behind an expression that is read with operators of at least the power `least`:
nothing that would be taken with it. -/
structure Ends (least : Nat) (rest : List Lexeme) : Prop where
  noArguments : rest.head?.map Lexeme.token ≠ some (.mark .openParen)
  stops : StopsBelow least rest

theorem Ends.mono {least least' : Nat} {rest : List Lexeme} (h : Ends least rest)
    (hle : least ≤ least') : Ends least' rest :=
  ⟨h.noArguments, fun op hop => (h.stops op hop).trans_le hle⟩

/-- A mark that is neither an operator nor an opening parenthesis ends every expression. -/
theorem ends_mark {m : Mark} (hoperator : m.binaryOp? = none) (hparen : m ≠ .openParen)
    (least : Nat) (p : Span) (rest : List Lexeme) : Ends least (⟨.mark m, p⟩ :: rest) := by
  refine ⟨fun h => hparen ?_, fun op hop => ?_⟩
  · cases h
    rfl
  · cases hoperator.symm.trans hop

/-- The reader, in front of the tokens and something else, takes just these tokens for an operand
with this tree. -/
def ReadsOperand (n : Nat) (ts : List Token) (e : Expr) : Prop :=
  ∀ (bound room : Nat) (ls rest : List Lexeme) (prev stop : Nat), ls.map Lexeme.token = ts →
    (ls ++ rest).length ≤ bound → n ≤ room + 1 →
    rest.head?.map Lexeme.token ≠ some (.mark .openParen) →
    ∃ e' prev', e'.unplaced = e.unplaced ∧
      outcome (operand bound (exprAt bound room)) ⟨ls ++ rest, prev, stop⟩
        = (.ok e', ⟨rest, prev', stop⟩)

/-- The reader comes from the tokens to behind them, with this tree as what may become the left
operand of an operator that follows. -/
def Climbs (l : Level) (n : Nat) (ts : List Token) (e : Expr) : Prop :=
  ∀ (bound room least start : Nat) (ls rest : List Lexeme) (prev stop : Nat),
    ls.map Lexeme.token = ts → (ls ++ rest).length ≤ bound → n ≤ room + 1 → least ≤ l.power →
    Ends (l.power + 1) rest →
    ∃ e' b prev', e'.unplaced = e.unplaced ∧ rest.length ≤ b ∧
      outcome (operand bound (exprAt bound room) >>=
          operators (exprAt bound room) least start bound) ⟨ls ++ rest, prev, stop⟩
        = outcome (operators (exprAt bound room) least start b e') ⟨rest, prev', stop⟩

theorem ReadsOperand.climbs {n : Nat} {ts : List Token} {e : Expr} (h : ReadsOperand n ts e)
    (l : Level) : Climbs l n ts e := by
  intro bound room least start ls rest prev stop hts hbound hn _ hends
  obtain ⟨e', prev', he, houtcome⟩ := h bound room ls rest prev stop hts hbound hn hends.noArguments
  rw [List.length_append] at hbound
  exact ⟨e', bound, prev', he, by omega, outcome_bind_ok houtcome⟩

/-- **Reading to the end of an expression.** -/
theorem Climbs.reads {l : Level} {n : Nat} {ts : List Token} {e : Expr} (h : Climbs l n ts e)
    (hpos : 0 < n) {bound room least : Nat} {ls rest : List Lexeme} (prev stop : Nat)
    (hts : ls.map Lexeme.token = ts) (hbound : (ls ++ rest).length ≤ bound) (hn : n ≤ room)
    (hleast : least ≤ l.power) (hends : Ends least rest) :
    ∃ e' prev', e'.unplaced = e.unplaced ∧
      outcome (exprAt bound room least) ⟨ls ++ rest, prev, stop⟩
        = (.ok e', ⟨rest, prev', stop⟩) := by
  -- the whole of the expression is a level, so there is one to go in by
  obtain ⟨room, rfl⟩ := Nat.exists_eq_add_of_lt (hpos.trans_le hn)
  rw [Nat.zero_add] at hn ⊢
  obtain ⟨e', b, prev', he, -, houtcome⟩ := h bound room least
    (Stream.here ⟨ls ++ rest, prev, stop⟩).start ls rest prev stop hts hbound hn hleast
    (hends.mono (by omega))
  refine ⟨e', prev', he, ?_⟩
  rw [exprAt, outcome_bind_ok (outcome_here _)]
  exact houtcome.trans (outcome_operators_stop hends.stops)

/-- An operand that is one token. -/
theorem readsOperand_single {t : Token} {e : Expr}
    (h : ∀ (bound : Nat) (inner : Nat → Parser Expr) (p : Span) (rest : List Lexeme)
      (prev stop : Nat), rest.head?.map Lexeme.token ≠ some (.mark .openParen) →
      ∃ e', e'.unplaced = e.unplaced ∧ outcome (operand bound inner) ⟨⟨t, p⟩ :: rest, prev, stop⟩
        = (.ok e', ⟨rest, p.stop, stop⟩)) : ReadsOperand 1 [t] e := by
  intro bound room ls rest prev stop hts _ _ hnext
  obtain ⟨⟨_, p⟩, rfl, rfl⟩ := List.map_eq_singleton_iff.mp hts
  obtain ⟨e', he, houtcome⟩ := h bound (exprAt bound room) p rest prev stop hnext
  exact ⟨e', p.stop, he, houtcome⟩

/-- A name that no parenthesis follows. -/
theorem readsOperand_name (word : String) (place : Span) :
    ReadsOperand 1 [.name word] (.var word place) := by
  refine readsOperand_single fun bound inner p rest prev stop hnext => ⟨.var word p, rfl, ?_⟩
  unfold operand
  rw [outcome_bind_ok (outcome_here _), outcome_bind_ok (outcome_advance _)]
  have hleft : outcome (eat (.mark .openParen)) ⟨rest, p.stop, stop⟩
      = (.ok false, ⟨rest, p.stop, stop⟩) := by
    rw [outcome_eat, if_neg hnext]
  exact (outcome_bind_ok hleft).trans rfl

theorem readsOperand_prefixed {m : Mark} {op : UnaryOp} {n : Nat} {ts : List Token} {e : Expr}
    (hop : (m, op) ∈ prefixOperators) (h : Climbs .prefixed n ts e) (hpos : 0 < n) :
    ReadsOperand (n + 1) (.mark m :: ts) (.unary op e) := by
  intro bound room ls rest prev stop hts hbound hn hnext
  obtain ⟨⟨_, p⟩, ks, rfl, rfl, rfl⟩ := List.map_eq_cons_iff.mp hts
  have hends : Ends prefixPower rest := by
    refine ⟨hnext, fun op _ => ?_⟩
    cases op <;> decide
  obtain ⟨e', prev', he, houtcome⟩ := h.reads hpos p.stop stop rfl
    ((Nat.le_succ _).trans hbound) (Nat.le_of_succ_le_succ hn) (by decide) hends
  refine ⟨.unary op e', prev', congrArg (Expr.unary op) he, ?_⟩
  unfold operand
  rw [outcome_bind_ok (outcome_here _), outcome_bind_ok (outcome_advance _)]
  simp only [prefixOperators, List.mem_cons, Prod.mk.injEq, List.not_mem_nil, or_false] at hop
  obtain ⟨rfl, rfl⟩ | ⟨rfl, rfl⟩ := hop
  · exact (outcome_bind_ok houtcome).trans rfl
  · exact (outcome_bind_ok houtcome).trans rfl

theorem readsOperand_parenthesis {n : Nat} {ts : List Token} {e : Expr} (h : Climbs .or n ts e)
    (hpos : 0 < n) :
    ReadsOperand (n + 1) (.mark .openParen :: (ts ++ [.mark .closeParen])) e := by
  intro bound room ls rest prev stop hts hbound hn _
  obtain ⟨⟨_, p⟩, ls', rfl, rfl, hls'⟩ := List.map_eq_cons_iff.mp hts
  obtain ⟨ks, _, rfl, rfl, hclose⟩ := List.map_eq_append_iff.mp hls'
  obtain ⟨⟨_, q⟩, rfl, rfl⟩ := List.map_eq_singleton_iff.mp hclose
  rw [List.cons_append, List.append_assoc] at hbound ⊢
  obtain ⟨e', prev', he, houtcome⟩ := h.reads hpos p.stop stop rfl
    ((Nat.le_succ _).trans hbound) (Nat.le_of_succ_le_succ hn) (Nat.zero_le _)
    (ends_mark rfl (by decide) 0 q rest)
  refine ⟨e', q.stop, he, ?_⟩
  unfold operand
  rw [outcome_bind_ok (outcome_here _), outcome_bind_ok (outcome_advance _)]
  refine (outcome_bind_ok houtcome).trans ?_
  exact (outcome_bind_ok outcome_expect).trans rfl

/-- **Arguments** are read one after the other, each up to the comma or the parenthesis behind
it. -/
theorem arguments_read {bound room : Nat} {a : Phrase} {as : List Phrase} {ls rest : List Lexeme}
    {b : Nat} (prev stop : Nat)
    (h : ∀ p ∈ a :: as, Climbs .or p.nesting p.tokens p.tree ∧ 0 < p.nesting ∧ p.nesting ≤ room)
    (hts : ls.map Lexeme.token = argumentTokens (a :: as) ++ [.mark .closeParen])
    (hbound : (ls ++ rest).length ≤ bound) (hb : (ls ++ rest).length ≤ b) :
    ∃ es prev', es.map Expr.unplaced = ((a :: as).map fun p => p.tree.unplaced) ∧
      outcome (arguments (exprAt bound room 0) b) ⟨ls ++ rest, prev, stop⟩
        = (.ok es, ⟨rest, prev', stop⟩) := by
  induction as generalizing a ls b prev with
  | nil =>
    obtain ⟨hfirst, hpos, hn⟩ := h a List.mem_cons_self
    rw [argumentTokens_singleton] at hts
    obtain ⟨ks, _, rfl, hks, hclose⟩ := List.map_eq_append_iff.mp hts
    obtain ⟨⟨_, q⟩, rfl, rfl⟩ := List.map_eq_singleton_iff.mp hclose
    rw [List.append_assoc, List.singleton_append] at hbound hb ⊢
    obtain ⟨e', prev', he, houtcome⟩ := hfirst.reads hpos prev stop hks hbound hn (Nat.zero_le _)
      (ends_mark rfl (by decide) 0 q rest)
    refine ⟨[e'], q.stop, by simp [he], ?_⟩
    cases b with
    | zero => simp at hb
    | succ b =>
      rw [arguments, outcome_bind_ok houtcome, outcome_bind_ok (outcome_eat_other (by simp)),
        if_neg Bool.false_ne_true]
      exact (outcome_bind_ok outcome_expect).trans rfl
  | cons a' as ih =>
    obtain ⟨⟨hfirst, hpos, hn⟩, hothers⟩ := List.forall_mem_cons.mp h
    rw [argumentTokens_cons_cons, List.append_assoc, List.cons_append] at hts
    -- the lexemes split where the tokens do: an argument, its comma and the others
    obtain ⟨ks, _, rfl, hks, htail⟩ := List.map_eq_append_iff.mp hts
    obtain ⟨⟨_, q⟩, ls', rfl, rfl, hls'⟩ := List.map_eq_cons_iff.mp htail
    rw [List.append_assoc, List.cons_append] at hbound hb ⊢
    obtain ⟨e', prev', he, houtcome⟩ := hfirst.reads hpos prev stop hks hbound hn (Nat.zero_le _)
      (ends_mark rfl (by decide) 0 q (ls' ++ rest))
    -- the comma is one of the lexemes that `b` counts, which leaves a turn for each argument
    have hshort : (ls' ++ rest).length + 1 ≤
        (ks ++ ⟨.mark .comma, q⟩ :: (ls' ++ rest)).length := by
      simp only [List.length_append, List.length_cons]
      omega
    cases b with
    | zero => omega
    | succ b =>
      obtain ⟨es, prev'', hes, hrest⟩ := @ih _ _ b q.stop hothers hls' (by omega) (by omega)
      refine ⟨e' :: es, prev'', by rw [List.map_cons, List.map_cons, he, hes], ?_⟩
      rw [arguments, outcome_bind_ok houtcome, outcome_bind_ok outcome_eat_same, if_pos rfl]
      exact (outcome_bind_ok hrest).trans rfl

/-- A name and the arguments behind it. -/
theorem readsOperand_call (f : String) (place : Span) {arguments : List Phrase}
    (h : ∀ a ∈ arguments,
      Derives .or a.nesting a.tokens a.tree ∧ Climbs .or a.nesting a.tokens a.tree) :
    ReadsOperand ((arguments.map (·.nesting + 1)).foldr max 1)
      (.name f :: .mark .openParen :: (argumentTokens arguments ++ [.mark .closeParen]))
      (.call f (arguments.map Phrase.tree) place) := by
  intro bound room ls rest prev stop hts hbound hn _
  obtain ⟨⟨_, p⟩, ls₁, rfl, rfl, hls₁⟩ := List.map_eq_cons_iff.mp hts
  obtain ⟨⟨_, q⟩, ls₂, rfl, rfl, hls₂⟩ := List.map_eq_cons_iff.mp hls₁
  rw [List.cons_append, List.cons_append, List.length_cons, List.length_cons] at hbound
  cases arguments with
  | nil =>
    obtain ⟨⟨_, q'⟩, rfl, rfl⟩ := List.map_eq_singleton_iff.mp hls₂
    refine ⟨.call f [] ⟨p.start, q'.stop⟩, q'.stop, rfl, ?_⟩
    unfold operand
    rw [List.cons_append, outcome_bind_ok (outcome_here _), outcome_bind_ok (outcome_advance _)]
    exact (outcome_bind_ok outcome_eat_same).trans ((outcome_bind_ok outcome_eat_same).trans rfl)
  | cons a as =>
    have harguments : ∀ p ∈ a :: as, Climbs .or p.nesting p.tokens p.tree ∧ 0 < p.nesting ∧
        p.nesting ≤ room := fun p hp =>
      ⟨(h p hp).2, (h p hp).1.nesting_pos, nesting_call_le_iff.mp hn p hp⟩
    have hlength : (ls₂ ++ rest).length ≤ bound := by omega
    obtain ⟨es, prev', hes, hvalues⟩ :=
      arguments_read q.stop stop harguments hls₂ hlength hlength
    refine ⟨.call f es ⟨p.start, prev'⟩, prev', ?_, ?_⟩
    · simp only [Expr.unplaced, Expr.unplacedAll_eq, hes, List.map_map]
      rfl
    -- the first argument does not begin with the parenthesis that would close an empty call
    obtain ⟨r, ls₃, rfl, hr⟩ : ∃ r ls₃, ls₂ = r :: ls₃ ∧ r.token ≠ .mark .closeParen := by
      obtain ⟨t, us, htokens, hne⟩ := (h a List.mem_cons_self).1.exists_first
      obtain ⟨more, hmore⟩ := exists_argumentTokens_cons a as
      rw [hmore, htokens] at hls₂
      obtain ⟨r, ls₃, hls₃, rfl, -⟩ := List.map_eq_cons_iff.mp hls₂
      exact ⟨r, ls₃, hls₃, hne⟩
    unfold operand
    rw [List.cons_append, outcome_bind_ok (outcome_here _), outcome_bind_ok (outcome_advance _)]
    refine (outcome_bind_ok outcome_eat_same).trans ?_
    rw [if_pos rfl]
    refine (outcome_bind_ok (outcome_eat_other hr)).trans ?_
    exact (outcome_bind_ok hvalues).trans rfl

/-- **The operators of a level**: the left operand, and then the operator and its right one. -/
theorem climbs_operation {l : Level} {m : Mark} {op : BinaryOp} {n k : Nat} {ts us : List Token}
    {left right : Expr} (place : Span) (hop : (m, op) ∈ l.operators) (hpos : 0 < k)
    (hleft : Climbs l n ts left) (hright : Climbs l.tighter k us right) :
    Climbs l (max n (k + 1)) (ts ++ .mark m :: us) (.binary op left right place) := by
  intro bound room least start ls rest prev stop hts hbound hn hleast hends
  obtain ⟨hmark, hpower⟩ := Level.binaryOp?_of_mem hop
  obtain ⟨ks, _, rfl, hks, htail⟩ := List.map_eq_append_iff.mp hts
  obtain ⟨⟨_, q⟩, ms, rfl, rfl, hms⟩ := List.map_eq_cons_iff.mp htail
  rw [List.append_assoc, List.cons_append] at hbound ⊢
  obtain ⟨hn, hk⟩ := max_le_iff.mp hn
  -- the operator is of the level of the left operand, so it ends that one and not the whole
  have hoperator : Ends (l.power + 1) (⟨.mark m, q⟩ :: (ms ++ rest)) := by
    refine ⟨fun h => ?_, fun op' hop' => ?_⟩
    · cases h
      cases hmark
    · cases hmark.symm.trans hop'
      omega
  obtain ⟨left', b, prev', hleft', hb, houtcome⟩ :=
    hleft bound room least start ks _ prev stop hks hbound hn hleast hoperator
  have hle : l.power + 1 ≤ l.tighter.power := by
    revert hop
    cases l <;> simp [Level.operators, Level.power, Level.tighter]
  rw [List.length_cons] at hb
  rw [List.length_append, List.length_cons] at hbound
  obtain ⟨right', prev'', hright', hrest⟩ :=
    hright.reads hpos q.stop stop hms (show (ms ++ rest).length ≤ bound by omega)
      (show k ≤ room by omega) (show op.power + 1 ≤ l.tighter.power by omega) (hpower ▸ hends)
  -- behind the left operand there is the operator at least, so another turn is left
  obtain ⟨b, rfl⟩ : ∃ b', b = b' + 1 := ⟨b - 1, by omega⟩
  refine ⟨.binary op left' right' ⟨start, prev''⟩, b, prev'', ?_, ?_, ?_⟩
  · rw [Expr.unplaced, Expr.unplaced, hleft', hright']
  · rw [List.length_append] at hb
    omega
  · rw [houtcome, operators, outcome_bind_ok (outcome_peek _)]
    have hfound : ((List.head? (⟨.mark m, q⟩ :: (ms ++ rest))).map Lexeme.token).bind
        Token.binaryOp? = some op := hmark
    dsimp only
    rw [hfound]
    dsimp only
    rw [if_neg (by omega), outcome_bind_ok (outcome_advance _)]
    exact (outcome_bind_ok hrest).trans rfl

/-- **What the grammar has, the reader gives.** -/
theorem climbs_of_derives {l : Level} {n : Nat} {ts : List Token} {e : Expr}
    (h : Derives l n ts e) : Climbs l n ts e := by
  induction h with
  | number x =>
    exact (readsOperand_single fun _ _ _ _ _ _ _ => ⟨_, rfl, rfl⟩).climbs _
  | text s =>
    exact (readsOperand_single fun _ _ _ _ _ _ _ => ⟨_, rfl, rfl⟩).climbs _
  | true =>
    exact (readsOperand_single fun _ _ _ _ _ _ _ => ⟨_, rfl, rfl⟩).climbs _
  | false =>
    exact (readsOperand_single fun _ _ _ _ _ _ _ => ⟨_, rfl, rfl⟩).climbs _
  | name word place => exact (readsOperand_name word place).climbs _
  | call f place h ih => exact (readsOperand_call f place fun a ha => ⟨h a ha, ih a ha⟩).climbs _
  | parenthesis h ih => exact (readsOperand_parenthesis ih h.nesting_pos).climbs _
  | prefixed hop h ih => exact (readsOperand_prefixed hop ih h.nesting_pos).climbs _
  | operation place hop h h' ih ih' => exact climbs_operation place hop h'.nesting_pos ih ih'
  | @of_tighter l n ts e h ih =>
    intro bound room least start ls rest prev stop hts hbound hn hleast hends
    -- an operator that ends the tighter expression may still go on with this one
    have hle := l.power_le_tighter
    exact ih bound room least start ls rest prev stop hts hbound hn (hleast.trans hle)
      (hends.mono (Nat.succ_le_succ hle))

/-- **The reader of expressions is the grammar.** With `room` levels to go in, what it takes from
the lexemes is an expression with the tree that it gives, and of at most `room` levels. The other
way round, it takes every such expression that is followed by neither an operator between operands
nor an opening parenthesis, and nothing behind it, and gives its tree, with places of its own. -/
theorem exprAt_iff_derives (bound room : Nat) :
    (∀ (s s' : Stream) (e : Expr), s.ahead.length ≤ bound →
      outcome (exprAt bound room 0) s = (.ok e, s') →
      ∃ ls n, s.ahead = ls ++ s'.ahead ∧ n ≤ room ∧ Derives .or n (ls.map Lexeme.token) e) ∧
    ∀ (n : Nat) (ls rest : List Lexeme) (e : Expr) (prev stop : Nat),
      Derives .or n (ls.map Lexeme.token) e → n ≤ room → (ls ++ rest).length ≤ bound →
      NoOperator rest → rest.head?.map Lexeme.token ≠ some (.mark .openParen) →
      ∃ e' prev', e'.unplaced = e.unplaced ∧
        outcome (exprAt bound room 0) ⟨ls ++ rest, prev, stop⟩ = (.ok e', ⟨rest, prev', stop⟩) := by
  constructor
  · intro s s' e hbound h
    exact (exprAt_sound bound room 0 .or s s' e covers_zero hbound h).2
  · intro n ls rest e prev stop hderives hn hbound hoperator hparen
    exact (climbs_of_derives hderives).reads hderives.nesting_pos prev stop rfl hbound hn
      (Nat.zero_le _) ⟨hparen, hoperator.stopsBelow 0⟩

/-- The expression `-a + f(b, c) * (d)`, in front of a semicolon. -/
theorem exprAt_iff_derives_sum :
    let tokens : List Token :=
      [.mark .minus, .name "a", .mark .plus, .name "f", .mark .openParen, .name "b", .mark .comma,
        .name "c", .mark .closeParen, .mark .star, .mark .openParen, .name "d", .mark .closeParen]
    let lexemes : List Lexeme := tokens.map (⟨·, default⟩)
    let rest : List Lexeme := [⟨.mark .semicolon, default⟩]
    ∃ e prev, e.unplaced = .binary .add (.unary .negate (.var "a" default))
          (.binary .multiply (.call "f" [.var "b" default, .var "c" default] default)
            (.var "d" default) default) default ∧
        outcome (exprAt 14 nestingLimit 0) ⟨lexemes ++ rest, 0, 14⟩ = (.ok e, ⟨rest, prev, 14⟩) ∧
        ∃ ls n, lexemes ++ rest = ls ++ rest ∧ n ≤ nestingLimit ∧
          Derives .or n (ls.map Lexeme.token) e := by
  intro tokens lexemes rest
  have hname (l : Level) (word : String) : Derives l 1 [.name word] (.var word default) :=
    (Derives.name word default).of_power_le (by cases l <;> decide)
  have hstar : (Mark.star, BinaryOp.multiply) ∈ Level.product.operators := by decide
  have hplus : (Mark.plus, BinaryOp.add) ∈ Level.sum.operators := by decide
  have hminus : (Mark.minus, UnaryOp.negate) ∈ prefixOperators := by decide
  have hcall := @Derives.call "f" default
    [⟨1, [.name "b"], .var "b" default⟩, ⟨1, [.name "c"], .var "c" default⟩] (by simp [hname])
  have hproduct := (hcall.of_power_le (by decide)).operation default hstar
    ((Derives.parenthesis (hname .or "d")).of_power_le (by decide))
  have hsum := ((Derives.prefixed hminus (hname .prefixed "a")).of_power_le (by decide)).operation
    default hplus hproduct
  have hderives : Derives .or 4 (lexemes.map Lexeme.token) _ := hsum.of_power_le (by decide)
  obtain ⟨e, prev, he, h⟩ := (exprAt_iff_derives 14 nestingLimit).2 4 lexemes rest _ 0 14 hderives
    (by decide) (by decide) rfl (by decide)
  exact ⟨e, prev, he, h, (exprAt_iff_derives 14 nestingLimit).1 _ _ e (by decide) h⟩

end Blockwork.Script.Parser
