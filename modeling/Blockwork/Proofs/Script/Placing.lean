import Mathlib
import Blockwork.Proofs.Script.Cutting
import Blockwork.Proofs.Script.Reading
import Blockwork.Proofs.Script.Trees

/-!
# Where the nodes of a program lie

The places in a syntax tree lie in each other and behind each other as the nodes do: that of a node
within that of the node above it, and those of its parts in the order of the parts (`Stmt.Lies`).
Each of them starts where a lexeme starts and ends where a lexeme ends (`IsPlace`).

A reader starts a place at the next lexeme and ends it at the one that it took last. So each reader
is described by what lies between the two (`Reads`), from a stream whose lexemes are in order
(`Tidy`).

## Main result

* `Program.lies_of_parse`: the statements of a program lie within its source, in order.
-/

namespace Blockwork.Script

open Text (size IsBoundary)

/-! ### Trees in order -/

variable {P : Span → Prop} {low low' high high' : Nat}

/-- A place between two offsets. -/
def Span.Lies (P : Span → Prop) (low high : Nat) (span : Span) : Prop :=
  P span ∧ low ≤ span.start ∧ span.stop ≤ high

theorem Span.Lies.mono {span : Span} (h : span.Lies P low high) (hlow : low' ≤ low)
    (hhigh : high ≤ high') : span.Lies P low' high' :=
  ⟨h.1, hlow.trans h.2.1, h.2.2.trans hhigh⟩

mutual

/-- The places in the expression lie between two offsets, and in order. -/
def Expr.Lies (P : Span → Prop) (low high : Nat) : Expr → Prop
  | .number _ | .text _ | .bool _ => low ≤ high
  | .var _ span => span.Lies P low high
  | .call _ arguments span =>
    span.Lies P low high ∧ Expr.LiesAll P span.start span.stop arguments
  | .unary _ e => e.Lies P low high
  | .binary _ l r span =>
    span.Lies P low high ∧ ∃ mid, l.Lies P span.start mid ∧ r.Lies P mid span.stop

/-- The places in the expressions lie between two offsets, one expression behind the other. -/
def Expr.LiesAll (P : Span → Prop) (low high : Nat) : List Expr → Prop
  | [] => low ≤ high
  | e :: es => ∃ mid, e.Lies P low mid ∧ Expr.LiesAll P mid high es

end

/-- The places in the statement lie between two offsets. -/
def Simple.Lies (P : Span → Prop) (low high : Nat) : Simple → Prop
  | .declare _ e span | .assign _ _ e span | .evaluate e span =>
    span.Lies P low high ∧ e.Lies P span.start span.stop
  | .increment _ span => span.Lies P low high

/-- A part that may be missing, between two offsets. -/
def LiesOptional {α : Type} (lies : Nat → Nat → α → Prop) (low high : Nat) : Option α → Prop
  | none => low ≤ high
  | some a => lies low high a

mutual

/-- The places in the statement lie between two offsets, and in order. -/
def Stmt.Lies (P : Span → Prop) (low high : Nat) : Stmt → Prop
  | .simple s => s.Lies P low high
  | .ifThen c body span | .while c body span =>
    span.Lies P low high ∧ ∃ mid, c.Lies P span.start mid ∧ Stmt.LiesAll P mid span.stop body
  | .ifElse c body otherwise span =>
    span.Lies P low high ∧ ∃ mid mid', c.Lies P span.start mid ∧ Stmt.LiesAll P mid mid' body ∧
      Stmt.LiesAll P mid' span.stop otherwise
  | .for first c update body span =>
    span.Lies P low high ∧ ∃ mid mid' mid'', LiesOptional (Simple.Lies P) span.start mid first ∧
      LiesOptional (Expr.Lies P) mid mid' c ∧ LiesOptional (Simple.Lies P) mid' mid'' update ∧
      Stmt.LiesAll P mid'' span.stop body
  | .break span => span.Lies P low high
  | .block body span => span.Lies P low high ∧ Stmt.LiesAll P span.start span.stop body

/-- The places in the statements lie between two offsets, one statement behind the other. -/
def Stmt.LiesAll (P : Span → Prop) (low high : Nat) : List Stmt → Prop
  | [] => low ≤ high
  | s :: ss => ∃ mid, s.Lies P low mid ∧ Stmt.LiesAll P mid high ss

end

theorem Expr.Lies.mono {e : Expr} (h : e.Lies P low high) (hlow : low' ≤ low)
    (hhigh : high ≤ high') : e.Lies P low' high' := by
  induction e using Expr.induction with
  | number | text | bool => exact (hlow.trans h).trans hhigh
  | var name span => exact Span.Lies.mono h hlow hhigh
  | call f arguments span => exact ⟨h.1.mono hlow hhigh, h.2⟩
  | unary op e ih => exact ih h
  | binary op l r span => exact ⟨h.1.mono hlow hhigh, h.2⟩

theorem Expr.LiesAll.mono {es : List Expr} (h : Expr.LiesAll P low high es) (hlow : low' ≤ low)
    (hhigh : high ≤ high') : Expr.LiesAll P low' high' es := by
  induction es generalizing low low' with
  | nil => exact (hlow.trans h).trans hhigh
  | cons e es ih =>
    obtain ⟨mid, hfirst, hothers⟩ := h
    exact ⟨mid, hfirst.mono hlow le_rfl, ih hothers le_rfl⟩

theorem Simple.Lies.mono {s : Simple} (h : s.Lies P low high) (hlow : low' ≤ low)
    (hhigh : high ≤ high') : s.Lies P low' high' := by
  cases s with
  | increment name span => exact Span.Lies.mono h hlow hhigh
  | _ => exact ⟨h.1.mono hlow hhigh, h.2⟩

theorem Stmt.Lies.mono {s : Stmt} (h : s.Lies P low high) (hlow : low' ≤ low)
    (hhigh : high ≤ high') : s.Lies P low' high' := by
  cases s with
  | simple s => exact Simple.Lies.mono h hlow hhigh
  | «break» span => exact Span.Lies.mono h hlow hhigh
  | _ => exact ⟨h.1.mono hlow hhigh, h.2⟩

theorem Stmt.LiesAll.mono {ss : List Stmt} (h : Stmt.LiesAll P low high ss) (hlow : low' ≤ low)
    (hhigh : high ≤ high') : Stmt.LiesAll P low' high' ss := by
  induction ss generalizing low low' with
  | nil => exact (hlow.trans h).trans hhigh
  | cons s ss ih =>
    obtain ⟨mid, hfirst, hothers⟩ := h
    exact ⟨mid, hfirst.mono hlow le_rfl, ih hothers le_rfl⟩

theorem LiesOptional.mono {α : Type} {lies : Nat → Nat → α → Prop} {part : Option α}
    (h : LiesOptional lies low high part)
    (hlies : ∀ {a : α}, lies low high a → lies low' high' a) (hlow : low' ≤ low)
    (hhigh : high ≤ high') : LiesOptional lies low' high' part := by
  cases part with
  | none => exact (hlow.trans h).trans hhigh
  | some a => exact hlies h

/-! ### Streams in order -/

/-- The place starts where a lexeme starts, and ends where one ends behind it. -/
structure IsPlace (ls : List Lexeme) (span : Span) : Prop where
  lt : span.start < span.stop
  start_mem : ∃ l ∈ ls, l.span.start = span.start
  stop_mem : ∃ l ∈ ls, l.span.stop = span.stop

namespace Parser

variable {ls : List Lexeme} {s t u s' : Stream} {α : Type}

/-- The lexemes ahead are in order, behind the one that was taken last, and of the given ones. -/
structure Tidy (ls : List Lexeme) (s : Stream) : Prop where
  ordered : Ordered s.previous s.ahead s.stop
  subset : ∀ l ∈ s.ahead, l ∈ ls

/-- At least one lexeme has been taken between the two, and a place reaches from the first to the
last of them. -/
structure Took (ls : List Lexeme) (s s' : Stream) : Prop where
  tidy : Tidy ls s'
  place : IsPlace ls ⟨s.here.start, s'.previous⟩
  stop_eq : s'.stop = s.stop

/-- Some lexemes have been taken between the two, or none. -/
def Went (ls : List Lexeme) (s s' : Stream) : Prop :=
  s' = s ∨ Took ls s s'

theorem Tidy.previous_le (h : Tidy ls s) : s.previous ≤ s.here.start := by
  obtain ⟨hordered, -⟩ := h
  obtain ⟨_ | ⟨l, ks⟩, previous, stop⟩ := s
  · exact hordered
  · exact hordered.1

theorem Took.lt (h : Took ls s t) : s.here.start < t.previous :=
  h.place.lt

theorem Took.trans (h : Took ls s t) (h' : Took ls t u) : Took ls s u where
  tidy := h'.tidy
  place := {
    lt := h.lt.trans (h.tidy.previous_le.trans_lt h'.lt)
    start_mem := h.place.start_mem
    stop_mem := h'.place.stop_mem }
  stop_eq := h'.stop_eq.trans h.stop_eq

theorem Went.refl : Went ls s s :=
  .inl rfl

theorem Took.went (h : Took ls s t) : Went ls s t :=
  .inr h

theorem Took.trans_went (h : Took ls s t) (h' : Went ls t u) : Took ls s u := by
  rcases h' with rfl | h'
  · exact h
  · exact h.trans h'

theorem Went.trans_took (h : Went ls s t) (h' : Took ls t u) : Took ls s u := by
  rcases h with rfl | h
  · exact h'
  · exact h.trans h'

theorem Went.tidy (hs : Tidy ls s) (h : Went ls s t) : Tidy ls t := by
  rcases h with rfl | h
  · exact hs
  · exact h.tidy

theorem Went.previous_le (hs : Tidy ls s) (h : Went ls s t) : s.previous ≤ t.previous := by
  rcases h with rfl | h
  · exact le_rfl
  · exact hs.previous_le.trans h.lt.le

theorem Went.start_le (hs : Tidy ls s) (h : Went ls s t) : s.here.start ≤ t.here.start := by
  rcases h with rfl | h
  · exact le_rfl
  · exact h.lt.le.trans h.tidy.previous_le

/-- The next lexeme is taken. -/
theorem took_advance {l : Lexeme} (hs : Tidy ls s) (h : s.ahead.head? = some l) :
    Took ls s s.advance ∧ s.here = l.span ∧ s.advance.previous = l.span.stop := by
  obtain ⟨hordered, hsubset⟩ := hs
  obtain ⟨_ | ⟨k, ks⟩, previous, stop⟩ := s
  · cases h
  · cases h
    obtain ⟨hk, hks⟩ := List.forall_mem_cons.mp hsubset
    have hplace : IsPlace ls l.span := ⟨hordered.2.1, ⟨l, hk, rfl⟩, ⟨l, hk, rfl⟩⟩
    exact ⟨⟨⟨hordered.2.2, hks⟩, hplace, rfl⟩, rfl, rfl⟩

/-- The next lexeme is taken, when only its token is known. -/
theorem took_advance_token {token : Token} (hs : Tidy ls s)
    (h : s.ahead.head?.map Lexeme.token = some token) : Took ls s s.advance := by
  obtain ⟨l, hl, -⟩ := Option.map_eq_some_iff.mp h
  exact (took_advance hs hl).1

theorem took_of_eat {token : Token} (hs : Tidy ls s) (h : outcome (eat token) s = (.ok true, s')) :
    Took ls s s' := by
  rw [outcome_eat] at h
  split at h
  · next hhead =>
    cases h
    exact took_advance_token hs hhead
  · cases h

/-- **What a reader gives lies between the next lexeme and the one that it takes last.** -/
def Reads (ls : List Lexeme) (lies : Nat → Nat → α → Prop) (x : Parser α) : Prop :=
  ∀ s a s', Tidy ls s → outcome x s = (.ok a, s') →
    Took ls s s' ∧ lies s.here.start s'.previous a

theorem took_of_expect {token : Token} {span : Span} (hs : Tidy ls s)
    (h : outcome (expect token) s = (.ok span, s')) : Took ls s s' := by
  unfold expect at h
  rw [outcome_bind_ok (outcome_here s), outcome_bind_ok (outcome_peek s)] at h
  split at h
  · next hhead =>
    rw [outcome_bind_ok (outcome_advance s)] at h
    cases h
    exact took_advance_token hs hhead
  · cases h

theorem took_of_expectName {word : String} (hs : Tidy ls s)
    (h : outcome expectName s = (.ok word, s')) : Took ls s s' := by
  unfold expectName at h
  rw [outcome_bind_ok (outcome_here s), outcome_bind_ok (outcome_advance s)] at h
  split at h
  · next hhead =>
    cases h
    exact (took_advance hs hhead).1
  · cases h

/-! ### Expressions -/

/-- Arguments lie behind the parenthesis that was taken last. -/
theorem lies_of_arguments {argument : Parser Expr}
    (hargument : Reads ls (Expr.Lies (IsPlace ls)) argument) {bound : Nat} {es : List Expr}
    (hs : Tidy ls s) (h : outcome (arguments argument bound) s = (.ok es, s')) :
    Went ls s s' ∧ Expr.LiesAll (IsPlace ls) s.previous s'.previous es := by
  induction bound generalizing s es with
  | zero =>
    cases h
    exact ⟨.inl rfl, le_rfl⟩
  | succ bound ih =>
    rw [arguments] at h
    obtain ⟨first, s₁, hfirst, h⟩ := outcome_bind_eq_ok h
    obtain ⟨htook, hlies⟩ := hargument s first s₁ hs hfirst
    have hlies := hlies.mono hs.previous_le le_rfl
    obtain ⟨more, s₂, hmore, h⟩ := outcome_bind_eq_ok h
    -- with a comma the others follow; otherwise the bracket closes the list
    cases more with
    | true =>
      have htook₂ := took_of_eat htook.tidy hmore
      rw [if_pos rfl] at h
      obtain ⟨others, s₃, hothers, h⟩ := outcome_bind_eq_ok h
      cases h
      obtain ⟨hwent, hall⟩ := ih htook₂.tidy hothers
      refine ⟨.inr ((htook.trans htook₂).trans_went hwent), s₁.previous, hlies, ?_⟩
      exact hall.mono (htook.tidy.previous_le.trans htook₂.lt.le) le_rfl
    | false =>
      rw [if_neg Bool.false_ne_true, (eat_left hmore).1] at h
      obtain ⟨_, s₃, hclose, h⟩ := outcome_bind_eq_ok h
      cases h
      have htook₂ := took_of_expect htook.tidy hclose
      exact ⟨.inr (htook.trans htook₂), s₁.previous, hlies,
        htook.tidy.previous_le.trans htook₂.lt.le⟩

variable {inner : Nat → Parser Expr}

theorem reads_operand (hinner : ∀ least, Reads ls (Expr.Lies (IsPlace ls)) (inner least))
    (bound : Nat) : Reads ls (Expr.Lies (IsPlace ls)) (operand bound inner) := by
  intro s e s' hs h
  unfold operand at h
  rw [outcome_bind_ok (outcome_here s), outcome_bind_ok (outcome_advance s)] at h
  rcases hhead : s.ahead.head? with _ | ⟨t, p⟩
  · rw [hhead] at h
    cases h
  rw [hhead] at h
  obtain ⟨htook, hhere, hprevious⟩ := took_advance hs hhead
  -- what lies behind the first lexeme lies behind the start of the operand
  have hinside {e : Expr} {s₁ : Stream} (htook₁ : Took ls s.advance s₁)
      (he : e.Lies (IsPlace ls) s.advance.here.start s₁.previous) :
      e.Lies (IsPlace ls) s.here.start s₁.previous :=
    he.mono (htook.lt.le.trans htook.tidy.previous_le) le_rfl
  split at h
  · cases h
  · cases h
    exact ⟨htook, htook.lt.le⟩
  · cases h
    exact ⟨htook, htook.lt.le⟩
  · cases h
    exact ⟨htook, htook.lt.le⟩
  · cases h
    exact ⟨htook, htook.lt.le⟩
  · next word _ hlexeme =>
    cases hlexeme
    have hplace : IsPlace ls p := by
      have hplace := htook.place
      rwa [hhere, hprevious] at hplace
    obtain ⟨isCall, s₁, hcall, h⟩ := outcome_bind_eq_ok h
    cases isCall with
    | false =>
      rw [if_neg Bool.false_ne_true, (eat_left hcall).1] at h
      cases h
      refine ⟨htook, ?_⟩
      rw [hhere, hprevious]
      exact ⟨hplace, le_rfl, le_rfl⟩
    | true =>
      have htook₁ := htook.trans (took_of_eat htook.tidy hcall)
      -- the place of a call reaches from its name to the closing parenthesis
      have hvalue {es : List Expr} {s₂ : Stream} (hwent : Went ls s₁ s₂)
          (hes : Expr.LiesAll (IsPlace ls) s₁.previous s₂.previous es) : Took ls s s₂ ∧
            Expr.Lies (IsPlace ls) s.here.start s₂.previous
              (.call word es ⟨s.here.start, s₂.previous⟩) := by
        have htook₂ := htook₁.trans_went hwent
        exact ⟨htook₂, ⟨htook₂.place, le_rfl, le_rfl⟩, hes.mono htook₁.lt.le le_rfl⟩
      rw [if_pos rfl] at h
      obtain ⟨isEmpty, s₂, hempty, h⟩ := outcome_bind_eq_ok h
      cases isEmpty with
      | true =>
        have htook₂ := took_of_eat htook₁.tidy hempty
        cases h
        exact hvalue (.inr htook₂) (htook₁.tidy.previous_le.trans htook₂.lt.le)
      | false =>
        rw [if_neg Bool.false_ne_true, (eat_left hempty).1] at h
        obtain ⟨es, s₃, hes, h⟩ := outcome_bind_eq_ok h
        cases h
        obtain ⟨hwent, hlies⟩ := lies_of_arguments (hinner 0) htook₁.tidy hes
        exact hvalue hwent hlies
  · obtain ⟨e, s₁, he, h⟩ := outcome_bind_eq_ok h
    cases h
    obtain ⟨htook₁, hlies⟩ := hinner prefixPower _ _ _ htook.tidy he
    exact ⟨htook.trans htook₁, hinside htook₁ hlies⟩
  · obtain ⟨e, s₁, he, h⟩ := outcome_bind_eq_ok h
    cases h
    obtain ⟨htook₁, hlies⟩ := hinner prefixPower _ _ _ htook.tidy he
    exact ⟨htook.trans htook₁, hinside htook₁ hlies⟩
  · obtain ⟨e, s₁, he, h⟩ := outcome_bind_eq_ok h
    obtain ⟨_, s₂, hclose, h⟩ := outcome_bind_eq_ok h
    cases h
    obtain ⟨htook₁, hlies⟩ := hinner 0 _ _ _ htook.tidy he
    have htook₂ := took_of_expect htook₁.tidy hclose
    refine ⟨(htook.trans htook₁).trans htook₂, (hinside htook₁ hlies).mono le_rfl ?_⟩
    exact htook₁.tidy.previous_le.trans htook₂.lt.le
  · cases h

/-- The operators behind what has been read since `s₀`, where the left operand starts. -/
theorem lies_of_operators (hinner : ∀ least, Reads ls (Expr.Lies (IsPlace ls)) (inner least))
    {s₀ : Stream} {least bound : Nat} {left e : Expr} (htook : Took ls s₀ s)
    (hleft : left.Lies (IsPlace ls) s₀.here.start s.previous)
    (h : outcome (operators inner least s₀.here.start bound left) s = (.ok e, s')) :
    Took ls s₀ s' ∧ e.Lies (IsPlace ls) s₀.here.start s'.previous := by
  induction bound generalizing s left with
  | zero =>
    cases h
    exact ⟨htook, hleft⟩
  | succ bound ih =>
    rw [operators, outcome_bind_ok (outcome_peek s)] at h
    split at h
    · cases h
      exact ⟨htook, hleft⟩
    · next op hop =>
      split at h
      · cases h
        exact ⟨htook, hleft⟩
      · rw [outcome_bind_ok (outcome_advance s)] at h
        obtain ⟨token, htoken, -⟩ := Option.bind_eq_some_iff.mp hop
        have hoperator := took_advance_token htook.tidy htoken
        have htook₁ := htook.trans hoperator
        -- the right operand lies behind the operator
        have hbehind : s.previous ≤ s.advance.here.start :=
          htook.tidy.previous_le.trans (hoperator.went.start_le htook.tidy)
        obtain ⟨right, s₂, hright, h⟩ := outcome_bind_eq_ok h
        obtain ⟨htook₂, hlies⟩ := hinner _ _ _ _ htook₁.tidy hright
        rw [outcome_bind_ok (outcome_previous s₂)] at h
        refine ih (htook₁.trans htook₂) ?_ h
        exact ⟨⟨(htook₁.trans htook₂).place, le_rfl, le_rfl⟩, s.previous, hleft,
          hlies.mono hbehind le_rfl⟩

/-- **Expressions.** -/
theorem reads_exprAt (bound room least : Nat) :
    Reads ls (Expr.Lies (IsPlace ls)) (exprAt bound room least) := by
  induction room generalizing least with
  | zero =>
    intro s e s' _ h
    cases h
  | succ room ih =>
    intro s e s' hs h
    rw [exprAt, outcome_bind_ok (outcome_here s)] at h
    obtain ⟨left, s₁, hleft, h⟩ := outcome_bind_eq_ok h
    obtain ⟨htook, hlies⟩ := reads_operand ih bound s left s₁ hs hleft
    exact lies_of_operators ih htook hlies h

/-! ### Statements -/

variable {expr : Parser Expr} {block : Parser (List Stmt)}

/-- The next two lexemes are taken. -/
theorem took_advance_two {token : Token} (hs : Tidy ls s)
    (h : s.ahead[1]?.map Lexeme.token = some token) : Took ls s s.advance.advance := by
  obtain ⟨_ | ⟨k, _ | ⟨k', ks⟩⟩, previous, stop⟩ := s
  · cases h
  · cases h
  · have htook := (took_advance hs rfl).1
    exact htook.trans (took_advance htook.tidy rfl).1

theorem reads_simple (hexpr : Reads ls (Expr.Lies (IsPlace ls)) expr) :
    Reads ls (Simple.Lies (IsPlace ls)) (simple expr) := by
  intro s x s' hs h
  -- the place of the statement begins with it, and ends with its expression
  have hvalue {e : Expr} {s₁ s₂ : Stream} (hwent : Went ls s s₁)
      (he : outcome expr s₁ = (.ok e, s₂)) : Took ls s s₂ ∧
        Span.Lies (IsPlace ls) s.here.start s₂.previous ⟨s.here.start, s₂.previous⟩ ∧
        e.Lies (IsPlace ls) s.here.start s₂.previous := by
    obtain ⟨htook, hlies⟩ := hexpr s₁ e s₂ (hwent.tidy hs) he
    have htook := hwent.trans_took htook
    exact ⟨htook, ⟨htook.place, le_rfl, le_rfl⟩, hlies.mono (hwent.start_le hs) le_rfl⟩
  unfold simple at h
  rw [outcome_bind_ok (outcome_here s)] at h
  obtain ⟨isLet, s₁, heat, h⟩ := outcome_bind_eq_ok h
  cases isLet with
  | true =>
    have htook := took_of_eat hs heat
    rw [if_pos rfl] at h
    obtain ⟨name, s₂, hname, h⟩ := outcome_bind_eq_ok h
    have htook := htook.trans (took_of_expectName htook.tidy hname)
    obtain ⟨_, s₃, hassign, h⟩ := outcome_bind_eq_ok h
    have htook := htook.trans (took_of_expect htook.tidy hassign)
    obtain ⟨e, s₄, he, h⟩ := outcome_bind_eq_ok h
    cases h
    exact hvalue htook.went he
  | false =>
    rw [if_neg Bool.false_ne_true, (eat_left heat).1, outcome_bind_ok (outcome_peekTwo s)] at h
    split at h
    · next name hnext =>
      have htook := took_advance_two hs (Prod.mk.inj hnext).2
      rw [outcome_bind_ok (outcome_advance s), outcome_bind_ok (outcome_advance _)] at h
      cases h
      exact ⟨htook, htook.place, le_rfl, le_rfl⟩
    · next name hnext =>
      have htook := took_advance_two hs (Prod.mk.inj hnext).2
      rw [outcome_bind_ok (outcome_advance s), outcome_bind_ok (outcome_advance _)] at h
      obtain ⟨e, s₂, he, h⟩ := outcome_bind_eq_ok h
      cases h
      exact hvalue htook.went he
    · next name hnext =>
      have htook := took_advance_two hs (Prod.mk.inj hnext).2
      rw [outcome_bind_ok (outcome_advance s), outcome_bind_ok (outcome_advance _)] at h
      obtain ⟨e, s₂, he, h⟩ := outcome_bind_eq_ok h
      cases h
      exact hvalue htook.went he
    · obtain ⟨e, s₂, he, h⟩ := outcome_bind_eq_ok h
      cases h
      exact hvalue .refl he

theorem reads_condition (hexpr : Reads ls (Expr.Lies (IsPlace ls)) expr) :
    Reads ls (Expr.Lies (IsPlace ls)) (condition expr) := by
  intro s e s' hs h
  unfold condition at h
  obtain ⟨_, s₁, hopen, h⟩ := outcome_bind_eq_ok h
  obtain ⟨e, s₂, he, h⟩ := outcome_bind_eq_ok h
  obtain ⟨_, s₃, hclose, h⟩ := outcome_bind_eq_ok h
  cases h
  have htook₁ := took_of_expect hs hopen
  obtain ⟨htook₂, hlies⟩ := hexpr s₁ _ s₂ htook₁.tidy he
  have htook₃ := took_of_expect htook₂.tidy hclose
  exact ⟨(htook₁.trans htook₂).trans htook₃, hlies.mono (htook₁.went.start_le hs)
    (htook₂.tidy.previous_le.trans htook₃.lt.le)⟩

theorem reads_conditional (hblock : Reads ls (Stmt.LiesAll (IsPlace ls)) block)
    (hexpr : Reads ls (Expr.Lies (IsPlace ls)) expr) (bound : Nat) :
    Reads ls (Stmt.Lies (IsPlace ls)) (conditional block expr bound) := by
  induction bound with
  | zero =>
    intro s x s' _ h
    cases h
  | succ bound ih =>
    intro s x s' hs h
    rw [conditional, outcome_bind_ok (outcome_here s)] at h
    obtain ⟨_, s₁, hif, h⟩ := outcome_bind_eq_ok h
    obtain ⟨c, s₂, hc, h⟩ := outcome_bind_eq_ok h
    obtain ⟨body, s₃, hbody, h⟩ := outcome_bind_eq_ok h
    have htook₁ := took_of_expect hs hif
    obtain ⟨htook₂, hlies⟩ := reads_condition hexpr s₁ c s₂ htook₁.tidy hc
    obtain ⟨htook₃, hall⟩ := hblock s₂ body s₃ htook₂.tidy hbody
    have htook := (htook₁.trans htook₂).trans htook₃
    have hlies := hlies.mono (htook₁.went.start_le hs) le_rfl
    have hall := hall.mono htook₂.tidy.previous_le le_rfl
    obtain ⟨hasElse, s₄, helse, h⟩ := outcome_bind_eq_ok h
    cases hasElse with
    | false =>
      rw [if_neg Bool.false_ne_true, (eat_left helse).1] at h
      cases h
      exact ⟨htook, ⟨htook.place, le_rfl, le_rfl⟩, s₂.previous, hlies, hall⟩
    | true =>
      have htook₄ := took_of_eat htook.tidy helse
      -- both what follows on `else if` and what stands in braces lie behind the `else`
      have hotherwise {otherwise : List Stmt} {s₅ : Stream} (htook₅ : Took ls s₄ s₅)
          (h : Stmt.LiesAll (IsPlace ls) s₄.here.start s₅.previous otherwise) : Took ls s s₅ ∧
            Stmt.Lies (IsPlace ls) s.here.start s₅.previous
              (.ifElse c body otherwise ⟨s.here.start, s₅.previous⟩) := by
        have htook := htook.trans (htook₄.trans htook₅)
        have hbehind : s₃.previous ≤ s₄.here.start :=
          htook₃.tidy.previous_le.trans (htook₄.went.start_le htook₃.tidy)
        exact ⟨htook, ⟨htook.place, le_rfl, le_rfl⟩, s₂.previous, s₃.previous, hlies, hall,
          h.mono hbehind le_rfl⟩
      rw [if_pos rfl, outcome_bind_ok (outcome_peek s₄)] at h
      split at h
      · obtain ⟨next, s₅, hnext, h⟩ := outcome_bind_eq_ok h
        cases h
        obtain ⟨htook₅, hlies₅⟩ := ih s₄ next _ htook₄.tidy hnext
        exact hotherwise htook₅ ⟨_, hlies₅, le_rfl⟩
      · obtain ⟨otherwise, s₅, hnext, h⟩ := outcome_bind_eq_ok h
        cases h
        obtain ⟨htook₅, hall₅⟩ := hblock s₄ otherwise _ htook₄.tidy hnext
        exact hotherwise htook₅ hall₅

/-- A part of a header lies behind the lexeme that was taken last. -/
theorem lies_of_optional {lies : Nat → Nat → α → Prop} {part : Parser α} {ending : Token}
    {found : Option α} (hs : Tidy ls s) (hpart : Reads ls lies part)
    (hlies : ∀ {low low' high high' : Nat} {a : α}, lies low high a → low' ≤ low →
      high ≤ high' → lies low' high' a)
    (h : outcome (optional ending part) s = (.ok found, s')) :
    Went ls s s' ∧ LiesOptional lies s.previous s'.previous found := by
  unfold optional at h
  rw [outcome_bind_ok (outcome_peek s)] at h
  split at h
  · cases h
    exact ⟨.refl, le_rfl⟩
  · obtain ⟨a, s₁, ha, h⟩ := outcome_bind_eq_ok h
    cases h
    obtain ⟨htook, ha⟩ := hpart s a _ hs ha
    exact ⟨htook.went, hlies ha hs.previous_le le_rfl⟩

theorem reads_update (hexpr : Reads ls (Expr.Lies (IsPlace ls)) expr) :
    Reads ls (Simple.Lies (IsPlace ls)) (update expr) := by
  intro s x s' hs h
  unfold update at h
  obtain ⟨y, s₁, hy, h⟩ := outcome_bind_eq_ok h
  have hlies := reads_simple hexpr s y s₁ hs hy
  split at h
  · cases h
  · cases h
    exact hlies

theorem reads_forLoop (hblock : Reads ls (Stmt.LiesAll (IsPlace ls)) block)
    (hexpr : Reads ls (Expr.Lies (IsPlace ls)) expr) :
    Reads ls (Stmt.Lies (IsPlace ls)) (forLoop block expr) := by
  intro s x s' hs h
  unfold forLoop at h
  rw [outcome_bind_ok (outcome_here s)] at h
  obtain ⟨_, s₁, hfor, h⟩ := outcome_bind_eq_ok h
  obtain ⟨_, s₂, hopen, h⟩ := outcome_bind_eq_ok h
  obtain ⟨first, s₃, hfirst, h⟩ := outcome_bind_eq_ok h
  obtain ⟨_, s₄, hsemicolon, h⟩ := outcome_bind_eq_ok h
  obtain ⟨test, s₅, htest, h⟩ := outcome_bind_eq_ok h
  obtain ⟨_, s₆, hsemicolon', h⟩ := outcome_bind_eq_ok h
  obtain ⟨step, s₇, hstep, h⟩ := outcome_bind_eq_ok h
  obtain ⟨_, s₈, hclose, h⟩ := outcome_bind_eq_ok h
  obtain ⟨body, s₉, hbody, h⟩ := outcome_bind_eq_ok h
  cases h
  have htook₁ := took_of_expect hs hfor
  have htook₂ := htook₁.trans (took_of_expect htook₁.tidy hopen)
  obtain ⟨hwent₃, hliesFirst⟩ :=
    lies_of_optional htook₂.tidy (reads_simple hexpr) Simple.Lies.mono hfirst
  have htook₃ := htook₂.trans_went hwent₃
  have htook₄ := took_of_expect htook₃.tidy hsemicolon
  obtain ⟨hwent₅, hliesTest⟩ :=
    lies_of_optional htook₄.tidy hexpr Expr.Lies.mono htest
  have htook₅ := htook₄.trans_went hwent₅
  have htook₆ := took_of_expect htook₅.tidy hsemicolon'
  obtain ⟨hwent₇, hliesStep⟩ :=
    lies_of_optional htook₆.tidy (reads_update hexpr) Simple.Lies.mono hstep
  have htook₇ := htook₆.trans_went hwent₇
  have htook₈ := took_of_expect htook₇.tidy hclose
  obtain ⟨htook₉, hall⟩ := hblock s₈ body _ htook₈.tidy hbody
  have htook := (((htook₃.trans htook₅).trans htook₇).trans htook₈).trans htook₉
  -- each part lies behind the one before it
  refine ⟨htook, ⟨htook.place, le_rfl, le_rfl⟩, s₃.previous, s₅.previous, s₇.previous, ?_, ?_, ?_,
    ?_⟩
  · have hlow := htook₂.lt.le
    exact hliesFirst.mono (fun h => h.mono hlow le_rfl) hlow le_rfl
  · have hlow := htook₄.went.previous_le htook₃.tidy
    exact hliesTest.mono (fun h => h.mono hlow le_rfl) hlow le_rfl
  · have hlow := htook₆.went.previous_le htook₅.tidy
    exact hliesStep.mono (fun h => h.mono hlow le_rfl) hlow le_rfl
  · exact hall.mono (htook₇.tidy.previous_le.trans (htook₈.went.start_le htook₇.tidy)) le_rfl

theorem reads_statement (hblock : Reads ls (Stmt.LiesAll (IsPlace ls)) block)
    (hexpr : Reads ls (Expr.Lies (IsPlace ls)) expr) (bound : Nat) :
    Reads ls (Stmt.Lies (IsPlace ls)) (statement bound block expr) := by
  intro s x s' hs h
  unfold statement at h
  rw [outcome_bind_ok (outcome_here s), outcome_bind_ok (outcome_peek s)] at h
  split at h
  · obtain ⟨body, s₁, hbody, h⟩ := outcome_bind_eq_ok h
    cases h
    obtain ⟨htook, hall⟩ := hblock s body _ hs hbody
    exact ⟨htook, ⟨htook.place, le_rfl, le_rfl⟩, hall⟩
  · exact reads_conditional hblock hexpr bound s x s' hs h
  · next hnext =>
    rw [outcome_bind_ok (outcome_advance s)] at h
    obtain ⟨c, s₁, hc, h⟩ := outcome_bind_eq_ok h
    obtain ⟨body, s₂, hbody, h⟩ := outcome_bind_eq_ok h
    cases h
    have htook₁ := took_advance_token hs hnext
    obtain ⟨htook₂, hlies⟩ := reads_condition hexpr _ c s₁ htook₁.tidy hc
    obtain ⟨htook₃, hall⟩ := hblock s₁ body _ htook₂.tidy hbody
    have htook := (htook₁.trans htook₂).trans htook₃
    exact ⟨htook, ⟨htook.place, le_rfl, le_rfl⟩, s₁.previous,
      hlies.mono (htook₁.went.start_le hs) le_rfl, hall.mono htook₂.tidy.previous_le le_rfl⟩
  · exact reads_forLoop hblock hexpr s x s' hs h
  · next hnext =>
    rw [outcome_bind_ok (outcome_advance s)] at h
    obtain ⟨_, s₁, hsemicolon, h⟩ := outcome_bind_eq_ok h
    cases h
    have htook₁ := took_advance_token hs hnext
    have htook := htook₁.trans (took_of_expect htook₁.tidy hsemicolon)
    exact ⟨htook, htook.place, le_rfl, le_rfl⟩
  · obtain ⟨y, s₁, hy, h⟩ := outcome_bind_eq_ok h
    obtain ⟨_, s₂, hsemicolon, h⟩ := outcome_bind_eq_ok h
    cases h
    obtain ⟨htook, hlies⟩ := reads_simple hexpr s y s₁ hs hy
    have htook₂ := took_of_expect htook.tidy hsemicolon
    exact ⟨htook.trans htook₂, hlies.mono le_rfl (htook₂.went.previous_le htook.tidy)⟩

/-- The statements of a block lie behind its opening brace, which was taken last. -/
theorem lies_of_blockRest {opening : Span} {reader : Parser Stmt}
    (hreader : Reads ls (Stmt.Lies (IsPlace ls)) reader) {bound : Nat} {ss : List Stmt}
    (hs : Tidy ls s) (h : outcome (blockRest opening reader bound) s = (.ok ss, s')) :
    Took ls s s' ∧ Stmt.LiesAll (IsPlace ls) s.previous s'.previous ss := by
  induction bound generalizing s ss with
  | zero => cases h
  | succ bound ih =>
    rw [blockRest] at h
    obtain ⟨closes, s₁, hcloses, h⟩ := outcome_bind_eq_ok h
    cases closes with
    | true =>
      rw [if_pos rfl] at h
      cases h
      have htook := took_of_eat hs hcloses
      exact ⟨htook, htook.went.previous_le hs⟩
    | false =>
      rw [if_neg Bool.false_ne_true, (eat_left hcloses).1, outcome_bind_ok (outcome_get s)] at h
      split at h
      · cases h
      · obtain ⟨first, s₂, hfirst, h⟩ := outcome_bind_eq_ok h
        obtain ⟨others, s₃, hothers, h⟩ := outcome_bind_eq_ok h
        cases h
        obtain ⟨htook₂, hlies⟩ := hreader s first s₂ hs hfirst
        obtain ⟨htook₃, hall⟩ := ih htook₂.tidy hothers
        exact ⟨htook₂.trans htook₃, s₂.previous, hlies.mono hs.previous_le le_rfl, hall⟩

/-- **Blocks.** -/
theorem reads_blockAt (bound room : Nat) :
    Reads ls (Stmt.LiesAll (IsPlace ls)) (blockAt bound room) := by
  induction room with
  | zero =>
    intro s x s' _ h
    cases h
  | succ room ih =>
    intro s x s' hs h
    rw [blockAt] at h
    obtain ⟨opening, s₁, hopen, h⟩ := outcome_bind_eq_ok h
    have htook₁ := took_of_expect hs hopen
    obtain ⟨htook₂, hall⟩ :=
      lies_of_blockRest (reads_statement ih (reads_exprAt bound room 0) bound) htook₁.tidy h
    exact ⟨htook₁.trans htook₂, hall.mono htook₁.lt.le le_rfl⟩

/-- **The statements of a program.** -/
theorem lies_of_statements {reader : Parser Stmt}
    (hreader : Reads ls (Stmt.Lies (IsPlace ls)) reader) {bound : Nat} {ss : List Stmt}
    (hs : Tidy ls s) (h : statements reader bound s = (ss, [])) :
    Stmt.LiesAll (IsPlace ls) s.previous s.stop ss := by
  induction bound generalizing s ss with
  | zero =>
    cases h
    exact hs.ordered.le
  | succ bound ih =>
    rw [statements] at h
    split at h
    · cases h
      exact hs.ordered.le
    · split at h
      · next first rest hfirst =>
        rcases hothers : statements reader bound rest with ⟨others, faults⟩
        rw [hothers] at h
        cases h
        obtain ⟨htook, hlies⟩ := hreader s first rest hs hfirst
        -- what follows begins where the first statement has ended
        have hall := ih htook.tidy hothers
        rw [htook.stop_eq] at hall
        exact ⟨rest.previous, hlies.mono hs.previous_le le_rfl, hall⟩
      · -- a fault would be among the faults
        split at h <;> cases h

end Parser

/-! ### What lies inside -/

variable {ls : List Lexeme}

theorem Span.Lies.le {span : Span} (h : span.Lies (IsPlace ls) low high) : low ≤ high :=
  h.2.1.trans (h.1.lt.le.trans h.2.2)

theorem Expr.Lies.le {e : Expr} (h : e.Lies (IsPlace ls) low high) : low ≤ high := by
  induction e using Expr.induction with
  | number | text | bool => exact h
  | var name span => exact Span.Lies.le h
  | call f arguments span => exact h.1.le
  | unary op e ih => exact ih h
  | binary op l r span => exact h.1.le

theorem Expr.LiesAll.le {es : List Expr} (h : Expr.LiesAll (IsPlace ls) low high es) :
    low ≤ high := by
  induction es generalizing low with
  | nil => exact h
  | cons e es ih =>
    obtain ⟨mid, hfirst, hothers⟩ := h
    exact hfirst.le.trans (ih hothers)

theorem Expr.LiesAll.forall_mem {es : List Expr} (h : Expr.LiesAll (IsPlace ls) low high es) :
    ∀ e ∈ es, e.Lies (IsPlace ls) low high := by
  induction es generalizing low with
  | nil => exact List.forall_mem_nil _
  | cons e es ih =>
    obtain ⟨mid, hfirst, hothers⟩ := h
    refine List.forall_mem_cons.mpr ⟨hfirst.mono le_rfl hothers.le, fun e he => ?_⟩
    exact (ih hothers e he).mono hfirst.le le_rfl

theorem Simple.Lies.le {s : Simple} (h : s.Lies (IsPlace ls) low high) : low ≤ high := by
  cases s with
  | increment name span => exact Span.Lies.le h
  | _ => exact h.1.le

/-- A statement lies within its own place. -/
theorem Stmt.Lies.self {s : Stmt} (h : s.Lies P low high) :
    s.Lies P s.span.start s.span.stop ∧ s.span.Lies P low high := by
  have hself {span : Span} (h : span.Lies P low high) :
      span.Lies P span.start span.stop ∧ span.Lies P low high :=
    ⟨⟨h.1, le_rfl, le_rfl⟩, h⟩
  cases s with
  | simple s =>
    cases s with
    | increment name span => exact hself h
    | _ => exact ⟨⟨(hself h.1).1, h.2⟩, h.1⟩
  | «break» span => exact hself h
  | _ => exact ⟨⟨(hself h.1).1, h.2⟩, h.1⟩

theorem Stmt.Lies.le {s : Stmt} (h : s.Lies (IsPlace ls) low high) : low ≤ high :=
  h.self.2.le

theorem Stmt.LiesAll.le {ss : List Stmt} (h : Stmt.LiesAll (IsPlace ls) low high ss) :
    low ≤ high := by
  induction ss generalizing low with
  | nil => exact h
  | cons s ss ih =>
    obtain ⟨mid, hfirst, hothers⟩ := h
    exact hfirst.le.trans (ih hothers)

theorem Stmt.LiesAll.forall_mem {ss : List Stmt} (h : Stmt.LiesAll (IsPlace ls) low high ss) :
    ∀ s ∈ ss, s.Lies (IsPlace ls) low high := by
  induction ss generalizing low with
  | nil => exact List.forall_mem_nil _
  | cons s ss ih =>
    obtain ⟨mid, hfirst, hothers⟩ := h
    refine List.forall_mem_cons.mpr ⟨hfirst.mono le_rfl hothers.le, fun s hs => ?_⟩
    exact (ih hothers s hs).mono hfirst.le le_rfl

theorem LiesOptional.le {α : Type} {lies : Nat → Nat → α → Prop} {part : Option α}
    (hlies : ∀ {a : α}, lies low high a → low ≤ high) (h : LiesOptional lies low high part) :
    low ≤ high := by
  cases part with
  | none => exact h
  | some a => exact hlies h

/-! ### Programs -/

variable {text : String} {source : Nat} {p : Program}

theorem Program.source_of_parse (h : Program.parse text source = .ok p) : p.source = source := by
  unfold parse at h
  split at h
  · cases h
  · dsimp only [ofLexemes] at h
    split at h
    · cases h
      rfl
    · cases h

/-- **The statements of a program lie within its source**, one behind the other, with places that
begin and end with lexemes. -/
theorem Program.lies_of_parse (h : Program.parse text source = .ok p) :
    ∃ ls, scan text = .ok ls ∧
      Stmt.LiesAll (IsPlace ls) 0 text.utf8ByteSize p.statements := by
  unfold parse at h
  rcases hscan : scan text with fault | ls
  · rw [hscan] at h
    cases h
  · rw [hscan] at h
    dsimp only [ofLexemes] at h
    split at h
    · next ss hss =>
      cases h
      have hordered := (cut_of_scan hscan).ordered
      rw [Nat.zero_add, Text.size_toList] at hordered
      -- the stream begins with all lexemes, and the text ends behind them
      have htidy : Parser.Tidy ls ⟨ls, 0, text.utf8ByteSize⟩ := ⟨hordered, fun _ hl => hl⟩
      exact ⟨ls, rfl, Parser.lies_of_statements (Parser.reads_statement
        (Parser.reads_blockAt ls.length nestingLimit)
        (Parser.reads_exprAt ls.length nestingLimit 0) ls.length) htidy hss⟩
    · cases h

/-- A place of lexemes starts and ends between characters. -/
theorem IsPlace.boundaries {span : Span} (hscan : scan text = .ok ls)
    (h : IsPlace ls span) : IsBoundary text span.start ∧ IsBoundary text span.stop := by
  have hall := (cut_of_scan hscan).boundaries (List.nil_append _).symm Text.size_nil
  obtain ⟨l, hl, hstart⟩ := h.start_mem
  obtain ⟨k, hk, hstop⟩ := h.stop_mem
  exact ⟨hstart ▸ (hall l hl).1, hstop ▸ (hall k hk).2⟩

end Blockwork.Script
