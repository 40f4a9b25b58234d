import Mathlib
import Blockwork.Proofs.Script.Counting
import Blockwork.Proofs.Script.Reading

/-!
# The counter and the room

The readers that are run get the room for nesting as an argument, and a bound for their loops. From
a stream of at most so many lexemes as the bound says, they do what the readers with a counter do,
if the room is what the counter leaves of the limit (`Tracks`). In particular the readers with a
counter end. The counter is afterwards what it was before, and the flag is raised by the faults of a
nesting that is too deep and by no others.

That the loops stay within their bounds is a matter of progress: each turn takes a lexeme. So
`Tracks` says also which readers take one whenever they give a value. Then a reader behind another
one has less ahead (`Tracks.bind_taking`), or at least not more (`Tracks.bind`).

## Main results

* `tracks_expr`, `tracks_block`, `tracks_statementAt`: expressions, blocks and statements.
-/

namespace Blockwork.Script.Counting

open Blockwork.Script.Parser (previous advance failHere eat expect expectName)

/-- Whether a result is the fault of a nesting that is too deep. -/
def refused {α : Type} : Except ParseFault α → Bool
  | .error fault => fault.cause = .tooDeep
  | .ok _ => false

/-- **A reader with a counter does what a reader with room does**, from this stream on this
level. -/
structure Tracks {α : Type} (taking : Bool) (level : Nat) (x : Reader α) (y : Parser α)
    (s : Stream) : Prop where
  /-- What is left is an end of what was ahead. -/
  left : (outcome y s).2.ahead <:+ s.ahead
  /-- With a value, at least one lexeme has been taken. -/
  taken : taking = true → ∀ a, (outcome y s).1 = .ok a →
    (outcome y s).2.ahead.length < s.ahead.length
  /-- The counter is on the same level again. -/
  ending_eq : ∀ raised, ending x ⟨s, level, raised⟩ = some ((outcome y s).1,
    ⟨(outcome y s).2, level, raised || refused (outcome y s).1⟩)

/-- From every stream of at most so many lexemes, with a lexeme taken. -/
def TracksUpTo {α : Type} (bound level : Nat) (x : Reader α) (y : Parser α) : Prop :=
  ∀ s, s.ahead.length ≤ bound → Tracks true level x y s

section

variable {α β : Type} {x : Reader α} {y : Parser α} {f : α → Reader β} {g : α → Parser β}
  {s t : Stream} {k : Nat} {limit : Limit} {b : Bool} {a : α}

theorem Tracks.of_taking (h : Tracks true k x y s) : Tracks b k x y s where
  left := h.left
  taken _ := h.taken rfl
  ending_eq := h.ending_eq

theorem tracks_pure : Tracks false k (pure a) (pure a) s where
  left := List.suffix_refl _
  taken h := by cases h
  ending_eq raised := by
    rw [outcome_pure, refused, Bool.or_false]
    rfl

theorem tracks_throw {fault : ParseFault} (h : fault.cause ≠ .tooDeep) :
    Tracks b k (throw fault : Reader α) (throw fault) s where
  left := List.suffix_refl _
  taken _ a h := by cases h
  ending_eq raised := by
    rw [outcome_throw, refused, decide_eq_false h, Bool.or_false]
    rfl

/-- What only takes lexemes from the stream opens no level. -/
theorem tracks_lift {result : Except ParseFault α} (hy : outcome y s = (result, t))
    (hleft : t.ahead <:+ s.ahead)
    (htaken : b = true → ∀ a, result = .ok a → t.ahead.length < s.ahead.length)
    (hcause : refused result = false) : Tracks b k (liftM y) y s := by
  constructor
  case left => rwa [hy]
  case taken => rwa [hy]
  case ending_eq =>
    intro raised
    rw [ending_lift, hy, hcause, Bool.or_false]

/-! ### One behind the other -/

/-- Two readers take a lexeme if one of them does. -/
theorem Tracks.seq {p q : Bool} (h : Tracks p k x y s)
    (hnext : ∀ a t, outcome y s = (.ok a, t) → Tracks q k (f a) (g a) t) :
    Tracks (p || q) k (x >>= f) (y >>= g) s := by
  obtain ⟨hleft, htaken, hending⟩ := h
  rcases hy : outcome y s with ⟨fault | a, t⟩
  · -- the second reader is not asked, on neither side
    rw [hy] at hleft hending
    have hbind : outcome (y >>= g) s = (.error fault, t) := outcome_bind_error hy
    constructor
    case left => rwa [hbind]
    case taken =>
      rw [hbind]
      intro _ a ha
      cases ha
    case ending_eq =>
      intro raised
      rw [hbind, ending_bind_error (hending raised)]
      rfl
  · -- a value raises no flag, so the second reader begins with the flag of the first
    rw [hy] at hleft htaken hending
    have hbind : outcome (y >>= g) s = outcome (g a) t := outcome_bind_ok hy
    have hrest := hnext a t hy
    constructor
    case left =>
      rw [hbind]
      exact hrest.left.trans hleft
    case taken =>
      rw [hbind]
      intro hb a' ha'
      obtain hfirst | hsecond := Bool.or_eq_true_iff.mp hb
      · exact lt_of_le_of_lt hrest.left.length_le (htaken hfirst a rfl)
      · exact lt_of_lt_of_le (hrest.taken hsecond a' ha') hleft.length_le
    case ending_eq =>
      intro raised
      rw [hbind, ending_bind_ok (hending raised), refused, Bool.or_false, hrest.ending_eq]

/-- If the first reader gives a value, only one second reader matters. -/
theorem Tracks.seq_ok {p q : Bool} (h : Tracks p k x y s) (hy : outcome y s = (.ok a, t))
    (hnext : Tracks q k (f a) (g a) t) : Tracks (p || q) k (x >>= f) (y >>= g) s := by
  refine h.seq fun a' t' hy' => ?_
  rw [hy] at hy'
  cases hy'
  exact hnext

/-- The second reader does not have more ahead than the first. -/
theorem Tracks.bind {p : Bool} (h : Tracks p k x y s) (hnext : ∀ a t,
    t.ahead.length ≤ s.ahead.length → Tracks b k (f a) (g a) t) :
    Tracks b k (x >>= f) (y >>= g) s := by
  have hseq : Tracks (p || b) k (x >>= f) (y >>= g) s := by
    refine h.seq fun a t hy => hnext a t ?_
    have hleft := h.left.length_le
    rwa [hy] at hleft
  cases p with
  | true => exact hseq.of_taking
  | false => exact hseq

/-- The second reader has less ahead, if the first one takes a lexeme. -/
theorem Tracks.bind_taking (h : Tracks true k x y s) (hnext : ∀ a t,
    t.ahead.length < s.ahead.length → Tracks false k (f a) (g a) t) :
    Tracks b k (x >>= f) (y >>= g) s := by
  refine (h.seq fun a t hy => hnext a t ?_).of_taking
  have htaken := h.taken rfl a
  rw [hy] at htaken
  exact htaken rfl

/-- Nothing is read behind a fault. -/
theorem tracks_throw_bind {fault : ParseFault} (h : fault.cause ≠ .tooDeep) :
    Tracks b k ((throw fault : Reader α) >>= f) (throw fault >>= g) s := by
  have hthrow : Tracks true k (throw fault : Reader α) (throw fault) s := tracks_throw h
  have hseq : Tracks (true || false) k ((throw fault : Reader α) >>= f) (throw fault >>= g) s :=
    hthrow.seq fun a t hok => by cases hok
  exact hseq.of_taking

/-! ### Single tokens -/

/-- What is only looked at is still ahead. -/
theorem Tracks.look (hy : outcome y s = (.ok a, s)) (h : Tracks b k (f a) (g a) s) :
    Tracks b k (liftM y >>= f) (y >>= g) s := by
  have hlift : Tracks false k (liftM y) y s :=
    tracks_lift hy (List.suffix_refl _) (fun hb => by cases hb) rfl
  have hseq : Tracks (false || b) k (liftM y >>= f) (y >>= g) s := hlift.seq_ok hy h
  exact hseq

theorem suffix_advance (s : Stream) : s.advance.ahead <:+ s.ahead := by
  obtain ⟨_ | ⟨l, ls⟩, prev, stop⟩ := s
  · exact List.suffix_refl _
  · exact List.suffix_cons l ls

theorem length_advance {l : Lexeme} (h : s.ahead.head? = some l) :
    s.advance.ahead.length < s.ahead.length := by
  obtain ⟨_ | ⟨m, ls⟩, prev, stop⟩ := s
  · cases h
  · exact Nat.lt_succ_self _

theorem tracks_take {l : Lexeme} (hy : outcome y s = (.ok a, s.advance))
    (hl : s.ahead.head? = some l) : Tracks b k (liftM y) y s :=
  tracks_lift hy (suffix_advance s) (fun _ _ _ => length_advance hl) rfl

/-- What takes the next lexeme. -/
theorem Tracks.take {l : Lexeme} (hy : outcome y s = (.ok a, s.advance))
    (hl : s.ahead.head? = some l)
    (h : s.advance.ahead.length < s.ahead.length → Tracks false k (f a) (g a) s.advance) :
    Tracks b k (liftM y >>= f) (y >>= g) s := by
  have htake : Tracks true k (liftM y) y s := tracks_take hy hl
  have hseq : Tracks (true || false) k (liftM y >>= f) (y >>= g) s :=
    htake.seq_ok hy (h (length_advance hl))
  exact hseq.of_taking

theorem tracks_advance : Tracks false k (liftM advance) advance s :=
  tracks_lift (Parser.outcome_advance s) (suffix_advance s) (fun hb => by cases hb) rfl

/-- The next lexeme, which may be missing. -/
theorem Tracks.advance {f : Option Lexeme → Reader β} {g : Option Lexeme → Parser β}
    (hnone : s.ahead = [] → Tracks b k (f none) (g none) s)
    (hsome : ∀ l, s.advance.ahead.length < s.ahead.length →
      Tracks false k (f (some l)) (g (some l)) s.advance) :
    Tracks b k (liftM advance >>= f) (advance >>= g) s := by
  have hadvance := Parser.outcome_advance s
  rcases hhead : s.ahead.head? with _ | l
  · have hnil := List.head?_eq_none_iff.mp hhead
    rw [hhead, Stream.advance, hnil] at hadvance
    exact Tracks.look hadvance (hnone hnil)
  · rw [hhead] at hadvance
    exact Tracks.take hadvance hhead (hsome l)

/-- A token that may be missing. -/
theorem Tracks.eat {token : Token} {x₁ x₂ : Reader β} {y₁ y₂ : Parser β}
    (htaken : s.advance.ahead.length < s.ahead.length → Tracks false k x₁ y₁ s.advance)
    (hleft : Tracks b k x₂ y₂ s) :
    Tracks b k (liftM (eat token) >>= fun found => if found = true then x₁ else x₂)
      (eat token >>= fun found => if found = true then y₁ else y₂) s := by
  have heat := Parser.outcome_eat token s
  split at heat
  · next htoken =>
    obtain ⟨l, hl, -⟩ := Option.map_eq_some_iff.mp htoken
    exact Tracks.take heat hl htaken
  · exact Tracks.look heat hleft

theorem tracks_fault {fault : ParseFault} (hy : outcome y s = (.error fault, t))
    (hleft : t.ahead <:+ s.ahead) (hcause : fault.cause ≠ .tooDeep) :
    Tracks b k (liftM y) y s :=
  tracks_lift hy hleft (fun _ a ha => by cases ha) (decide_eq_false hcause)

theorem tracks_failHere {cause : ParseCause} (h : cause ≠ .tooDeep) :
    Tracks b k (liftM (failHere cause : Parser α)) (failHere cause) s := by
  have hfail : outcome (failHere cause : Parser α) s = (.error ⟨cause, s.here⟩, s) := rfl
  exact tracks_fault hfail (List.suffix_refl _) h

theorem tracks_expect {token : Token} :
    Tracks true k (liftM (expect token)) (expect token) s := by
  have hpeek : outcome (expect token) s
      = outcome (if s.ahead.head?.map Lexeme.token = some token
          then (do let _ ← advance; return s.here)
          else failHere (.expected (.token token) (s.ahead.head?.map Lexeme.token))) s := by
    unfold expect
    rw [outcome_bind_ok (Parser.outcome_here s), outcome_bind_ok (Parser.outcome_peek s)]
  split at hpeek
  · next htoken =>
    rw [outcome_bind_ok (Parser.outcome_advance s)] at hpeek
    obtain ⟨l, hl, -⟩ := Option.map_eq_some_iff.mp htoken
    exact tracks_take hpeek hl
  · exact tracks_fault hpeek (List.suffix_refl _) ParseCause.noConfusion

theorem tracks_expectName : Tracks true k (liftM expectName) expectName s := by
  have hname : outcome expectName s = outcome (advance >>= _) s :=
    outcome_bind_ok (Parser.outcome_here s)
  rw [outcome_bind_ok (Parser.outcome_advance s)] at hname
  split at hname
  · next word span hl => exact tracks_take hname hl
  · exact tracks_fault hname (suffix_advance s) ParseCause.noConfusion

theorem tracks_previous (node : Nat → α) : Tracks false k
    (do return node (← (liftM previous : Reader Nat))) (do return node (← previous)) s :=
  Tracks.look (Parser.outcome_previous s) tracks_pure

/-- A node ends where the last of its parts does. -/
theorem Tracks.node (h : Tracks b k x y s) (node : α → Nat → β) : Tracks b k
    (do let a ← x; return node a (← (liftM previous : Reader Nat)))
    (do let a ← y; return node a (← previous)) s := by
  have hseq := h.seq fun a t _ => tracks_previous (k := k) (s := t) (node a)
  rwa [Bool.or_false] at hseq

/-! ### Levels -/

/-- At the limit nothing is read. -/
theorem tracks_nested_full (h : limit.levels ≤ k) :
    Tracks b k (limit.nested x) (failHere .tooDeep) s where
  left := List.suffix_refl _
  taken _ a ha := by cases ha
  ending_eq raised := by
    have hraised : (raised || refused (outcome (failHere .tooDeep : Parser α) s).1) = true :=
      Bool.or_true raised
    rw [ending_nested_full h, hraised]
    rfl

/-- A level further in, the counter is higher by one. -/
theorem tracks_nested (h : ¬ limit.levels ≤ k) (hx : Tracks b (k + 1) x y s) :
    Tracks b k (limit.nested x) y s where
  left := hx.left
  taken := hx.taken
  ending_eq raised := by
    have hnested : ending (limit.nested x) ⟨s, k, raised⟩ = some _ :=
      ending_nested h (hx.ending_eq raised)
    rwa [Nat.add_sub_cancel] at hnested

end

/-! ### Expressions -/

section

variable {limit : Limit} {bound k room : Nat} {inner : Nat → Parser Expr} {s : Stream}

theorem tracks_arguments (hinner : ∀ least, TracksUpTo bound k (limit.expr least) (inner least))
    {n : Nat} (hn : s.ahead.length < n) (hbound : s.ahead.length ≤ bound) :
    Tracks false k limit.arguments (Parser.arguments (inner 0) n) s := by
  -- on the bound of the loop, which stays above what is ahead
  induction n generalizing s with
  | zero => exact absurd hn (Nat.not_lt_zero _)
  | succ n ih =>
    rw [Limit.arguments, Parser.arguments]
    refine (hinner 0 s hbound).bind_taking fun first s₁ h₁ => ?_
    refine Tracks.eat (fun h₂ => ?_) ?_
    · exact (ih (by omega) (by omega)).bind fun others s₃ _ => tracks_pure
    · exact tracks_expect.bind fun _ s₃ _ => tracks_pure

theorem tracks_operators (hinner : ∀ least, TracksUpTo bound k (limit.expr least) (inner least))
    {n least start : Nat} {left : Expr} (hn : s.ahead.length < n)
    (hbound : s.ahead.length ≤ bound) :
    Tracks false k (limit.operators least start left)
      (Parser.operators inner least start n left) s := by
  induction n generalizing s left with
  | zero => exact absurd hn (Nat.not_lt_zero _)
  | succ n ih =>
    rw [Limit.operators, Parser.operators]
    refine Tracks.look (Parser.outcome_peek s) ?_
    rcases hop : (s.ahead.head?.map Lexeme.token).bind Token.binaryOp? with _ | op
    · exact tracks_pure
    dsimp only
    split
    · exact tracks_pure
    · -- there is an operator, so there is a lexeme to take
      obtain ⟨t, ht, -⟩ := Option.bind_eq_some_iff.mp hop
      obtain ⟨l, hl, -⟩ := Option.map_eq_some_iff.mp ht
      refine Tracks.take (Parser.outcome_advance s) hl fun h₁ => ?_
      refine (hinner _ s.advance (by omega)).bind fun right s₂ h₂ => ?_
      refine Tracks.look (Parser.outcome_previous s₂) ?_
      exact ih (by omega) (by omega)

theorem tracks_operand (hinner : ∀ least, TracksUpTo bound k (limit.expr least) (inner least))
    (hbound : s.ahead.length ≤ bound) :
    Tracks true k limit.operand (Parser.operand bound inner) s := by
  rw [Limit.operand, Parser.operand]
  refine Tracks.look (Parser.outcome_here s) ?_
  refine Tracks.advance (fun _ => ?_) fun l h₁ => ?_
  · exact tracks_failHere ParseCause.noConfusion
  have hunary (op : UnaryOp) : Tracks false k (do return Expr.unary op (← limit.expr prefixPower))
      (do return Expr.unary op (← inner prefixPower)) s.advance :=
    (hinner _ s.advance (by omega)).bind fun value s₂ _ => tracks_pure
  -- case by case of the token, not of the reader, whose last case stands for many tokens
  obtain ⟨token, span⟩ := l
  cases token with
  | number value => exact tracks_pure
  | text value => exact tracks_pure
  | name word =>
    refine Tracks.eat (fun h₂ => ?_) tracks_pure
    refine Tracks.eat (fun _ => ?_) ?_
    · exact tracks_pure.node fun values stop => Expr.call word values ⟨s.here.start, stop⟩
    · have hvalues : Tracks false k limit.arguments (Parser.arguments (inner 0) bound)
          s.advance.advance := tracks_arguments hinner (by omega) (by omega)
      exact hvalues.node fun values stop => Expr.call word values ⟨s.here.start, stop⟩
  | keyword word =>
    cases word with
    | true | false => exact tracks_pure
    | «let» | «if» | «else» | «while» | «for» | «break» =>
      exact tracks_throw ParseCause.noConfusion
  | mark m =>
    cases m with
    | not => exact hunary .not
    | minus => exact hunary .negate
    | openParen =>
      refine (hinner 0 s.advance (by omega)).bind fun value s₂ _ => ?_
      exact tracks_expect.bind fun _ s₃ _ => tracks_pure
    | _ => exact tracks_throw ParseCause.noConfusion

/-- **An expression.** -/
theorem tracks_expr (hroom : limit.levels - k = room) (least : Nat) :
    TracksUpTo bound k (limit.expr least) (Parser.exprAt bound room least) := by
  induction room generalizing k least with
  | zero =>
    -- no room is left, and the counter has reached the limit
    intro s _
    rw [Limit.expr]
    exact tracks_nested_full (by omega)
  | succ room ih =>
    intro s hbound
    rw [Limit.expr, Limit.exprInner, Parser.exprAt]
    have hinner (least : Nat) : TracksUpTo bound (k + 1) (limit.expr least)
        (Parser.exprAt bound room least) := ih (by omega) least
    refine tracks_nested (by omega) ?_
    refine Tracks.look (Parser.outcome_here s) ?_
    refine (tracks_operand hinner hbound).bind_taking fun left s₁ h₁ => ?_
    exact tracks_operators hinner (by omega) (by omega)

end

/-! ### Statements -/

section

variable {limit : Limit} {bound k : Nat} {e : Parser Expr} {blk : Parser (List Stmt)} {s : Stream}

theorem tracks_simple (hexpr : TracksUpTo bound k (limit.expr 0) e) :
    TracksUpTo bound k limit.simple (Parser.simple e) := by
  intro s hbound
  rw [Limit.simple, Parser.simple]
  refine Tracks.look (Parser.outcome_here s) ?_
  refine Tracks.eat (fun h₁ => ?_) ?_
  · refine tracks_expectName.bind fun name s₂ h₂ => ?_
    refine tracks_expect.bind fun _ s₃ h₃ => ?_
    refine (hexpr s₃ (by omega)).bind fun value s₄ _ => ?_
    exact Tracks.look (Parser.outcome_previous s₄) tracks_pure
  refine Tracks.look (Parser.outcome_peekTwo s) ?_
  have hvalue := (hexpr s hbound).node fun value stop => Simple.evaluate value ⟨s.here.start, stop⟩
  have hassign (name : String) (kind : AssignKind) {s₂ : Stream} (h₂ : s₂.ahead.length ≤ bound) :=
    ((hexpr s₂ h₂).of_taking : Tracks false k _ _ s₂).node fun value stop =>
      Simple.assign name kind value ⟨s.here.start, stop⟩
  rcases hfirst : s.ahead.head?.map Lexeme.token with _ | t
  · exact hvalue
  obtain ⟨l, hl, -⟩ := Option.map_eq_some_iff.mp hfirst
  -- only a name with one of three marks behind it begins no expression
  cases t with
  | name name =>
    rcases s.ahead[1]?.map Lexeme.token with _ | u
    · exact hvalue
    cases u with
    | mark m =>
      cases m with
      | plusPlus =>
        refine Tracks.take (Parser.outcome_advance s) hl fun h₁ => ?_
        refine tracks_advance.bind fun _ s₂ h₂ => ?_
        exact Tracks.look (Parser.outcome_previous s₂) tracks_pure
      | assign =>
        refine Tracks.take (Parser.outcome_advance s) hl fun h₁ => ?_
        exact tracks_advance.bind fun _ s₂ h₂ => hassign name .replace (by omega)
      | plusAssign =>
        refine Tracks.take (Parser.outcome_advance s) hl fun h₁ => ?_
        exact tracks_advance.bind fun _ s₂ h₂ => hassign name .add (by omega)
      | _ => exact hvalue
    | _ => exact hvalue
  | _ => exact hvalue

theorem tracks_condition (hexpr : TracksUpTo bound k (limit.expr 0) e) :
    TracksUpTo bound k limit.condition (Parser.condition e) := by
  intro s hbound
  rw [Limit.condition, Parser.condition]
  refine tracks_expect.bind_taking fun _ s₁ h₁ => ?_
  refine (hexpr s₁ (by omega)).bind fun value s₂ h₂ => ?_
  exact tracks_expect.bind fun _ s₃ _ => tracks_pure

theorem tracks_optional {α : Type} {token : Token} {x : Reader α} {y : Parser α}
    (h : Tracks true k x y s) :
    Tracks false k (optional token x) (Parser.optional token y) s := by
  rw [optional, Parser.optional]
  refine Tracks.look (Parser.outcome_peek s) ?_
  split
  · exact tracks_pure
  · exact h.bind fun a s₁ _ => tracks_pure

theorem tracks_update (hexpr : TracksUpTo bound k (limit.expr 0) e) :
    TracksUpTo bound k limit.update (Parser.update e) := by
  intro s hbound
  rw [Limit.update, Parser.update]
  refine (tracks_simple hexpr s hbound).bind_taking fun statement s₁ _ => ?_
  split
  · exact tracks_throw_bind ParseCause.noConfusion
  · exact tracks_pure

variable (hexpr : TracksUpTo bound k (limit.expr 0) e) (hblock : TracksUpTo bound k limit.block blk)

include hexpr hblock

theorem tracks_forLoop : TracksUpTo bound k limit.forLoop (Parser.forLoop blk e) := by
  intro s hbound
  rw [Limit.forLoop, Parser.forLoop]
  refine Tracks.look (Parser.outcome_here s) ?_
  refine tracks_expect.bind_taking fun _ s₁ h₁ => ?_
  refine tracks_expect.bind fun _ s₂ h₂ => ?_
  refine (tracks_optional (tracks_simple hexpr s₂ (by omega))).bind fun first s₃ h₃ => ?_
  refine tracks_expect.bind fun _ s₄ h₄ => ?_
  refine (tracks_optional (hexpr s₄ (by omega))).bind fun test s₅ h₅ => ?_
  refine tracks_expect.bind fun _ s₆ h₆ => ?_
  refine (tracks_optional (tracks_update hexpr s₆ (by omega))).bind fun step s₇ h₇ => ?_
  refine tracks_expect.bind fun _ s₈ h₈ => ?_
  refine (hblock s₈ (by omega)).bind fun body s₉ _ => ?_
  exact Tracks.look (Parser.outcome_previous s₉) tracks_pure

/-- A conditional. Without a lexeme ahead the readers would give different faults: the one with a
bound has used it up. -/
theorem tracks_conditional {n : Nat} (hn : s.ahead.length ≤ n) (hne : s.ahead ≠ [])
    (hbound : s.ahead.length ≤ bound) :
    Tracks true k limit.conditional (Parser.conditional blk e n) s := by
  induction n generalizing s with
  | zero => exact absurd (List.length_eq_zero_iff.mp (Nat.le_zero.mp hn)) hne
  | succ n ih =>
    rw [Limit.conditional, Parser.conditional]
    refine Tracks.look (Parser.outcome_here s) ?_
    refine tracks_expect.bind_taking fun _ s₁ h₁ => ?_
    refine (tracks_condition hexpr s₁ (by omega)).bind fun test s₂ h₂ => ?_
    refine (hblock s₂ (by omega)).bind fun body s₃ h₃ => ?_
    refine Tracks.eat (fun h₄ => ?_) ?_
    · refine Tracks.look (Parser.outcome_peek _) ?_
      split
      · next hif =>
        -- the next part begins with `if`, so there is something ahead again
        have hnext : s₃.advance.ahead ≠ [] := by
          intro hnil
          rw [hnil] at hif
          cases hif
        refine (ih (by omega) hnext (by omega)).bind fun chained s₅ _ => ?_
        exact tracks_pure.node fun otherwise stop =>
          Stmt.ifElse test body otherwise ⟨s.here.start, stop⟩
      · have hotherwise : Tracks false k limit.block blk s₃.advance :=
          (hblock s₃.advance (by omega)).of_taking
        exact hotherwise.node fun otherwise stop =>
          Stmt.ifElse test body otherwise ⟨s.here.start, stop⟩
    · exact Tracks.look (Parser.outcome_previous s₃) tracks_pure

theorem tracks_statement : TracksUpTo bound k limit.statement (Parser.statement bound blk e) := by
  intro s hbound
  rw [Limit.statement, Parser.statement]
  refine Tracks.look (Parser.outcome_here s) ?_
  refine Tracks.look (Parser.outcome_peek s) ?_
  -- every statement that no keyword or brace begins is a simple one with a semicolon
  have hsimple : Tracks true k
      (do let s ← limit.simple; let _ ← expect (.mark .semicolon); return Stmt.simple s)
      (do let s ← Parser.simple e; let _ ← expect (.mark .semicolon); return Stmt.simple s) s :=
    (tracks_simple hexpr s hbound).bind_taking fun _ s₁ _ =>
      tracks_expect.bind fun _ s₂ _ => tracks_pure
  rcases hfirst : s.ahead.head?.map Lexeme.token with _ | t
  · exact hsimple
  obtain ⟨l, hl, -⟩ := Option.map_eq_some_iff.mp hfirst
  cases t with
  | mark m =>
    cases m with
    | openBrace =>
      refine (hblock s hbound).bind_taking fun body s₁ _ => ?_
      exact Tracks.look (Parser.outcome_previous s₁) tracks_pure
    | _ => exact hsimple
  | keyword word =>
    cases word with
    | «if» =>
      refine tracks_conditional hexpr hblock hbound ?_ hbound
      intro hnil
      rw [hnil] at hl
      cases hl
    | «while» =>
      refine Tracks.take (Parser.outcome_advance s) hl fun h₁ => ?_
      refine (tracks_condition hexpr s.advance (by omega)).bind fun test s₂ h₂ => ?_
      refine (hblock s₂ (by omega)).bind fun body s₃ _ => ?_
      exact Tracks.look (Parser.outcome_previous s₃) tracks_pure
    | «for» => exact tracks_forLoop hexpr hblock s hbound
    | «break» =>
      refine Tracks.take (Parser.outcome_advance s) hl fun h₁ => ?_
      refine tracks_expect.bind fun _ s₂ _ => ?_
      exact Tracks.look (Parser.outcome_previous s₂) tracks_pure
    | _ => exact hsimple
  | _ => exact hsimple

end

/-! ### Blocks -/

section

variable {limit : Limit} {bound k room : Nat} {reader : Parser Stmt} {s : Stream}

theorem tracks_blockRest (hstatement : TracksUpTo bound k limit.statement reader) {opening : Span}
    {n : Nat} (hn : s.ahead.length < n) (hbound : s.ahead.length ≤ bound) :
    Tracks false k (limit.blockRest opening) (Parser.blockRest opening reader n) s := by
  induction n generalizing s with
  | zero => exact absurd hn (Nat.not_lt_zero _)
  | succ n ih =>
    rw [Limit.blockRest, Parser.blockRest]
    refine Tracks.eat (fun _ => tracks_pure) ?_
    refine Tracks.look (outcome_get s) ?_
    split
    · exact tracks_throw_bind ParseCause.noConfusion
    · refine (hstatement s hbound).bind_taking fun first s₁ h₁ => ?_
      exact (ih (by omega) (by omega)).bind fun others s₂ _ => tracks_pure

/-- **A block.** -/
theorem tracks_block (hroom : limit.levels - k = room) :
    TracksUpTo bound k limit.block (Parser.blockAt bound room) := by
  induction room generalizing k with
  | zero =>
    intro s _
    rw [Limit.block]
    exact tracks_nested_full (by omega)
  | succ room ih =>
    intro s hbound
    rw [Limit.block, Limit.blockInner, Parser.blockAt]
    have hroom' : limit.levels - (k + 1) = room := by omega
    refine tracks_nested (by omega) ?_
    refine tracks_expect.bind_taking fun opening s₁ h₁ => ?_
    have hstatement : TracksUpTo bound (k + 1) limit.statement
        (Parser.statement bound (Parser.blockAt bound room) (Parser.exprAt bound room 0)) :=
      tracks_statement (tracks_expr hroom' 0) (ih hroom')
    exact tracks_blockRest hstatement (by omega) (by omega)

/-- **A statement**, on any level. -/
theorem tracks_statementAt (hroom : limit.levels - k = room) :
    TracksUpTo bound k limit.statement
      (Parser.statement bound (Parser.blockAt bound room) (Parser.exprAt bound room 0)) :=
  tracks_statement (tracks_expr hroom 0) (tracks_block hroom)

end

end Blockwork.Script.Counting
