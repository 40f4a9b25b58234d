import Mathlib
import Blockwork.Proofs.Script.Reading

/-!
# Recovery behind a faulty statement

A source text may show several faults: after each, reading goes on behind the next semicolon. Here
is shown which faults the statements of a text give together, if it is known which of them each
statement gives alone.

Two streams that begin with the same tokens up to a semicolon are read alike, whatever stands behind
it (`AlikeAt`): no reader of a simple statement looks further. A fault leaves the semicolon in the
stream, so that recovery begins behind it, with one exception: where a name or an expression is
missing right before the semicolon, the semicolon is taken for what is missing, and recovery goes on
to the *next* one. The statement between them is then skipped (`reported`).

## Main result

* `faults_of_parts`: the faults of a text of statements, from the faults of the statements; if no
  semicolon is taken so, they are the faults of the statements one behind the other.
-/

namespace Blockwork.Script

/-- The cause of a fault in which a semicolon has been taken for a name or an expression. -/
def ParseCause.takesSemicolon (cause : ParseCause) : Bool :=
  cause = .expected .name (some (.mark .semicolon)) ||
    cause = .expected .expression (some (.mark .semicolon))

/-- The tokens of a statement: none of them ends it or opens a block. -/
def Inside (ts : List Token) : Prop :=
  ∀ t ∈ ts, t ≠ .mark .semicolon ∧ t ≠ .mark .openBrace ∧ t ≠ .mark .closeBrace

theorem ParseCause.takesSemicolon_of_ne {what : Expected} {t : Token} (ht : t ≠ .mark .semicolon) :
    (ParseCause.expected what (some t)).takesSemicolon = false := by
  simp [takesSemicolon, ht]

instance (ts : List Token) : Decidable (Inside ts) :=
  inferInstanceAs (Decidable (∀ t ∈ ts, _))

theorem Inside.suffix {ts us : List Token} (h : Inside ts) (hus : us <:+ ts) : Inside us :=
  fun t ht => h t (hus.subset ht)

namespace Parser

/-- The stream stands before these tokens and a semicolon, with `rest` behind it. -/
structure Before (ts : List Token) (rest : List Lexeme) (s : Stream) : Prop where
  inside : Inside ts
  ahead : ∃ ls, s.ahead = ls ++ rest ∧ ls.map Lexeme.token = ts ++ [.mark .semicolon]

/-- How two readings end that began before the same tokens `ts` and a semicolon. -/
inductive Alike (ts : List Token) (rest rest' : List Lexeme) {α : Type} :
    Except ParseFault α × Stream → Except ParseFault α × Stream → Prop
  /-- Both give a value, and stand before the same tokens. -/
  | ok {a a' : α} {s s' : Stream} {us : List Token} : us <:+ ts → Before us rest s →
      Before us rest' s' → Alike ts rest rest' (.ok a, s) (.ok a', s')
  /-- Both are at fault, and the semicolon is still ahead. -/
  | stopped {f f' : ParseFault} {s s' : Stream} {us : List Token} : f.cause = f'.cause →
      f.cause.takesSemicolon = false → Before us rest s → Before us rest' s' →
      Alike ts rest rest' (.error f, s) (.error f', s')
  /-- Both are at fault, and have taken the semicolon. -/
  | behind {f f' : ParseFault} {s s' : Stream} : f.cause = f'.cause →
      f.cause.takesSemicolon = true → s.ahead = rest → s'.ahead = rest' →
      Alike ts rest rest' (.error f, s) (.error f', s')

/-- **Two readers do the same before these tokens and a semicolon**, whatever stands behind it. -/
def AlikeAt {α : Type} (ts : List Token) (x y : Parser α) : Prop :=
  ∀ s s' rest rest', Before ts rest s → Before ts rest' s' →
    Alike ts rest rest' (outcome x s) (outcome y s')

variable {α β : Type} {ts us : List Token} {t : Token} {rest rest' : List Lexeme} {s s' : Stream}

/-! ### Single tokens -/

/-- The next token. -/
def nextToken (ts : List Token) : Token :=
  ts.head?.getD (.mark .semicolon)

theorem Before.nil (h : Before [] rest s) : ∃ p, s.ahead = ⟨.mark .semicolon, p⟩ :: rest := by
  obtain ⟨ls, hahead, hls⟩ := h.ahead
  obtain ⟨p, ks, rfl, hks⟩ := exists_of_map_token hls
  obtain rfl := List.map_eq_nil_iff.mp hks
  exact ⟨p, hahead⟩

theorem Before.cons (h : Before (t :: ts) rest s) :
    ∃ p, s.ahead = ⟨t, p⟩ :: s.advance.ahead ∧ Before ts rest s.advance := by
  obtain ⟨ls, hahead, hls⟩ := h.ahead
  obtain ⟨p, ks, rfl, hks⟩ := exists_of_map_token hls
  have hadvance : s.advance.ahead = ks ++ rest := by
    unfold Stream.advance
    rw [hahead]
    rfl
  refine ⟨p, ?_, h.inside.suffix (List.suffix_cons t ts), ks, hadvance, hks⟩
  rw [hadvance, hahead]
  rfl

theorem Before.head (h : Before ts rest s) :
    s.ahead.head?.map Lexeme.token = some (nextToken ts) := by
  cases ts with
  | nil =>
    obtain ⟨p, hp⟩ := h.nil
    rw [hp]
    rfl
  | cons t ts =>
    obtain ⟨p, hp, -⟩ := h.cons
    rw [hp]
    rfl

theorem Before.ne_semicolon (h : Before (t :: ts) rest s) : t ≠ .mark .semicolon :=
  (h.inside t List.mem_cons_self).1

/-- Recovery goes on behind the semicolon. -/
theorem Before.recovered (h : Before ts rest s) : recovered s.ahead = rest := by
  induction ts generalizing s with
  | nil =>
    obtain ⟨p, hp⟩ := h.nil
    rw [hp]
    rfl
  | cons t ts ih =>
    obtain ⟨p, hp, hadvance⟩ := h.cons
    obtain ⟨hsemicolon, -, hbrace⟩ := h.inside t List.mem_cons_self
    have hends : endsStatement t = false := by
      rw [endsStatement, Bool.or_eq_false_iff, decide_eq_false_iff_not, decide_eq_false_iff_not]
      exact ⟨hsemicolon, hbrace⟩
    rw [hp, Parser.recovered, hends, if_neg Bool.false_ne_true]
    exact ih hadvance

/-! ### One reader behind the other -/

theorem Alike.mono {r r' : Except ParseFault α × Stream} (h : Alike us rest rest' r r')
    (hus : us <:+ ts) : Alike ts rest rest' r r' := by
  cases h with
  | ok hsuffix hs hs' => exact .ok (hsuffix.trans hus) hs hs'
  | stopped hcause htakes hs hs' => exact .stopped hcause htakes hs hs'
  | behind hcause htakes hs hs' => exact .behind hcause htakes hs hs'

theorem alikeAt_pure (a a' : α) : AlikeAt ts (pure a : Parser α) (pure a') :=
  fun _ _ _ _ hs hs' => .ok List.suffix_rfl hs hs'

theorem alikeAt_here : AlikeAt ts here here :=
  fun _ _ _ _ hs hs' => .ok List.suffix_rfl hs hs'

theorem alikeAt_previous : AlikeAt ts previous previous :=
  fun _ _ _ _ hs hs' => .ok List.suffix_rfl hs hs'

theorem alikeAt_failHere {cause : ParseCause} (h : cause.takesSemicolon = false) :
    AlikeAt ts (failHere cause : Parser α) (failHere cause) :=
  fun _ _ _ _ hs hs' => .stopped rfl h hs hs'

theorem alikeAt_throw {cause : ParseCause} (h : cause.takesSemicolon = false) (span span' : Span) :
    AlikeAt ts (throw ⟨cause, span⟩ : Parser α) (throw ⟨cause, span'⟩) :=
  fun _ _ _ _ hs hs' => .stopped rfl h hs hs'

theorem AlikeAt.bind {x x' : Parser α} {f f' : α → Parser β} (h : AlikeAt ts x x')
    (hf : ∀ a a' us, us <:+ ts → AlikeAt us (f a) (f' a')) : AlikeAt ts (x >>= f) (x' >>= f') := by
  intro s s' rest rest' hs hs'
  have hx := h s s' rest rest' hs hs'
  rw [outcome_bind, outcome_bind]
  generalize outcome x s = r at hx
  generalize outcome x' s' = r' at hx
  cases hx with
  | ok hsuffix ht ht' => exact (hf _ _ _ hsuffix _ _ _ _ ht ht').mono hsuffix
  | stopped hcause htakes ht ht' => exact .stopped hcause htakes ht ht'
  | behind hcause htakes ht ht' => exact .behind hcause htakes ht ht'

/-- A look at the next token. -/
theorem alikeAt_peek {f f' : Option Token → Parser α}
    (h : AlikeAt ts (f (some (nextToken ts))) (f' (some (nextToken ts)))) :
    AlikeAt ts (peek >>= f) (peek >>= f') := by
  intro s s' rest rest' hs hs'
  rw [outcome_bind_ok (outcome_peek s), outcome_bind_ok (outcome_peek s'), hs.head, hs'.head]
  exact h s s' rest rest' hs hs'

/-- The next token is not the semicolon and is taken. -/
theorem alikeAt_advance {f f' : Option Lexeme → Parser α}
    (h : t ≠ .mark .semicolon → ∀ p p', AlikeAt ts (f (some ⟨t, p⟩)) (f' (some ⟨t, p'⟩))) :
    AlikeAt (t :: ts) (advance >>= f) (advance >>= f') := by
  intro s s' rest rest' hs hs'
  obtain ⟨p, hp, hadvance⟩ := hs.cons
  obtain ⟨p', hp', hadvance'⟩ := hs'.cons
  rw [outcome_bind_ok (outcome_advance s), outcome_bind_ok (outcome_advance s'), hp, hp']
  exact (h hs.ne_semicolon p p' _ _ _ _ hadvance hadvance').mono (List.suffix_cons t ts)

/-- The semicolon is taken for something else. -/
theorem alikeAt_advance_semicolon {f f' : Option Lexeme → Parser α} (cause : ParseCause)
    (hcause : cause.takesSemicolon = true)
    (h : ∀ p, ∃ span, f (some ⟨.mark .semicolon, p⟩) = throw ⟨cause, span⟩)
    (h' : ∀ p, ∃ span, f' (some ⟨.mark .semicolon, p⟩) = throw ⟨cause, span⟩) :
    AlikeAt [] (advance >>= f) (advance >>= f') := by
  intro s s' rest rest' hs hs'
  obtain ⟨p, hp⟩ := hs.nil
  obtain ⟨p', hp'⟩ := hs'.nil
  obtain ⟨span, hspan⟩ := h p
  obtain ⟨span', hspan'⟩ := h' p'
  rw [outcome_bind_ok (outcome_advance s), outcome_bind_ok (outcome_advance s'), hp, hp',
    List.head?_cons, List.head?_cons, hspan, hspan']
  refine .behind rfl hcause ?_ ?_
  · rw [Stream.advance, hp]
  · rw [Stream.advance, hp']

/-- A look at the next two tokens. Before the semicolon the second one can be any. -/
theorem alikeAt_peekTwo {f f' : Option Token × Option Token → Parser α}
    (hcons : ∀ t us, ts = t :: us →
      AlikeAt ts (f (some t, some (nextToken us))) (f' (some t, some (nextToken us))))
    (hnil : ts = [] → ∀ u u',
      AlikeAt ts (f (some (.mark .semicolon), u)) (f' (some (.mark .semicolon), u'))) :
    AlikeAt ts (peekTwo >>= f) (peekTwo >>= f') := by
  intro s s' rest rest' hs hs'
  rw [outcome_bind_ok (outcome_peekTwo s), outcome_bind_ok (outcome_peekTwo s'), hs.head, hs'.head]
  cases ts with
  | nil => exact hnil rfl _ _ s s' rest rest' hs hs'
  | cons t us =>
    have hsecond {s : Stream} {rest : List Lexeme} (hs : Before (t :: us) rest s) :
        s.ahead[1]?.map Lexeme.token = some (nextToken us) := by
      obtain ⟨p, hp, hadvance⟩ := hs.cons
      rw [hp, List.getElem?_cons_succ, ← List.head?_eq_getElem?]
      exact hadvance.head
    rw [hsecond hs, hsecond hs']
    exact hcons t us rfl s s' rest rest' hs hs'

/-- A token that is not the semicolon is taken if it is next. -/
theorem alikeAt_eat (ht : t ≠ .mark .semicolon) {f f' : Bool → Parser α}
    (htaken : ∀ us, ts = t :: us → AlikeAt us (f true) (f' true))
    (hleft : AlikeAt ts (f false) (f' false)) : AlikeAt ts (eat t >>= f) (eat t >>= f') := by
  intro s s' rest rest' hs hs'
  -- both streams have the same token next, so it is taken from both or from neither
  by_cases hnext : nextToken ts = t
  · cases ts with
    | nil => exact absurd hnext.symm ht
    | cons u us =>
      obtain rfl : u = t := hnext
      obtain ⟨p, -, hadvance⟩ := hs.cons
      obtain ⟨p', -, hadvance'⟩ := hs'.cons
      have heat : outcome (eat u) s = (.ok true, s.advance) := by
        rw [outcome_eat, hs.head]
        exact if_pos rfl
      have heat' : outcome (eat u) s' = (.ok true, s'.advance) := by
        rw [outcome_eat, hs'.head]
        exact if_pos rfl
      rw [outcome_bind_ok heat, outcome_bind_ok heat']
      exact (htaken us rfl _ _ _ _ hadvance hadvance').mono (List.suffix_cons u us)
  · have heat {s : Stream} {rest : List Lexeme} (hs : Before ts rest s) :
        outcome (eat t) s = (.ok false, s) := by
      rw [outcome_eat, hs.head, if_neg]
      intro h
      exact hnext (Option.some.inj h)
    rw [outcome_bind_ok (heat hs), outcome_bind_ok (heat hs')]
    exact hleft s s' rest rest' hs hs'

theorem alikeAt_expect (ht : t ≠ .mark .semicolon) : AlikeAt ts (expect t) (expect t) := by
  unfold expect
  refine alikeAt_here.bind fun span span' us _ => alikeAt_peek ?_
  by_cases hnext : some (nextToken us) = some t
  · rw [if_pos hnext, if_pos hnext]
    cases us with
    | nil => exact absurd (Option.some.inj hnext).symm ht
    | cons u us =>
      obtain rfl : u = t := Option.some.inj hnext
      exact alikeAt_advance fun _ _ _ => alikeAt_pure span span'
  · rw [if_neg hnext, if_neg hnext]
    exact alikeAt_failHere (by simp [ParseCause.takesSemicolon])

/-- Where a name is missing before the semicolon, the semicolon is taken. -/
theorem alikeAt_expectName : AlikeAt ts expectName expectName := by
  unfold expectName
  refine alikeAt_here.bind fun span span' us _ => ?_
  cases us with
  | nil =>
    exact alikeAt_advance_semicolon (.expected .name (some (.mark .semicolon))) rfl
      (fun _ => ⟨_, rfl⟩) (fun _ => ⟨_, rfl⟩)
  | cons t us =>
    refine alikeAt_advance fun ht p p' => ?_
    cases t with
    | name word => exact alikeAt_pure word word
    | _ => exact alikeAt_throw (ParseCause.takesSemicolon_of_ne ht) span span'

/-! ### Expressions -/

variable {n bound bound' : Nat} {inner inner' : Nat → Parser Expr}

/-- The arguments of a call. Neither bound is reached, since each argument takes a token. -/
theorem alikeAt_arguments {argument argument' : Parser Expr}
    (hargument : ∀ us : List Token, us.length < n → AlikeAt us argument argument')
    (hn : ts.length < n) (hbound : ts.length < bound) (hbound' : ts.length < bound') :
    AlikeAt ts (arguments argument bound) (arguments argument' bound') := by
  induction bound generalizing ts bound' with
  | zero => exact absurd hbound (Nat.not_lt_zero _)
  | succ bound ih =>
    obtain _ | bound' := bound'
    · exact absurd hbound' (Nat.not_lt_zero _)
    unfold arguments
    refine (hargument ts hn).bind fun first first' us hus => ?_
    have hlength := hus.length_le
    refine alikeAt_eat (by simp) ?_ ?_
    · rintro vs rfl
      rw [List.length_cons] at hlength
      rw [if_pos rfl, if_pos rfl]
      exact (ih (by omega) (by omega) (by omega)).bind fun _ _ _ _ => alikeAt_pure _ _
    · rw [if_neg Bool.false_ne_true, if_neg Bool.false_ne_true]
      exact (alikeAt_expect (by simp)).bind fun _ _ _ _ => alikeAt_pure _ _

theorem alikeAt_operand
    (hinner : ∀ (us : List Token) (least : Nat), us.length < n →
      AlikeAt us (inner least) (inner' least))
    (hn : ts.length < n) (hbound : n ≤ bound) (hbound' : n ≤ bound') :
    AlikeAt ts (operand bound inner) (operand bound' inner') := by
  unfold operand
  refine alikeAt_here.bind fun span span' us hus => ?_
  have hlength := hus.length_le
  cases us with
  | nil =>
    exact alikeAt_advance_semicolon (.expected .expression (some (.mark .semicolon))) rfl
      (fun _ => ⟨_, rfl⟩) (fun _ => ⟨_, rfl⟩)
  | cons t us =>
    rw [List.length_cons] at hlength
    refine alikeAt_advance fun ht p p' => ?_
    -- any token is taken, but only the semicolon makes a difference to recovery
    cases t with
    | number x => exact alikeAt_pure _ _
    | text s => exact alikeAt_pure _ _
    | name word =>
      refine alikeAt_eat (by simp) ?_ ?_
      · rintro vs rfl
        rw [List.length_cons] at hlength
        rw [if_pos rfl, if_pos rfl]
        refine alikeAt_eat (by simp) ?_ ?_
        · rintro ws rfl
          rw [if_pos rfl, if_pos rfl]
          refine (alikeAt_pure [] []).bind fun _ _ _ _ => ?_
          exact alikeAt_previous.bind fun _ _ _ _ => alikeAt_pure _ _
        · rw [if_neg Bool.false_ne_true, if_neg Bool.false_ne_true]
          refine (alikeAt_arguments (fun ws hws => hinner ws 0 hws) (by omega) (by omega)
            (by omega)).bind fun _ _ _ _ => ?_
          exact alikeAt_previous.bind fun _ _ _ _ => alikeAt_pure _ _
      · rw [if_neg Bool.false_ne_true, if_neg Bool.false_ne_true]
        exact alikeAt_pure _ _
    | keyword k =>
      cases k with
      | «true» => exact alikeAt_pure _ _
      | «false» => exact alikeAt_pure _ _
      | _ => exact alikeAt_throw (ParseCause.takesSemicolon_of_ne ht) span span'
    | mark m =>
      cases m with
      | not => exact (hinner us _ (by omega)).bind fun _ _ _ _ => alikeAt_pure _ _
      | minus => exact (hinner us _ (by omega)).bind fun _ _ _ _ => alikeAt_pure _ _
      | openParen =>
        refine (hinner us 0 (by omega)).bind fun value value' vs _ => ?_
        exact (alikeAt_expect (by simp)).bind fun _ _ _ _ => alikeAt_pure value value'
      | _ => exact alikeAt_throw (ParseCause.takesSemicolon_of_ne ht) span span'

/-- The operators behind an operand. -/
theorem alikeAt_operators {least start start' k k' : Nat} (left left' : Expr)
    (hinner : ∀ (us : List Token) (least : Nat), us.length < n →
      AlikeAt us (inner least) (inner' least))
    (hn : ts.length < n) (hk : ts.length < k) (hk' : ts.length < k') :
    AlikeAt ts (operators inner least start k left) (operators inner' least start' k' left') := by
  induction k generalizing ts k' left left' with
  | zero => exact absurd hk (Nat.not_lt_zero _)
  | succ k ih =>
    obtain _ | k' := k'
    · exact absurd hk' (Nat.not_lt_zero _)
    unfold operators
    refine alikeAt_peek ?_
    rcases hop : (some (nextToken ts)).bind Token.binaryOp? with _ | op
    · exact alikeAt_pure left left'
    · dsimp only
      by_cases hpower : op.power < least
      · rw [if_pos hpower, if_pos hpower]
        exact alikeAt_pure left left'
      · rw [if_neg hpower, if_neg hpower]
        -- at the end of the part the next token is the semicolon, which is no operator
        cases ts with
        | nil => cases hop
        | cons t ts =>
          rw [List.length_cons] at hn hk hk'
          refine alikeAt_advance fun _ _ _ => ?_
          refine (hinner ts _ (by omega)).bind fun _ _ us hus => ?_
          refine alikeAt_previous.bind fun _ _ vs hvs => ?_
          have hlength := (hvs.trans hus).length_le
          exact ih _ _ (by omega) (by omega) (by omega)

/-- **An expression**, with any room: both readings are too deep or none. -/
theorem alikeAt_exprAt (hbound : n ≤ bound) (hbound' : n ≤ bound') (room least : Nat)
    (hn : ts.length < n) : AlikeAt ts (exprAt bound room least) (exprAt bound' room least) := by
  induction room generalizing ts least with
  | zero => exact alikeAt_failHere rfl
  | succ room ih =>
    unfold exprAt
    refine alikeAt_here.bind fun _ _ us hus => ?_
    have hlength := hus.length_le
    have hinner (vs : List Token) (least : Nat) (hvs : vs.length < n) :
        AlikeAt vs (exprAt bound room least) (exprAt bound' room least) := ih least hvs
    refine (alikeAt_operand hinner (by omega) hbound hbound').bind fun left left' vs hvs => ?_
    have hlength := hvs.length_le
    exact alikeAt_operators left left' hinner (by omega) (by omega) (by omega)

/-! ### Statements -/

theorem alikeAt_simple {expr expr' : Parser Expr}
    (hexpr : ∀ us : List Token, us <:+ ts → AlikeAt us expr expr') :
    AlikeAt ts (simple expr) (simple expr') := by
  unfold simple
  refine alikeAt_here.bind fun here here' us hus => ?_
  refine alikeAt_eat (by simp) ?_ ?_
  · rintro vs rfl
    have hvs : vs <:+ ts := (List.suffix_cons _ vs).trans hus
    rw [if_pos rfl, if_pos rfl]
    refine alikeAt_expectName.bind fun _ _ ws hws => ?_
    refine (alikeAt_expect (by simp)).bind fun _ _ xs hxs => ?_
    refine (hexpr xs (hxs.trans (hws.trans hvs))).bind fun _ _ _ _ => ?_
    exact alikeAt_previous.bind fun _ _ _ _ => alikeAt_pure _ _
  · rw [if_neg Bool.false_ne_true, if_neg Bool.false_ne_true]
    -- what is no assignment is an expression, also where the statement is at its end
    have hevaluate : AlikeAt us
        (do return Simple.evaluate (← expr) ⟨here.start, ← previous⟩)
        (do return Simple.evaluate (← expr') ⟨here'.start, ← previous⟩) := by
      refine (hexpr us hus).bind fun _ _ _ _ => ?_
      exact alikeAt_previous.bind fun _ _ _ _ => alikeAt_pure _ _
    refine alikeAt_peekTwo ?_ ?_
    · rintro t vs rfl
      cases t with
      | name word =>
        cases vs with
        | nil => exact hevaluate
        | cons u vs =>
          have hvs : vs <:+ ts := (List.suffix_cons u vs).trans ((List.suffix_cons _ _).trans hus)
          have hassign (kind : AssignKind) : AlikeAt (.name word :: u :: vs)
              (do
                let _ ← advance
                let _ ← advance
                let value ← expr
                return Simple.assign word kind value ⟨here.start, ← previous⟩)
              (do
                let _ ← advance
                let _ ← advance
                let value ← expr'
                return Simple.assign word kind value ⟨here'.start, ← previous⟩) := by
            refine alikeAt_advance fun _ _ _ => alikeAt_advance fun _ _ _ => ?_
            refine (hexpr vs hvs).bind fun _ _ _ _ => ?_
            exact alikeAt_previous.bind fun _ _ _ _ => alikeAt_pure _ _
          cases u with
          | mark m =>
            cases m with
            | plusPlus =>
              refine alikeAt_advance fun _ _ _ => alikeAt_advance fun _ _ _ => ?_
              exact alikeAt_previous.bind fun _ _ _ _ => alikeAt_pure _ _
            | assign => exact hassign .replace
            | plusAssign => exact hassign .add
            | _ => exact hevaluate
          | _ => exact hevaluate
      | _ => exact hevaluate
    · rintro rfl u u'
      exact hevaluate

/-- The stream that recovery goes on with stands at `rest`: if the semicolon has been taken, the
stream itself stands there, and recovery goes on to the next one. -/
def Recovers (f : ParseFault) (rest : List Lexeme) (s : Stream) : Prop :=
  if f.cause.takesSemicolon then s.ahead = rest else recovered s.ahead = rest

theorem Recovers.recovered_nil {f : ParseFault} (h : Recovers f [] s) : recovered s.ahead = [] := by
  unfold Recovers at h
  split at h
  · rw [h]
    rfl
  · exact h

/-- How two readings of a statement end that began before the same tokens. -/
inductive SameEnd (rest rest' : List Lexeme) {α : Type} :
    Except ParseFault α × Stream → Except ParseFault α × Stream → Prop
  | read {a a' : α} {s s' : Stream} : s.ahead = rest → s'.ahead = rest' →
      SameEnd rest rest' (.ok a, s) (.ok a', s')
  | faulty {f f' : ParseFault} {s s' : Stream} : f.cause = f'.cause → Recovers f rest s →
      Recovers f' rest' s' → SameEnd rest rest' (.error f, s) (.error f', s')

end Parser

/-- The tokens of a statement without a body. -/
structure IsPart (ts : List Token) : Prop where
  ne_nil : ts ≠ []
  inside : Inside ts
  head : ∀ k ∈ [Keyword.if, .while, .for, .break], ts.head? ≠ some (.keyword k)

namespace Parser

/-- Such a statement is read as a simple one. -/
theorem outcome_topStatement (hts : IsPart ts) (hs : Before ts rest s) :
    outcome (topStatement bound) s = outcome (do
      let x ← simple (exprAt bound nestingLimit 0)
      let _ ← expect (.mark .semicolon)
      return Stmt.simple x) s := by
  unfold topStatement statement
  rw [outcome_bind_ok (outcome_here s), outcome_bind_ok (outcome_peek s), hs.head]
  cases ts with
  | nil => exact absurd rfl hts.ne_nil
  | cons t ts =>
    change outcome (match some t with | _ => _) s = _
    cases t with
    | keyword k =>
      cases k with
      | «if» => exact absurd rfl (hts.head .if (by decide))
      | «while» => exact absurd rfl (hts.head .while (by decide))
      | «for» => exact absurd rfl (hts.head .for (by decide))
      | «break» => exact absurd rfl (hts.head .break (by decide))
      | _ => rfl
    | mark m =>
      cases m with
      | openBrace => exact absurd rfl (hts.inside _ List.mem_cons_self).2.1
      | _ => rfl
    | _ => rfl

theorem outcome_expect_other (hs : Before (t :: ts) rest s) :
    outcome (expect (.mark .semicolon)) s
      = (.error ⟨.expected (.token (.mark .semicolon)) (some t), s.here⟩, s) := by
  have ht : some t ≠ some (.mark .semicolon) := fun h => hs.ne_semicolon (Option.some.inj h)
  unfold expect
  rw [outcome_bind_ok (outcome_here s), outcome_bind_ok (outcome_peek s), hs.head]
  change outcome (if some t = some (.mark .semicolon) then _ else _) s = _
  rw [if_neg ht]
  rfl

/-- **A statement and its semicolon.** -/
theorem sameEnd_topStatement {bound bound' : Nat} (hts : IsPart ts) (hbound : ts.length < bound)
    (hbound' : ts.length < bound') (hs : Before ts rest s) (hs' : Before ts rest' s') :
    SameEnd rest rest' (outcome (topStatement bound) s) (outcome (topStatement bound') s') := by
  have hexpr (us : List Token) (hus : us <:+ ts) :
      AlikeAt us (exprAt bound nestingLimit 0) (exprAt bound' nestingLimit 0) := by
    have hlength := hus.length_le
    exact alikeAt_exprAt (n := ts.length + 1) hbound hbound' nestingLimit 0 (by omega)
  have hsimple := alikeAt_simple hexpr s s' rest rest' hs hs'
  rw [outcome_topStatement hts hs, outcome_topStatement hts hs', outcome_bind, outcome_bind]
  generalize outcome (simple (exprAt bound nestingLimit 0)) s = r at hsimple
  generalize outcome (simple (exprAt bound' nestingLimit 0)) s' = r' at hsimple
  -- a fault may have taken the semicolon; recovery goes to the next one in that case
  cases hsimple with
  | behind hcause htakes ht ht' =>
    refine .faulty hcause ?_ ?_
    · rw [Recovers, if_pos htakes]
      exact ht
    · rw [Recovers, ← hcause, if_pos htakes]
      exact ht'
  | stopped hcause htakes ht ht' =>
    refine .faulty hcause ?_ ?_
    · rw [Recovers, htakes, if_neg Bool.false_ne_true]
      exact ht.recovered
    · rw [Recovers, ← hcause, htakes, if_neg Bool.false_ne_true]
      exact ht'.recovered
  | @ok _ _ t t' us _ ht ht' =>
    dsimp only
    -- the statement ends at its semicolon, or something stands between
    cases us with
    | nil =>
      obtain ⟨p, hp⟩ := ht.nil
      obtain ⟨p', hp'⟩ := ht'.nil
      obtain ⟨_, prev, stop⟩ := t
      obtain ⟨_, prev', stop'⟩ := t'
      subst hp hp'
      rw [outcome_bind_ok outcome_expect, outcome_bind_ok outcome_expect]
      exact .read rfl rfl
    | cons u us =>
      have hother := outcome_expect_other ht
      have hother' := outcome_expect_other ht'
      rw [outcome_bind_error hother, outcome_bind_error hother']
      have htakes : (ParseCause.expected (.token (.mark .semicolon)) (some u)).takesSemicolon
          = false := by simp [ParseCause.takesSemicolon]
      refine .faulty rfl ?_ ?_
      · rw [Recovers, htakes, if_neg Bool.false_ne_true]
        exact ht.recovered
      · rw [Recovers, htakes, if_neg Bool.false_ne_true]
        exact ht'.recovered

end Parser

/-! ### Texts -/

/-- The faults of a source text. -/
def faults (text : String) (source : Nat) : List ParseFault :=
  match Program.parse text source with
  | .ok _ => []
  | .error fs => fs

/-- The text is scanned to these tokens. -/
def Tokenizes (text : String) (ts : List Token) : Prop :=
  ∃ ls, scan text = .ok ls ∧ ls.map Lexeme.token = ts

/-- The causes that are reported for statements one behind the other, if these are reported for
them alone. The flag says that the semicolon before the next statement has been taken, and that the
statement is skipped. -/
def reported : Bool → List (Option ParseCause) → List ParseCause
  | _, [] => []
  | true, _ :: vs => reported false vs
  | false, none :: vs => reported false vs
  | false, some cause :: vs => cause :: reported cause.takesSemicolon vs

variable {text : String} {source : Nat} {ls : List Lexeme} {ts : List Token}

theorem faults_eq_nil_iff : faults text source = [] ↔ (Program.parse text source).isOk = true := by
  unfold faults Program.parse
  cases scan text with
  | error fault => exact iff_of_false (List.cons_ne_nil _ _) Bool.false_ne_true
  | ok ls =>
    unfold Program.ofLexemes
    dsimp only
    rcases Parser.statements (Parser.topStatement ls.length) ls.length
      ⟨ls, 0, text.utf8ByteSize⟩ with ⟨ss, _ | ⟨f, fs⟩⟩
    · exact iff_of_true rfl rfl
    · exact iff_of_false (List.cons_ne_nil f fs) Bool.false_ne_true

theorem faults_of_scan (source : Nat) (h : scan text = .ok ls) : faults text source
    = (Parser.statements (Parser.topStatement ls.length) ls.length
        ⟨ls, 0, text.utf8ByteSize⟩).2 := by
  unfold faults Program.parse
  rw [h]
  dsimp only [Program.ofLexemes]
  rcases Parser.statements (Parser.topStatement ls.length) ls.length
    ⟨ls, 0, text.utf8ByteSize⟩ with ⟨ss, _ | ⟨f, fs⟩⟩ <;> rfl

section

variable {reader : Parser Stmt} {n : Nat} {s t : Stream}

theorem Parser.statements_read {first : Stmt} (hne : s.ahead ≠ [])
    (h : outcome reader s = (.ok first, t)) :
    (statements reader (n + 1) s).2 = (statements reader n t).2 := by
  have hrun : reader.run s = (.ok first, t) := h
  rw [statements, if_neg (by simpa using hne), hrun]

theorem Parser.statements_faulty {f : ParseFault} (hne : s.ahead ≠ [])
    (h : outcome reader s = (.error f, t)) (hdeep : f.cause ≠ .tooDeep) :
    (statements reader (n + 1) s).2
      = f :: (statements reader n { t with ahead := recovered t.ahead }).2 := by
  have hrun : reader.run s = (.error f, t) := h
  rw [statements, if_neg (by simpa using hne), hrun]
  dsimp only
  rw [if_neg hdeep]

theorem Parser.statements_tooDeep {f : ParseFault} (hne : s.ahead ≠ [])
    (h : outcome reader s = (.error f, t)) (hdeep : f.cause = .tooDeep) :
    (statements reader (n + 1) s).2 = [f] := by
  have hrun : reader.run s = (.error f, t) := h
  rw [statements, if_neg (by simpa using hne), hrun]
  dsimp only
  rw [if_pos hdeep]

end

/-! ### Statements one behind the other -/

open Blockwork.Script.Parser (Before Recovers topStatement statements recovered)

variable {s : Stream} {rest : List Lexeme} {bound : Nat}

/-- A statement in front of others is read as it is alone. -/
theorem part_cases (source : Nat) (hts : IsPart ts)
    (htext : Tokenizes text (ts ++ [.mark .semicolon])) (hs : Before ts rest s)
    (hbound : ts.length < bound) :
    (∃ first t, outcome (topStatement bound) s = (.ok first, t) ∧ t.ahead = rest ∧
      faults text source = []) ∨
    ∃ f f' t, outcome (topStatement bound) s = (.error f, t) ∧ Recovers f rest t ∧
      f.cause = f'.cause ∧ faults text source = [f'] := by
  obtain ⟨ls, hscan, hls⟩ := htext
  have hlength : ts.length + 1 = ls.length := by
    have h := congrArg List.length hls
    rw [List.length_map, List.length_append, List.length_singleton] at h
    exact h.symm
  have hne : ls ≠ [] := by
    rintro rfl
    cases hlength
  have hshort : ts.length < ls.length := by omega
  have halone : Before ts [] ⟨ls, 0, text.utf8ByteSize⟩ :=
    ⟨hts.inside, ls, (List.append_nil ls).symm, hls⟩
  have hend := Parser.sameEnd_topStatement hts hbound hshort hs halone
  have hfaults := faults_of_scan source hscan
  generalize hr : outcome (topStatement bound) s = r at hend
  generalize hr' : outcome (topStatement ls.length) ⟨ls, 0, text.utf8ByteSize⟩ = r' at hend
  rw [← hlength] at hr' hfaults
  -- behind the statement nothing is left to be read
  have hnothing (n : Nat) (t : Stream) (ht : t.ahead = []) :
      (statements (topStatement (ts.length + 1)) n t).2 = [] := by
    obtain ⟨_, prev, stop⟩ := t
    subst ht
    rw [Parser.statements_nil]
  cases hend with
  | @read first _ t t' ht ht' =>
    rw [Parser.statements_read hne hr', hnothing _ _ ht'] at hfaults
    exact .inl ⟨first, t, rfl, ht, hfaults⟩
  | @faulty f f' t t' hcause ht ht' =>
    refine .inr ⟨f, f', t, rfl, ht, hcause, ?_⟩
    by_cases hdeep : f'.cause = .tooDeep
    · rw [hfaults, Parser.statements_tooDeep hne hr' hdeep]
    · rw [hfaults, Parser.statements_faulty hne hr' hdeep, hnothing _ _ ht'.recovered_nil]

/-- What is wrong with a text, if anything is. -/
def verdict (source : Nat) (text : String) : Option ParseCause :=
  (faults text source).head?.map ParseFault.cause

/-- **The loop over the statements**, from the first of them or from the one behind it. -/
theorem causes_statements (source : Nat) (parts : List (String × List Token))
    (hparts : ∀ p ∈ parts, IsPart p.2 ∧ Tokenizes p.1 (p.2 ++ [.mark .semicolon]))
    (hdeep : ∀ p ∈ parts, ∀ f ∈ faults p.1 source, f.cause ≠ .tooDeep) (skip : Bool) (n : Nat)
    (s : Stream)
    (hahead : s.ahead.map Lexeme.token = parts.flatMap fun p => p.2 ++ [.mark .semicolon])
    (hn : s.ahead.length ≤ n) (hbound : s.ahead.length ≤ bound) :
    (statements (topStatement bound) n
        { s with ahead := if skip then recovered s.ahead else s.ahead }).2.map ParseFault.cause
      = reported skip (parts.map fun p => verdict source p.1) := by
  induction parts generalizing skip n s with
  | nil =>
    obtain ⟨_, prev, stop⟩ := s
    obtain rfl := List.map_eq_nil_iff.mp hahead
    have hnil : (if skip then recovered [] else []) = ([] : List Lexeme) := by
      cases skip <;> rfl
    dsimp only
    rw [hnil, Parser.statements_nil]
    rfl
  | cons p parts ih =>
    obtain ⟨⟨hp, htext⟩, hparts⟩ := List.forall_mem_cons.mp hparts
    obtain ⟨hdeepp, hdeep⟩ := List.forall_mem_cons.mp hdeep
    rw [List.flatMap_cons] at hahead
    obtain ⟨ks, rest, hks, hkstoken, hrest⟩ := List.map_eq_append_iff.mp hahead
    have hs : Before p.2 rest s := ⟨hp.inside, ks, hks, hkstoken⟩
    have hlength : s.ahead.length = p.2.length + 1 + rest.length := by
      have h := congrArg List.length hkstoken
      rw [List.length_map, List.length_append, List.length_singleton] at h
      rw [hks, List.length_append, h]
    obtain ⟨n, rfl⟩ : ∃ m, n = m + 1 := ⟨n - 1, by omega⟩
    have hne : s.ahead ≠ [] := by
      intro h
      rw [h, List.length_nil] at hlength
      omega
    -- the loop over the other statements, from any stream that stands before them
    have hbehind (skip : Bool) (n : Nat) (t : Stream) (ht : t.ahead = rest) (hn : rest.length ≤ n) :
        (statements (topStatement bound) n
            { t with ahead := if skip then recovered t.ahead else t.ahead }).2.map ParseFault.cause
          = reported skip (parts.map fun p => verdict source p.1) := by
      refine ih hparts hdeep skip n t ?_ ?_ ?_
      · rw [ht]
        exact hrest
      · rw [ht]
        exact hn
      · rw [ht]
        omega
    rw [List.map_cons]
    cases skip with
    | true =>
      rw [if_pos rfl, hs.recovered]
      exact hbehind false (n + 1) { s with ahead := rest } rfl (by omega)
    | false =>
      rw [if_neg Bool.false_ne_true]
      obtain ⟨first, t, hr, ht, hfaults⟩ | ⟨f, f', t, hr, ht, hcause, hfaults⟩ :=
        part_cases source hp htext hs (by omega : p.2.length < bound)
      · have hverdict : verdict source p.1 = none := by rw [verdict, hfaults]; rfl
        rw [hverdict, Parser.statements_read hne hr]
        exact hbehind false n t ht (by omega)
      · have hverdict : verdict source p.1 = some f.cause := by rw [verdict, hfaults, hcause]; rfl
        have hf : f.cause ≠ .tooDeep := by
          rw [hcause]
          exact hdeepp f' (hfaults ▸ List.mem_singleton_self f')
        rw [hverdict, Parser.statements_faulty hne hr hf, List.map_cons, reported]
        refine congrArg (f.cause :: ·) ?_
        unfold Recovers at ht
        rcases htakes : f.cause.takesSemicolon with _ | _
        · rw [htakes, if_neg Bool.false_ne_true] at ht
          exact hbehind false n { t with ahead := recovered t.ahead } ht (by omega)
        · rw [htakes, if_pos rfl] at ht
          exact hbehind true n t ht (by omega)

/-- A statement alone has one fault at most. -/
theorem length_faults_le (source : Nat) (hts : IsPart ts)
    (htext : Tokenizes text (ts ++ [.mark .semicolon])) : (faults text source).length ≤ 1 := by
  have halone : ∃ ls, Before ts [] ⟨ls, 0, 0⟩ := by
    obtain ⟨ls, -, hls⟩ := htext
    exact ⟨ls, hts.inside, ls, (List.append_nil ls).symm, hls⟩
  obtain ⟨ls, halone⟩ := halone
  obtain ⟨-, -, -, -, hfaults⟩ | ⟨-, f, -, -, -, -, hfaults⟩ :=
    part_cases source hts htext halone (Nat.lt_succ_self _)
  · rw [hfaults]
    exact Nat.zero_le 1
  · rw [hfaults]
    exact le_rfl

theorem length_faults_eq (hshort : (faults text source).length ≤ 1) :
    (faults text source).length = if (Program.parse text source).isOk then 0 else 1 := by
  by_cases hnil : faults text source = []
  · rw [if_pos (faults_eq_nil_iff.mp hnil), hnil]
    rfl
  · rw [if_neg fun h => hnil (faults_eq_nil_iff.mpr h)]
    have := List.length_pos_iff.mpr hnil
    omega

/-- Where no semicolon is taken, each statement is read. -/
theorem reported_of_left {source : Nat} {parts : List (String × List Token)}
    (hshort : ∀ p ∈ parts, (faults p.1 source).length ≤ 1)
    (hleft : ∀ p ∈ parts, ∀ f ∈ faults p.1 source, f.cause.takesSemicolon = false) :
    reported false (parts.map fun p => verdict source p.1)
      = parts.flatMap fun p => (faults p.1 source).map ParseFault.cause := by
  induction parts with
  | nil => rfl
  | cons p parts ih =>
    obtain ⟨hshortp, hshort⟩ := List.forall_mem_cons.mp hshort
    obtain ⟨hleftp, hleft⟩ := List.forall_mem_cons.mp hleft
    rw [List.map_cons, List.flatMap_cons, verdict, ← ih hshort hleft]
    rcases hfaults : faults p.1 source with _ | ⟨f, _ | ⟨g, fs⟩⟩
    · rfl
    · have htakes : f.cause.takesSemicolon = false := hleftp f (hfaults ▸ List.mem_singleton_self f)
      change f.cause :: reported f.cause.takesSemicolon _ = _
      rw [htakes]
      rfl
    · rw [hfaults, List.length_cons, List.length_cons] at hshortp
      omega

theorem sum_lengths {source : Nat} {parts : List (String × List Token)}
    (hshort : ∀ p ∈ parts, (faults p.1 source).length ≤ 1) :
    (parts.map fun p => ((faults p.1 source).map ParseFault.cause).length).sum
      = parts.countP fun p => !(Program.parse p.1 source).isOk := by
  induction parts with
  | nil => rfl
  | cons p parts ih =>
    obtain ⟨hshortp, hshort⟩ := List.forall_mem_cons.mp hshort
    rw [List.map_cons, List.sum_cons, List.countP_cons, ih hshort, List.length_map,
      length_faults_eq hshortp]
    cases (Program.parse p.1 source).isOk
    · exact Nat.add_comm _ _
    · exact Nat.zero_add _

/-- **The faults of statements one behind the other.** They are the faults of the statements alone,
in their order; but where a semicolon has been taken for a name or an expression, the statement
behind it is skipped. -/
theorem faults_of_parts (source : Nat) (parts : List (String × List Token)) (text : String)
    (hparts : ∀ p ∈ parts, IsPart p.2 ∧ Tokenizes p.1 (p.2 ++ [.mark .semicolon]))
    (htext : Tokenizes text (parts.flatMap fun p => p.2 ++ [.mark .semicolon]))
    (hdeep : ∀ p ∈ parts, ∀ f ∈ faults p.1 source, f.cause ≠ .tooDeep) :
    (faults text source).map ParseFault.cause
        = reported false (parts.map fun p => verdict source p.1) ∧
      ((∀ p ∈ parts, ∀ f ∈ faults p.1 source, f.cause.takesSemicolon = false) →
        (faults text source).map ParseFault.message
            = parts.flatMap (fun p => (faults p.1 source).map ParseFault.message) ∧
          (faults text source).length
            = parts.countP fun p => !(Program.parse p.1 source).isOk) := by
  have hshort : ∀ p ∈ parts, (faults p.1 source).length ≤ 1 :=
    fun p hp => length_faults_le source (hparts p hp).1 (hparts p hp).2
  have hcauses : (faults text source).map ParseFault.cause
      = reported false (parts.map fun p => verdict source p.1) := by
    obtain ⟨ls, hscan, hls⟩ := htext
    rw [faults_of_scan source hscan]
    exact causes_statements source parts hparts hdeep false ls.length
      ⟨ls, 0, text.utf8ByteSize⟩ hls le_rfl le_rfl
  refine ⟨hcauses, fun hleft => ?_⟩
  -- if no semicolon is taken, no statement is skipped
  rw [reported_of_left hshort hleft] at hcauses
  have hmessage : ParseFault.message = ParseCause.message ∘ ParseFault.cause := rfl
  constructor
  · rw [hmessage, ← List.map_map, hcauses, List.map_flatMap]
    simp only [List.map_map]
  · rw [← List.length_map (f := ParseFault.cause), hcauses, List.length_flatMap]
    exact sum_lengths hshort

/-- A call without a comma, and one that is whole. -/
def commaMissing : List (String × List Token) :=
  [("f(a b);", [.name "f", .mark .openParen, .name "a", .name "b", .mark .closeParen]),
    ("g(c);", [.name "g", .mark .openParen, .name "c", .mark .closeParen])]

theorem faults_of_parts_commaMissing :
    (faults "f(a b); g(c);" 0).map ParseFault.cause
        = reported false (commaMissing.map fun p => verdict 0 p.1) ∧
      (faults "f(a b); g(c);" 0).map ParseFault.message
        = commaMissing.flatMap (fun p => (faults p.1 0).map ParseFault.message) ∧
      (faults "f(a b); g(c);" 0).length
        = commaMissing.countP fun p => !(Program.parse p.1 0).isOk := by
  have hparts : ∀ p ∈ commaMissing, IsPart p.2 ∧ Tokenizes p.1 (p.2 ++ [.mark .semicolon]) := by
    intro p hp
    rcases List.mem_pair.mp hp with rfl | rfl
    · exact ⟨⟨by decide, by decide, by decide⟩, _, rfl, rfl⟩
    · exact ⟨⟨by decide, by decide, by decide⟩, _, rfl, rfl⟩
  have hfaults : ∀ p ∈ commaMissing, ∀ f ∈ faults p.1 0,
      f.cause ≠ .tooDeep ∧ f.cause.takesSemicolon = false := by
    decide +kernel
  obtain ⟨hcauses, hrest⟩ := faults_of_parts 0 commaMissing "f(a b); g(c);" hparts ⟨_, rfl, rfl⟩
    fun p hp f hf => (hfaults p hp f hf).1
  exact ⟨hcauses, hrest fun p hp f hf => (hfaults p hp f hf).2⟩

/-- An assignment without a value, and a call without a comma. -/
def valueMissing : List (String × List Token) :=
  [("x = ;", [.name "x", .mark .assign]),
    ("f(a b);", [.name "f", .mark .openParen, .name "a", .name "b", .mark .closeParen])]

/-- **A fault that is not reported.** Both statements are at fault, and none of them is too deep.
Together they have one fault, since the semicolon between them is taken for the value. -/
theorem faults_valueMissing :
    (∀ p ∈ valueMissing, IsPart p.2 ∧ Tokenizes p.1 (p.2 ++ [.mark .semicolon])) ∧
      Tokenizes "x = ; f(a b);" (valueMissing.flatMap fun p => p.2 ++ [.mark .semicolon]) ∧
      (∀ p ∈ valueMissing, ∀ f ∈ faults p.1 0, f.cause ≠ .tooDeep) ∧
      (valueMissing.countP fun p => !(Program.parse p.1 0).isOk) = 2 ∧
      (faults "x = ; f(a b);" 0).length = 1 := by
  refine ⟨?_, ⟨_, rfl, rfl⟩, by decide +kernel, by decide +kernel, by decide +kernel⟩
  intro p hp
  rcases List.mem_pair.mp hp with rfl | rfl
  · exact ⟨⟨by decide, by decide, by decide⟩, _, rfl, rfl⟩
  · exact ⟨⟨by decide, by decide, by decide⟩, _, rfl, rfl⟩

end Blockwork.Script
