import Mathlib
import Blockwork.Proofs.Script.Tracking

/-!
# The parser makes progress

The outermost loop of the parser, with the counter of `Counting.lean` and without a bound. A turn of
it reads a statement, or goes on behind a fault, or stops at a nesting that is too deep
(`Limit.turn`). Each turn ends and leaves less ahead (`exists_turned`), because a statement takes a
lexeme and recovery takes one or comes to the end. So the loop ends (`exists_ran`); and since a turn
gives one statement or one fault, there are not more of them than lexemes.

## Main result

* `progresses`: for any lexemes, with what the program of the lexemes is.
-/

namespace Blockwork.Script

open Blockwork.Script.Parser (topStatement recovered statements)

/-- Behind the next token that ends a statement. -/
def Cursor.synchronized (c : Cursor) : Cursor :=
  { c with stream := { c.stream with ahead := recovered c.stream.ahead } }

/-- In front of these lexemes, with nothing read. -/
def Cursor.initial (lexemes : List Lexeme) (stop : Nat) : Cursor :=
  ⟨⟨lexemes, 0, stop⟩, 0, false⟩

namespace Counting

/-- What one turn of the outermost loop gives. -/
inductive Turn where
  /-- Nothing is ahead. -/
  | ended
  | read (first : Stmt)
  /-- There is a fault, and the cursor goes on behind it. -/
  | faulty (fault : ParseFault)
  /-- There is a fault, and the flag is raised. -/
  | stopped (fault : ParseFault)

/-- One turn of the outermost loop. -/
def Limit.turn (limit : Limit) (c : Cursor) : Option (Turn × Cursor) :=
  if c.stream.ahead.isEmpty then some (.ended, c)
  else (ending limit.statement c).map fun
    | (.ok first, d) => (.read first, d)
    | (.error fault, d) =>
      if d.tooDeep then (.stopped fault, d) else (.faulty fault, d.synchronized)

/-- The statements and the faults from this cursor on, if the loop ends. -/
def Limit.turns (limit : Limit) (c : Cursor) : Option (List Stmt × List ParseFault) := do
  match ← limit.turn c with
  | (.ended, _) => return ([], [])
  | (.read first, d) =>
    let (others, faults) ← limit |>.turns d
    return (first :: others, faults)
  | (.faulty fault, d) =>
    let (others, faults) ← limit |>.turns d
    return (others, fault :: faults)
  | (.stopped fault, _) => return ([], [fault])
partial_fixpoint

/-- Where the outermost loop stands before one of its turns. -/
inductive Head (start : Cursor) : Cursor → Prop
  | start : Head start start
  | read {c d : Cursor} {first : Stmt} : Head start c →
      Limit.standard.turn c = some (.read first, d) → Head start d
  | faulty {c d : Cursor} {fault : ParseFault} : Head start c →
      Limit.standard.turn c = some (.faulty fault, d) → Head start d

/-- No level of nesting is open, and there have not been too many. -/
structure Flat (c : Cursor) : Prop where
  nesting : c.nesting = 0
  tooDeep : c.tooDeep = false

variable {c d : Cursor} {bound : Nat} {ss : List Stmt} {fs : List ParseFault}

/-! ### Statements -/

theorem length_recovered (ls : List Lexeme) :
    (recovered ls).length < ls.length ∨ recovered ls = [] := by
  induction ls with
  | nil => exact .inr rfl
  | cons l ls ih =>
    rw [recovered]
    split
    · exact .inl (Nat.lt_succ_self _)
    · exact ih.imp_left Nat.lt_succ_of_lt

/-- **Reading a statement** from this cursor gives this result, and comes to that cursor. -/
structure Settles (c : Cursor) (result : Except ParseFault Stmt) (d : Cursor) : Prop where
  ends : ending Limit.standard.statement c = some (result, d)
  /-- The reader with room does the same, whatever its bound. -/
  same : ∀ bound, c.stream.ahead.length ≤ bound →
    outcome (Parser.statement bound (Parser.blockAt bound (nestingLimit - c.nesting))
      (Parser.exprAt bound (nestingLimit - c.nesting) 0)) c.stream = (result, d.stream)
  nesting : d.nesting = c.nesting
  left : d.stream.ahead <:+ c.stream.ahead
  /-- A statement takes at least one lexeme. -/
  taken : ∀ first, result = .ok first → d.stream.ahead.length < c.stream.ahead.length
  /-- So does a fault together with the recovery from it, unless that comes to the end. -/
  recovered : ∀ fault, result = .error fault →
    d.synchronized.stream.ahead.length < c.stream.ahead.length ∨ d.synchronized.stream.ahead = []

/-- **Reading a statement ends**, wherever it begins. -/
theorem exists_settles (c : Cursor) : ∃ result d, Settles c result d := by
  obtain ⟨s, k, raised⟩ := c
  have htracks {bound : Nat} (hbound : s.ahead.length ≤ bound) :
      Tracks true k Limit.standard.statement (Parser.statement bound
        (Parser.blockAt bound (nestingLimit - k)) (Parser.exprAt bound (nestingLimit - k) 0)) s :=
    tracks_statementAt rfl s hbound
  obtain ⟨hleft, htaken, hending⟩ := htracks le_rfl
  refine ⟨_, _, {
    ends := hending raised
    same := ?_
    nesting := rfl
    left := hleft
    taken := htaken rfl
    recovered := ?_ }⟩
  · intro bound hbound
    -- the reader with the counter does not know a bound
    have hsame := Option.some.inj (((htracks hbound).ending_eq raised).symm.trans (hending raised))
    obtain ⟨hresult, hcursor⟩ := Prod.mk.inj hsame
    exact Prod.ext hresult (congrArg Cursor.stream hcursor)
  · intro fault _
    exact (length_recovered _).imp_left fun h => lt_of_lt_of_le h hleft.length_le

/-! ### Turns -/

/-- **What a turn comes to**, next to the reader with room. -/
inductive Turned (bound : Nat) (c : Cursor) : Turn → Cursor → Prop
  | ended : c.stream.ahead = [] → Turned bound c .ended c
  | read {first : Stmt} {d : Cursor} :
      outcome (topStatement bound) c.stream = (.ok first, d.stream) → Flat d →
      d.stream.ahead.length < c.stream.ahead.length → Turned bound c (.read first) d
  | faulty {fault : ParseFault} {t : Stream} {d : Cursor} :
      outcome (topStatement bound) c.stream = (.error fault, t) → fault.cause ≠ .tooDeep →
      d.stream = { t with ahead := recovered t.ahead } → Flat d →
      d.stream.ahead.length < c.stream.ahead.length → Turned bound c (.faulty fault) d
  | stopped {fault : ParseFault} {t : Stream} {d : Cursor} : c.stream.ahead ≠ [] →
      outcome (topStatement bound) c.stream = (.error fault, t) → fault.cause = .tooDeep →
      Turned bound c (.stopped fault) d

theorem turn_ended (hnil : c.stream.ahead = []) : Limit.standard.turn c = some (.ended, c) := by
  rw [Limit.turn, if_pos (List.isEmpty_iff.mpr hnil)]

theorem turn_ok {first : Stmt} (hne : c.stream.ahead ≠ [])
    (h : ending Limit.standard.statement c = some (.ok first, d)) :
    Limit.standard.turn c = some (.read first, d) := by
  rw [Limit.turn, if_neg (mt List.isEmpty_iff.mp hne), h]
  rfl

theorem turn_error {fault : ParseFault} (hne : c.stream.ahead ≠ [])
    (h : ending Limit.standard.statement c = some (.error fault, d)) : Limit.standard.turn c
      = some (if d.tooDeep then (.stopped fault, d) else (.faulty fault, d.synchronized)) := by
  rw [Limit.turn, if_neg (mt List.isEmpty_iff.mp hne), h]
  rfl

/-- **Every turn ends.** If the loop goes on, less is ahead, and no level is open. -/
theorem exists_turned (hc : Flat c) (hbound : c.stream.ahead.length ≤ bound) :
    ∃ t d, Limit.standard.turn c = some (t, d) ∧ Turned bound c t d := by
  obtain ⟨s, k, raised⟩ := c
  obtain ⟨rfl, rfl⟩ := hc
  by_cases hnil : s.ahead = []
  · exact ⟨_, _, turn_ended hnil, .ended hnil⟩
  have htracks : Tracks true 0 Limit.standard.statement (topStatement bound) s :=
    tracks_statementAt rfl s hbound
  obtain ⟨hleft, htaken, hending⟩ := htracks
  have hturn := hending false
  rcases hs : outcome (topStatement bound) s with ⟨fault | first, s'⟩
  · rw [hs] at hleft hturn
    -- the flag is raised by this fault, or was not raised at all
    by_cases hdeep : fault.cause = .tooDeep
    · rw [refused, decide_eq_true hdeep] at hturn
      exact ⟨_, _, turn_error hnil hturn, .stopped hnil hs hdeep⟩
    · rw [refused, decide_eq_false hdeep] at hturn
      refine ⟨_, _, turn_error hnil hturn, .faulty hs hdeep rfl ⟨rfl, rfl⟩ ?_⟩
      change (recovered s'.ahead).length < s.ahead.length
      obtain hshorter | hend := length_recovered s'.ahead
      · exact lt_of_lt_of_le hshorter hleft.length_le
      · rw [hend]
        exact List.length_pos_iff.mpr hnil
  · rw [hs] at htaken hturn
    exact ⟨_, _, turn_ok hnil hturn, .read hs ⟨rfl, rfl⟩ (htaken rfl first rfl)⟩

theorem turned_of_turn {t : Turn} (hc : Flat c) (hturn : Limit.standard.turn c = some (t, d)) :
    Turned c.stream.ahead.length c t d := by
  obtain ⟨t', d', hturn', hturned⟩ := exists_turned hc le_rfl
  cases hturn.symm.trans hturn'
  exact hturned

/-- What one turn keeps, a whole run keeps. -/
theorem Head.flat {start : Cursor} (hstart : Flat start) (h : Head start c) : Flat c := by
  induction h with
  | start => exact hstart
  | read _ hturn ih =>
    cases turned_of_turn ih hturn with
    | read _ hflat _ => exact hflat
  | faulty _ hturn ih =>
    cases turned_of_turn ih hturn with
    | faulty _ _ _ hflat _ => exact hflat

/-! ### The loop -/

/-- **What the loop comes to** from this cursor on. -/
structure Ran (c : Cursor) (ss : List Stmt) (fs : List ParseFault) : Prop where
  ends : Limit.standard.turns c = some (ss, fs)
  /-- There are not more statements and faults than lexemes. -/
  few : ss.length + fs.length ≤ c.stream.ahead.length
  /-- Nothing is reported behind a nesting that is too deep. -/
  last : ∀ before fault behind, fs = before ++ fault :: behind → fault.cause = .tooDeep →
    behind = []

theorem ran_ended (hnil : c.stream.ahead = []) : Ran c [] [] where
  ends := by
    rw [Limit.turns, turn_ended hnil]
    rfl
  few := Nat.zero_le _
  last before fault behind h := by
    cases before <;> cases h

theorem Ran.read {first : Stmt} (hturn : Limit.standard.turn c = some (.read first, d))
    (hlt : d.stream.ahead.length < c.stream.ahead.length) (h : Ran d ss fs) :
    Ran c (first :: ss) fs where
  ends := by
    rw [Limit.turns, hturn]
    change (Limit.standard.turns d).bind _ = _
    rw [h.ends]
    rfl
  few := by
    have hfew := h.few
    rw [List.length_cons]
    omega
  last := h.last

theorem Ran.faulty {fault : ParseFault} (hturn : Limit.standard.turn c = some (.faulty fault, d))
    (hcause : fault.cause ≠ .tooDeep) (hlt : d.stream.ahead.length < c.stream.ahead.length)
    (h : Ran d ss fs) : Ran c ss (fault :: fs) where
  ends := by
    rw [Limit.turns, hturn]
    change (Limit.standard.turns d).bind _ = _
    rw [h.ends]
    rfl
  few := by
    have hfew := h.few
    rw [List.length_cons]
    omega
  last before f behind heq hdeep := by
    -- the fault in front has another cause, so one that is too deep comes later
    cases before with
    | nil =>
      cases heq
      exact absurd hdeep hcause
    | cons g before => exact h.last before f behind (List.cons.inj heq).2 hdeep

theorem ran_stopped {fault : ParseFault} (hturn : Limit.standard.turn c = some (.stopped fault, d))
    (hne : c.stream.ahead ≠ []) : Ran c [] [fault] where
  ends := by
    rw [Limit.turns, hturn]
    rfl
  few := by
    rw [List.length_nil, List.length_singleton, Nat.zero_add]
    exact List.length_pos_iff.mpr hne
  last before f behind heq _ := by
    cases before with
    | nil => exact (List.cons.inj heq).2.symm
    | cons g before => cases before <;> cases heq

/-- **The loop ends**, and the loop with a bound gives the same. -/
theorem exists_ran {n : Nat} (hc : Flat c) (hn : c.stream.ahead.length ≤ n) (hbound : n ≤ bound) :
    ∃ ss fs, Ran c ss fs ∧ statements (topStatement bound) n c.stream = (ss, fs) := by
  induction n generalizing c with
  | zero => exact ⟨[], [], ran_ended (List.length_eq_zero_iff.mp (Nat.le_zero.mp hn)), rfl⟩
  | succ n ih =>
    have hahead {m : Nat} (hlt : m < c.stream.ahead.length) : ¬ c.stream.ahead.isEmpty = true :=
      mt List.isEmpty_iff.mp (List.ne_nil_of_length_pos (Nat.zero_lt_of_lt hlt))
    -- every turn that goes on leaves less ahead, so `n` turns are enough
    obtain ⟨t, d, hturn, hturned⟩ := exists_turned hc (hn.trans hbound)
    cases hturned with
    | ended hnil =>
      refine ⟨[], [], ran_ended hnil, ?_⟩
      rw [statements, if_pos (List.isEmpty_iff.mpr hnil)]
    | @read first d hfirst hflat hlt =>
      obtain ⟨ss, fs, hran, hothers⟩ := ih hflat (by omega) (by omega)
      refine ⟨first :: ss, fs, hran.read hturn hlt, ?_⟩
      have hrun : (topStatement bound).run c.stream = (.ok first, d.stream) := hfirst
      rw [statements, if_neg (hahead hlt), hrun]
      dsimp only
      rw [hothers]
    | @faulty fault t d hfault hcause hd hflat hlt =>
      obtain ⟨ss, fs, hran, hothers⟩ := ih hflat (by omega) (by omega)
      refine ⟨ss, fault :: fs, hran.faulty hturn hcause hlt, ?_⟩
      have hrun : (topStatement bound).run c.stream = (.error fault, t) := hfault
      rw [statements, if_neg (hahead hlt), hrun]
      dsimp only
      rw [if_neg hcause, ← hd, hothers]
    | @stopped fault t d hne hfault hcause =>
      refine ⟨[], [fault], ran_stopped hturn hne, ?_⟩
      have hrun : (topStatement bound).run c.stream = (.error fault, t) := hfault
      rw [statements, if_neg (mt List.isEmpty_iff.mp hne), hrun]
      dsimp only
      rw [if_pos hcause]

/-! ### The theorem -/

/-- **The parser makes progress** through these lexemes. -/
structure Progresses (lexemes : List Lexeme) (stop : Nat) : Prop where
  statement : ∀ c : Cursor, ∃ result d, Settles c result d
  /-- Before every turn of the outermost loop, no level of nesting is open. -/
  heads : ∀ c, Head (Cursor.initial lexemes stop) c → Flat c
  /-- The loop ends, and the program is made of what it gives. -/
  loop : ∃ ss fs, Ran (Cursor.initial lexemes stop) ss fs ∧
    ∀ source, Program.ofLexemes lexemes stop source
      = if fs = [] then .ok ⟨ss, source⟩ else .error fs
  error_ne_nil : ∀ source, Program.ofLexemes lexemes stop source ≠ .error []

/-- **The parser makes progress.** -/
theorem progresses (lexemes : List Lexeme) (stop : Nat) : Progresses lexemes stop := by
  have hflat : Flat (Cursor.initial lexemes stop) := ⟨rfl, rfl⟩
  obtain ⟨ss, fs, hran, hstatements⟩ := exists_ran hflat (le_refl lexemes.length) le_rfl
  have hprogram (source : Nat) : Program.ofLexemes lexemes stop source
      = if fs = [] then .ok ⟨ss, source⟩ else .error fs := by
    have hrun : statements (topStatement lexemes.length) lexemes.length ⟨lexemes, 0, stop⟩
        = (ss, fs) := hstatements
    unfold Program.ofLexemes
    dsimp only
    rw [hrun]
    cases fs <;> rfl
  refine ⟨exists_settles, fun c hc => hc.flat hflat, ⟨ss, fs, hran, hprogram⟩, ?_⟩
  intro source herror
  rw [hprogram] at herror
  split at herror
  · cases herror
  · next hne => exact hne (Except.error.inj herror)

end Counting

end Blockwork.Script
