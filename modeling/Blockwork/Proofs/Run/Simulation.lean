import Mathlib
import Blockwork.Proofs.Run.Acting
import Blockwork.Proofs.Run.Counter
import Blockwork.Proofs.Run.Steps

/-!
# The machine follows the walk

A program that was parsed from code does on the machine what the walk of the code does. Where a walk
has come so far, the machine has the same host and the same number of sprites, its counter stands at
the turns of the walk, and its warnings are those of the walk at the places of the tokens
(`machineAt`). Every construct of the walk is followed by the statements it was written as, so the
whole program follows the whole walk (`Code.follows_stmtAll`).

No loop takes more turns than the guard lets pass: a turn that passes is one of the turns of the
walk, of which at most `guardLimit` pass. So the bound on the turns of the machine and the bound of
the walk are both never reached, and the two agree whatever they are.
-/

namespace Blockwork

open Script Run Blockwork.Run.Action
open Fragment (guardLimit guardVariable loopVariable)

variable {σ α β γ δ : Type}

namespace Run

/-- The diagnostic of a warning of a walk. -/
def warned (source : Nat) (entry : String × Marks) : Diagnostic :=
  ⟨.custom entry.1, some entry.2.callSpan, source, true⟩

/-- The diagnostic of a failure of the host. -/
def failed (source : Nat) (entry : String × Marks) : Diagnostic :=
  ⟨.hostFailure entry.1, some entry.2.callSpan, source, false⟩

/-- The machine that stands where a walk has come to, with other scopes above the global one. -/
def machineAt (source : Nat) (inner : List Scope) (w : Walked σ Marks) : Machine σ :=
  ⟨⟨inner, [(guardVariable, .number (counter w.turns))]⟩, w.host,
    (w.warnings.map (warned source)).toArray, w.drawn⟩

/-- The end of an action that follows a walk with this end. -/
def followed (source : Nat) (inner : List Scope) (f : α → β) :
    Except (String × Marks) α × Walked σ Marks → Except Diagnostic β × Machine σ
  | (.ok a, w) => (.ok (f a), machineAt source inner w)
  | (.error e, w) => (.error (failed source e), machineAt source inner w)

/-- The action does from the machine what the walk does. -/
def Follows (source : Nat) (inner : List Scope) (f : α → β) (w : Walked σ Marks)
    (x : Action σ β) (y : Walk σ Marks α) : Prop :=
  outcome x (machineAt source inner w) = followed source inner f (outcome y w)

/-- No scope hides the counter of the guard. -/
def Uncovered (inner : List Scope) : Prop :=
  ∀ scope ∈ inner, scope.get? guardVariable = none

variable {source : Nat} {inner : List Scope} {w : Walked σ Marks}

theorem Uncovered.push (h : Uncovered inner) : Uncovered ([] :: inner) :=
  List.forall_mem_cons.mpr ⟨rfl, h⟩

/-! ### Following one part after the other -/

theorem Follows.bind {f : α → β} {g : γ → δ} {x : Action σ β} {y : Walk σ Marks α}
    {x' : β → Action σ δ} {y' : α → Walk σ Marks γ} (h : Follows source inner f w x y)
    (h' : ∀ a w', outcome y w = (.ok a, w') → Follows source inner g w' (x' (f a)) (y' a)) :
    Follows source inner g w (x >>= x') (y >>= y') := by
  unfold Follows at h ⊢
  rw [outcome_bind, outcome_bind, h]
  rcases hy : outcome y w with ⟨e | a, w'⟩
  · rfl
  · exact h' a w' hy

/-- What the action gives afterwards is not one of the steps. -/
theorem Follows.map {f : α → β} {x : Action σ β} {y : Walk σ Marks α}
    (h : Follows source inner f w x y) (g : β → δ) :
    Follows source inner (g ∘ f) w (x >>= fun b => pure (g b)) y := by
  unfold Follows at h ⊢
  rw [outcome_bind, h]
  rcases outcome y w with ⟨e | a, w'⟩ <;> rfl

/-- A failure of the host has its place already. -/
theorem Follows.locate {f : α → β} {x : Action σ β} {y : Walk σ Marks α}
    (h : Follows source inner f w x y) (span : Span) :
    Follows source inner f w (locate span source x) y := by
  unfold Follows at h ⊢
  rw [outcome_locate, h]
  rcases outcome y w with ⟨e | a, w'⟩ <;> rfl

/-- A scope of its own is gone afterwards, whatever is left in it. -/
theorem outcome_inScope_at {x : Action σ β} {w' : Walked σ Marks} {scope : Scope}
    {result : Except Diagnostic β}
    (h : outcome x (machineAt source ([] :: inner) w)
      = (result, machineAt source (scope :: inner) w')) :
    outcome (inScope x) (machineAt source inner w) = (result, machineAt source inner w') := by
  have hpush : ({ machineAt source inner w with
      env := (machineAt source inner w).env.push } : Machine σ)
      = machineAt source ([] :: inner) w := rfl
  rw [outcome_inScope, hpush, h]
  rfl

theorem Follows.inScope {f : α → β} {x : Action σ β} {y : Walk σ Marks α}
    (h : Follows source ([] :: inner) f w x y) : Follows source inner f w (inScope x) y := by
  unfold Follows at h ⊢
  rcases hy : outcome y w with ⟨e | a, w'⟩
  · rw [hy] at h
    exact outcome_inScope_at h
  · rw [hy] at h
    exact outcome_inScope_at h

/-! ### Calls -/

variable {setting : Setting σ} {depth : Nat}

/-- Asking the host, and giving its failure the place of the call. The answer is not used. -/
theorem follows_ask (request : σ → Except String α × σ) {value : α → Action σ Value}
    (hvalue : ∀ a, ∃ v, value a = pure v) (m : Marks) :
    Follows setting.source inner id w
      (locate m.callSpan setting.source (ask request >>= value) >>= fun _ => pure ())
      (Walk.ask m request) := by
  unfold Follows
  rw [outcome_bind, outcome_locate, outcome_bind, outcome_ask, Walk.outcome_ask,
    show (machineAt setting.source inner w).host = w.host from rfl]
  rcases request w.host with ⟨_ | a, host⟩
  · rfl
  · obtain ⟨v, hv⟩ := hvalue a
    dsimp only
    rw [hv]
    rfl

theorem follows_warn (text : String) (m : Marks) :
    Follows setting.source inner id w (warn setting text m.callSpan)
      (Walk.warn setting.host m text) := by
  unfold Follows
  rw [outcome_warn, Walk.outcome_warn]
  change _ = (Except.ok (), _)
  unfold machineAt
  simp [warned]

theorem follows_sprite (name : String) (m : Marks) :
    Follows setting.source inner id w (drawSprite setting name m.callSpan)
      (Walk.sprite setting.toWorld m name) := by
  unfold Follows drawSprite
  rw [Walk.outcome_sprite]
  split
  · exact follows_warn _ m
  · rw [outcome_bind_ok (outcome_get _)]
    dsimp only [machineAt]
    rcases setting.host.canvas w.host with _ | canvas
    · exact follows_warn _ m
    · rfl

/-- **A call** does what its command does. -/
theorem follows_call (verb : Verb) (m : Marks) (argument : String) :
    Follows setting.source inner id w
      (locate m.callSpan setting.source
        (callFunction setting verb.function [.text argument] m.callSpan) >>= fun _ => pure ())
      (verb.walk setting.toWorld m argument) := by
  cases verb with
  | print => exact follows_ask (setting.host.print argument) (fun _ => ⟨_, rfl⟩) m
  | alert => exact follows_ask (setting.host.alert argument) (fun _ => ⟨_, rfl⟩) m
  | confirm => exact follows_ask (setting.host.confirm argument) (fun _ => ⟨_, rfl⟩) m
  | prompt =>
    refine follows_ask (setting.host.prompt argument) (fun answer => ?_) m
    cases answer with
    | some text => exact ⟨_, rfl⟩
    | none => exact ⟨_, rfl⟩
  | drawSprite =>
    have hdraw : Follows setting.source inner (fun _ => Value.undefined) w
        (callFunction setting "draw_sprite" [.text argument] m.callSpan)
        (Walk.sprite setting.toWorld m argument) :=
      (follows_sprite argument m).map fun _ => Value.undefined
    exact (hdraw.locate m.callSpan).map fun _ => ()

/-! ### Statements -/

variable {turns : Nat}

/-- A call as a statement. -/
theorem follows_callStmt {f argument : String} {m : Marks} {y : Walk σ Marks Unit}
    (h : depth + 2 ≤ depthLimit)
    (hcall : Follows setting.source inner id w
      (locate m.callSpan setting.source
        (callFunction setting f [.text argument] m.callSpan) >>= fun _ => pure ()) y) :
    Follows setting.source inner (fun _ => Flow.normal) w
      (execute setting turns (callStmt f argument m.inside 10) depth) y := by
  have hsimple : Follows setting.source inner id w
      (executeSimple setting (.evaluate (callExpr f argument m.inside 10) m.callSpan) depth) y := by
    unfold executeSimple Follows
    rw [outcome_bind_ok (outcome_checkDepth (by omega))]
    refine Follows.locate ?_ m.callSpan
    unfold Follows callExpr
    rw [outcome_bind, outcome_evaluate_call (by omega), ← outcome_bind]
    exact hcall
  rw [callStmt, execute]
  exact hsimple.map fun _ => Flow.normal

/-! ### The guard -/

theorem get?_guard (h : Uncovered inner) :
    (machineAt source inner w).env.get? guardVariable = some (.number (counter w.turns)) := by
  have hinner : inner.findSome? (·.get? guardVariable) = none :=
    List.findSome?_eq_none_iff.mpr h
  unfold Environment.get? Environment.scopes
  rw [List.findSome?_append]
  change (inner.findSome? (·.get? guardVariable)).or _ = _
  rw [hinner]
  rfl

theorem assignIn?_eq_none {name : String} {value : Value} {scopes : List Scope}
    (h : ∀ scope ∈ scopes, scope.get? name = none) :
    Environment.assignIn? scopes name value = none := by
  induction scopes with
  | nil => rfl
  | cons scope rest ih =>
    obtain ⟨hscope, hrest⟩ := List.forall_mem_cons.mp h
    rw [Environment.assignIn?, hscope, ih hrest]
    rfl

theorem assign?_guard (h : Uncovered inner) (x : Float) :
    (machineAt source inner w).env.assign? guardVariable (.number x)
      = some ⟨inner, [(guardVariable, .number x)]⟩ := by
  have hassign : Environment.assignIn? (machineAt source inner w).env.inner guardVariable
      (.number x) = none := assignIn?_eq_none h
  rw [Environment.assign?, hassign]
  rfl

/-- The guard counts the turn. -/
theorem outcome_increment_guard {span : Span} (h : Uncovered inner) (hd : depth ≤ depthLimit) :
    outcome (execute setting turns (.simple (.increment guardVariable span)) depth)
        (machineAt source inner w)
      = (.ok .normal, machineAt source inner { w with turns := w.turns + 1 }) := by
  rw [execute, outcome_bind_ok (outcome_increment hd (get?_guard h) (assign?_guard h _))]
  rfl

/-- The guard compares the turns with its limit. -/
theorem outcome_test_guard {place span : Span} (h : Uncovered inner)
    (hd : depth + 1 ≤ depthLimit) :
    outcome (test setting (.binary .greater (.var guardVariable place)
        (.number (Float.ofNat guardLimit)) span) depth) (machineAt source inner w)
      = (.ok (decide (guardLimit < w.turns)), machineAt source inner w) := by
  refine outcome_test ?_
  rw [outcome_evaluate_binary (by omega) ⟨by decide, by decide⟩
    (outcome_evaluate_var hd (get?_guard h)) (outcome_evaluate_number _ hd)]
  exact congrArg (fun v => (Except.ok v, _)) (compares_counter w.turns)

/-- Leaving the loop with a warning. -/
theorem outcome_leave {name : String} {m : Marks} (hd : depth + 2 ≤ depthLimit) :
    outcome (executeAll setting turns (leaveStmts name m.inside) depth)
        (machineAt setting.source inner w)
      = (.ok .broke, machineAt setting.source inner
          (outcome (Walk.warn setting.host m (Walk.guardText name)) w).2) := by
  have hwarn : Follows setting.source inner (fun _ => Flow.normal) w
      (execute setting turns (callStmt "warn" (guardWarning name) m.inside 10) depth)
      (Walk.warn setting.host m (Walk.guardText name)) := by
    refine follows_callStmt hd ?_
    have hcall : Follows setting.source inner (fun _ => Value.undefined) w
        (callFunction setting "warn" [.text (guardWarning name)] m.callSpan)
        (Walk.warn setting.host m (Walk.guardText name)) :=
      (follows_warn (Walk.guardText name) m).map fun _ => Value.undefined
    exact (hcall.locate m.callSpan).map fun _ => ()
  unfold leaveStmts
  rw [executeAll, outcome_bind_ok hwarn]
  dsimp only
  rw [executeAll]
  have hbreak : ∀ (place : Span) (t : Machine σ),
      outcome (execute setting turns (.break place) depth) t = (.ok .broke, t) := by
    intro place t
    rw [execute, outcome_bind_ok (outcome_checkDepth (by omega))]
    rfl
  rw [outcome_bind_ok (hbreak _ _)]
  rfl

/-- One turn of a loop of a walk. The answer is whether the guard has let it pass. -/
def Walk.turn {ν : Type} (enter : Walk σ ν Bool) (body : Walk σ ν Unit) : Walk σ ν Bool := do
  if ← enter then
    body
    return true
  else
    return false

/-- A loop takes one turn, and the others if it passes. -/
theorem Walk.outcome_loop_succ {ν : Type} (enter : Walk σ ν Bool) (body : Walk σ ν Unit) (n : Nat)
    (w : Walked σ ν) :
    outcome (loop enter body (n + 1)) w = match outcome (turn enter body) w with
      | (.ok true, w') => outcome (loop enter body n) w'
      | (.ok false, w') => (.ok (), w')
      | (.error e, w') => (.error e, w') := by
  unfold turn
  rw [loop, outcome_bind, outcome_bind]
  rcases outcome enter w with ⟨e | passes, v⟩
  · rfl
  · cases passes with
    | false => rfl
    | true =>
      dsimp only
      rw [if_pos rfl, if_pos rfl, outcome_bind, outcome_bind]
      rcases outcome body v with ⟨e | _, v'⟩ <;> rfl

/-- How a loop body ends. -/
def flowOf (passes : Bool) : Flow :=
  if passes then .normal else .broke

/-- **The guard** at the start of a body begins a turn, and leaves out the rest of a turn that does
not pass. -/
theorem follows_guard {name : String} {m : Marks} {stmts : List Stmt} {y : Walk σ Marks Unit}
    (h : Uncovered inner) (hd : depth + 3 ≤ depthLimit)
    (hbody : ∀ w, Follows setting.source inner (fun _ => Flow.normal) w
      (executeAll setting turns stmts depth) y) :
    Follows setting.source inner flowOf w
      (executeAll setting turns (guardStmts name m.inside ++ stmts) depth)
      (Walk.turn (Walk.enter setting.host m name) y) := by
  unfold Follows guardStmts Walk.turn
  rw [List.cons_append, executeAll, outcome_bind_ok (outcome_increment_guard h (by omega))]
  dsimp only
  rw [List.cons_append, executeAll, execute, bind_assoc,
    outcome_bind_ok (outcome_checkDepth (by omega)), bind_assoc,
    outcome_bind_ok (outcome_locate_ok (outcome_test_guard h (by omega)))]
  by_cases htrip : guardLimit < w.turns + 1
  · rw [decide_eq_true htrip, if_pos rfl,
      outcome_bind_ok (outcome_inScope_at (outcome_leave (by omega))),
      outcome_bind_ok (Walk.outcome_enter_trip _ _ _ htrip)]
    rfl
  · rw [decide_eq_false htrip, if_neg Bool.false_ne_true, outcome_bind_ok (outcome_pure _ _),
      outcome_bind_ok (Walk.outcome_enter_pass _ _ _ htrip)]
    dsimp only
    rw [List.nil_append]
    rw [if_pos rfl, outcome_bind]
    -- the turns that have passed are not seen by the machine
    refine (hbody { w with turns := w.turns + 1, passed := w.passed + 1 }).trans ?_
    rcases outcome y { w with turns := w.turns + 1, passed := w.passed + 1 } with ⟨e | _, w'⟩ <;> rfl

/-! ### Loops -/

/-- A turn that passes is one of the turns below the limit. -/
theorem Walk.turn_passes {host : Host σ} {name : String} {m : Marks} {y : Walk σ Marks Unit}
    (hy : Walk.Keeps Advances y) {w w' : Walked σ Marks}
    (h : outcome (Walk.turn (Walk.enter host m name) y) w = (.ok true, w')) :
    w.turns < guardLimit ∧ w.turns < w'.turns := by
  unfold Walk.turn at h
  by_cases htrip : guardLimit < w.turns + 1
  · rw [outcome_bind_ok (Walk.outcome_enter_trip _ _ _ htrip)] at h
    cases h
  · rw [outcome_bind_ok (Walk.outcome_enter_pass _ _ _ htrip), if_pos rfl, outcome_bind] at h
    have hmore := (hy { w with turns := w.turns + 1, passed := w.passed + 1 }).turns_le
    rcases hv : outcome y { w with turns := w.turns + 1, passed := w.passed + 1 } with ⟨e | _, v⟩
    · rw [hv] at h
      cases h
    · rw [hv] at h hmore
      cases h
      exact ⟨by omega, hmore⟩

variable {host : Host σ} {name : String} {m : Marks} {y : Walk σ Marks Unit}

/-- **A loop without end** takes the turns of the walk. Both bounds are beyond what the guard lets
pass. -/
theorem follows_iterate {turn : Action σ Bool} (hy : Walk.Keeps Advances y)
    (hturn : ∀ w, Follows source inner id w turn (Walk.turn (Walk.enter host m name) y))
    {n bound k : Nat} (hk : k ≤ w.turns) (hlimit : k ≤ guardLimit) (hn : guardLimit < n + k)
    (hbound : guardLimit < bound + k) :
    Follows source inner id w (iterate n turn)
      (Walk.loop (Walk.enter host m name) y bound) := by
  induction n generalizing w bound k with
  | zero => omega
  | succ n ih =>
    obtain ⟨rest, rfl⟩ : ∃ rest, bound = rest + 1 := ⟨bound - 1, by omega⟩
    have hfirst := hturn w
    unfold Follows at hfirst ⊢
    rw [Walk.outcome_loop_succ]
    rcases hw : outcome (Walk.turn (Walk.enter host m name) y) w with ⟨e | passes, w'⟩
    · rw [hw] at hfirst
      rw [outcome_iterate_error hfirst]
      rfl
    · rw [hw] at hfirst
      cases passes with
      | false =>
        rw [outcome_iterate_last hfirst]
        rfl
      | true =>
        obtain ⟨hlow, hmore⟩ := Walk.turn_passes hy hw
        rw [outcome_iterate_next hfirst]
        exact @ih w' rest (k + 1) (by omega) (by omega) (by omega) (by omega)

/-! ### The statements of loops -/

variable {stmts : List Stmt} {bound : Nat}

/-- A loop without end. -/
theorem follows_endless (h : Uncovered inner) (hd : depth + 4 ≤ depthLimit)
    (hy : Walk.Keeps Advances y)
    (hbody : ∀ w, Follows setting.source ([] :: inner) (fun _ => Flow.normal) w
      (executeAll setting turns stmts (depth + 1)) y)
    (hturns : guardLimit < turns) (hbound : guardLimit < bound) :
    Follows setting.source inner (fun _ => Flow.normal) w
      (execute setting turns (Header.endless.stmt depth m (guardStmts name m.inside ++ stmts)) depth)
      (Walk.loop (Walk.enter setting.host m name) y bound) := by
  unfold Header.stmt
  rw [execute]
  unfold Follows
  rw [outcome_bind_ok (outcome_checkDepth (by omega))]
  refine Follows.map (f := id) ?_ fun _ => Flow.normal
  -- the guard leaves the loop before either bound is reached
  refine follows_iterate hy (fun w => ?_) (Nat.zero_le _) (Nat.zero_le _) hturns hbound
  have htest : ∀ place t, outcome (locate place setting.source
      (test setting (.bool true) (depth + 1))) t = (.ok true, t) := fun place t =>
    outcome_locate_ok (outcome_test (outcome_evaluate_bool true (by omega)))
  unfold Follows
  rw [outcome_bind_ok (htest _ _), if_pos rfl]
  have hscope : Follows setting.source inner flowOf w
      (inScope (executeAll setting turns (guardStmts name m.inside ++ stmts) (depth + 1)))
      (Walk.turn (Walk.enter setting.host m name) y) :=
    (follows_guard h.push (by omega) hbody).inScope
  have hmap := hscope.map fun flow => decide (flow = Flow.normal)
  unfold Follows at hmap
  rw [hmap]
  rcases outcome (Walk.turn (Walk.enter setting.host m name) y) w with ⟨e | _ | _, w'⟩ <;> rfl

/-! ### The statements of counted loops -/

theorem loopVariable_ne (depth : Nat) : loopVariable depth ≠ guardVariable := by
  intro h
  have hhead : (loopVariable depth).toList.head? = some 'i' := by
    rw [toList_loopVariable]
    rfl
  rw [h] at hhead
  exact absurd hhead (by decide)

/-- The scope of the header of a counted loop in its turn number `k`. -/
def indexScope (depth k : Nat) : Scope :=
  [(loopVariable depth, .number (Float.ofNat k))]

theorem get?_indexScope (depth k : Nat) :
    (indexScope depth k).get? (loopVariable depth) = some (.number (Float.ofNat k)) :=
  List.lookup_cons_self

theorem Uncovered.index (h : Uncovered inner) (depth k : Nat) :
    Uncovered (indexScope depth k :: inner) := by
  refine List.forall_mem_cons.mpr ⟨?_, h⟩
  have hne : (guardVariable == loopVariable depth) = false :=
    beq_eq_false_iff_ne.mpr (loopVariable_ne depth).symm
  unfold Scope.get? indexScope
  rw [List.lookup_cons, hne]
  rfl

theorem get?_index (k : Nat) :
    (machineAt source (indexScope depth k :: inner) w).env.get? (loopVariable depth)
      = some (.number (Float.ofNat k)) := by
  change List.findSome? _ (indexScope depth k :: (inner ++ _)) = _
  rw [List.findSome?_cons, get?_indexScope]

theorem assign?_index {k : Nat} (hk : k + 1 < exactLimit) :
    (machineAt source (indexScope depth k :: inner) w).env.assign? (loopVariable depth)
        (.number (Float.ofNat k + 1))
      = some (machineAt source (indexScope depth (k + 1) :: inner) w).env := by
  have hput : (indexScope depth k).put (loopVariable depth) (.number (Float.ofNat k + 1))
      = indexScope depth (k + 1) := by
    unfold indexScope
    rw [Scope.put, if_pos rfl, Number.ofNat_add_one hk]
  have hassign : Environment.assignIn? (machineAt source (indexScope depth k :: inner) w).env.inner
      (loopVariable depth) (.number (Float.ofNat k + 1))
        = some (indexScope depth (k + 1) :: inner) := by
    change Environment.assignIn? (indexScope depth k :: inner) _ _ = _
    rw [Environment.assignIn?, get?_indexScope, Option.isSome_some, if_pos rfl, hput]
  rw [Environment.assign?, hassign]
  rfl

/-- The value of a count. -/
theorem outcome_evaluate_count {t : Machine σ} (n : Int) (h : depth + 1 ≤ depthLimit) :
    outcome (evaluate setting (countExpr n) depth) t = (.ok (.number (countValue n)), t) := by
  cases n with
  | ofNat n => exact outcome_evaluate_number _ (by omega)
  | negSucc n => exact outcome_evaluate_negated _ h

/-- The condition of a counted loop. -/
theorem outcome_test_index {n : Int} {k : Nat} {place span : Span} (hk : k < exactLimit)
    (hn : n.natAbs < 2 ^ 64) (h : depth + 3 ≤ depthLimit) :
    outcome (test setting (.binary .less (.var (loopVariable depth) place) (countExpr n) span)
        (depth + 1)) (machineAt source (indexScope depth k :: inner) w)
      = (.ok (decide (k < n.toNat)), machineAt source (indexScope depth k :: inner) w) := by
  refine outcome_test ?_
  rw [outcome_evaluate_binary (by omega) ⟨by decide, by decide⟩
    (outcome_evaluate_var (by omega) (get?_index k)) (outcome_evaluate_count n h)]
  exact congrArg (fun v => (Except.ok v, _)) (compares_index hk hn)

/-- The step of a counted loop. -/
theorem outcome_increment_index {k : Nat} {span : Span} (hk : k + 1 < exactLimit)
    (h : depth + 1 ≤ depthLimit) :
    outcome (executeSimple setting (.increment (loopVariable depth) span) (depth + 1))
        (machineAt source (indexScope depth k :: inner) w)
      = (.ok (), machineAt source (indexScope depth (k + 1) :: inner) w) :=
  outcome_increment h (get?_index k) (assign?_index hk)

/-- **A loop with a count** takes the turns of the walk, from the `k`-th one on. Its scope holds the
number of the turn. -/
theorem iterate_counted {turn : Action σ Bool} {count : Nat}
    (hy : Walk.Keeps Advances y)
    (hlast : ∀ k w, count ≤ k → k ≤ guardLimit →
      outcome turn (machineAt source (indexScope depth k :: inner) w)
        = (.ok false, machineAt source (indexScope depth k :: inner) w))
    (hturn : ∀ k w, k < count → k ≤ guardLimit →
      ∃ k', (∀ w', outcome (Walk.turn (Walk.enter host m name) y) w = (.ok true, w') → k' = k + 1) ∧
        outcome turn (machineAt source (indexScope depth k :: inner) w)
          = followed source (indexScope depth k' :: inner) id
            (outcome (Walk.turn (Walk.enter host m name) y) w))
    {n k : Nat} (hk : k ≤ w.turns) (hlimit : k ≤ guardLimit) (hn : guardLimit < n + k) :
    ∃ k', outcome (iterate n turn)
        (machineAt source (indexScope depth k :: inner) w)
      = followed source (indexScope depth k' :: inner) id
        (outcome (Walk.loop (Walk.enter host m name) y (count - k)) w) := by
  -- on the turns that the bound leaves; the walk counts those that the header leaves
  induction n generalizing w k with
  | zero => omega
  | succ n ih =>
    rcases Nat.lt_or_ge k count with hlt | hge
    · obtain ⟨k', hnext, hfirst⟩ := hturn k w hlt hlimit
      obtain ⟨rest, hrest⟩ : ∃ rest, count - k = rest + 1 := ⟨count - k - 1, by omega⟩
      rw [hrest, Walk.outcome_loop_succ]
      rcases hw : outcome (Walk.turn (Walk.enter host m name) y) w with ⟨e | passes, w'⟩
      · rw [hw] at hfirst
        exact ⟨k', outcome_iterate_error hfirst⟩
      · rw [hw] at hfirst
        cases passes with
        | false => exact ⟨k', outcome_iterate_last hfirst⟩
        | true =>
          -- a turn that passes has raised the counter, so index and counter go up together
          obtain ⟨hlow, hmore⟩ := Walk.turn_passes hy hw
          obtain rfl := hnext w' hw
          have hrest' : rest = count - (k + 1) := by omega
          rw [outcome_iterate_next hfirst, hrest']
          exact ih (by omega) (by omega) (by omega)
    · rw [outcome_iterate_last (hlast k w hge hlimit), Nat.sub_eq_zero_of_le hge]
      exact ⟨k, rfl⟩

/-- One turn of a counted loop on the machine. -/
def countedTurn (setting : Setting σ) (turns depth : Nat) (m : Marks) (n : Int)
    (body : List Stmt) : Action σ Bool := do
  if ← test setting (.binary .less (.var (loopVariable depth) (m.head 7)) (countExpr n)
      ⟨(m.head 7).start, (m.head (8 + (countTokens n).length)).stop⟩) (depth + 1) then
    match ← inScope (executeAll setting turns body (depth + 1)) with
    | .broke => return false
    | .normal =>
      executeSimple setting (.increment (loopVariable depth)
        ⟨(m.head (10 + (countTokens n).length)).start,
          (m.head (11 + (countTokens n).length)).stop⟩) (depth + 1)
      return true
  else
    return false

theorem succ_lt_exactLimit {k : Nat} (h : k ≤ guardLimit) : k + 1 < exactLimit :=
  Nat.lt_of_le_of_lt (Nat.succ_le_succ h) (by decide)

/-- Beyond its count the loop takes no turn. -/
theorem outcome_countedTurn_last {n : Int} {k : Nat} {body : List Stmt}
    (hd : depth + 4 ≤ depthLimit) (hn : n.natAbs < 2 ^ 64) (hk : n.toNat ≤ k)
    (hlimit : k ≤ guardLimit) :
    outcome (countedTurn setting turns depth m n body)
        (machineAt source (indexScope depth k :: inner) w)
      = (.ok false, machineAt source (indexScope depth k :: inner) w) := by
  have hexact := succ_lt_exactLimit hlimit
  unfold countedTurn
  rw [outcome_bind_ok (outcome_test_index (by omega) hn (by omega)), decide_eq_false (by omega)]
  rfl

/-- Below its count the loop takes a turn of the walk. The index goes up with the turns that pass
only, since a turn that does not pass leaves the loop before the step. -/
theorem follows_countedTurn {n : Int} {k : Nat} (h : Uncovered inner)
    (hd : depth + 4 ≤ depthLimit) (hn : n.natAbs < 2 ^ 64)
    (hbody : ∀ w, Follows setting.source ([] :: indexScope depth k :: inner)
      (fun _ => Flow.normal) w (executeAll setting turns stmts (depth + 1)) y)
    (hk : k < n.toNat) (hlimit : k ≤ guardLimit) :
    ∃ k', (∀ w', outcome (Walk.turn (Walk.enter setting.host m name) y) w = (.ok true, w') →
        k' = k + 1) ∧
      outcome (countedTurn setting turns depth m n (guardStmts name m.inside ++ stmts))
          (machineAt setting.source (indexScope depth k :: inner) w)
        = followed setting.source (indexScope depth k' :: inner) id
          (outcome (Walk.turn (Walk.enter setting.host m name) y) w) := by
  have hexact := succ_lt_exactLimit hlimit
  have hscope : Follows setting.source (indexScope depth k :: inner) flowOf w
      (inScope (executeAll setting turns (guardStmts name m.inside ++ stmts) (depth + 1)))
      (Walk.turn (Walk.enter setting.host m name) y) :=
    (follows_guard (h.index depth k).push (by omega) hbody).inScope
  unfold Follows at hscope
  unfold countedTurn
  rw [outcome_bind_ok (outcome_test_index (by omega) hn (by omega)), decide_eq_true hk, if_pos rfl,
    outcome_bind, hscope]
  rcases outcome (Walk.turn (Walk.enter setting.host m name) y) w with ⟨e | passes, w'⟩
  · exact ⟨k, fun _ hw => (by cases hw), rfl⟩
  · cases passes with
    | false => exact ⟨k, fun _ hw => (by cases hw), rfl⟩
    | true =>
      refine ⟨k + 1, fun _ _ => rfl, ?_⟩
      change outcome (executeSimple _ _ _ >>= _) _ = _
      rw [outcome_bind_ok (outcome_increment_index hexact (by omega))]
      rfl

/-- A loop with a count. -/
theorem follows_count {n : Int} (h : Uncovered inner) (hd : depth + 4 ≤ depthLimit)
    (hn : n.natAbs < 2 ^ 64) (hy : Walk.Keeps Advances y)
    (hbody : ∀ k w, Follows setting.source ([] :: indexScope depth k :: inner)
      (fun _ => Flow.normal) w (executeAll setting turns stmts (depth + 1)) y)
    (hturns : guardLimit < turns) :
    Follows setting.source inner (fun _ => Flow.normal) w
      (execute setting turns ((Header.count n).stmt depth m (guardStmts name m.inside ++ stmts))
        depth)
      (Walk.loop (Walk.enter setting.host m name) y n.toNat) := by
  unfold Header.stmt
  rw [execute]
  unfold Follows
  rw [outcome_bind_ok (outcome_checkDepth (by omega))]
  refine Follows.map (f := id) (Follows.locate ?_ _) fun _ => Flow.normal
  have hdeclare : ∀ span, outcome (executeSimple setting
      (.declare (loopVariable depth) (.number (Float.ofNat 0)) span) (depth + 1))
        (machineAt setting.source ([] :: inner) w)
      = (.ok (), machineAt setting.source (indexScope depth 0 :: inner) w) := fun span =>
    outcome_declare (by omega)
  obtain ⟨k', hloop⟩ := iterate_counted (n := turns) hy
    (fun k w hk hlimit => outcome_countedTurn_last hd hn hk hlimit)
    (fun k w hk hlimit => follows_countedTurn h hd hn (hbody k) hk hlimit)
    (Nat.zero_le w.turns) (Nat.zero_le guardLimit) hturns
  rw [Nat.sub_zero] at hloop
  unfold Follows
  -- the scope of the index ends with the loop, whatever the index is by then
  rcases hw : outcome (Walk.loop (Walk.enter setting.host m name) y n.toNat) w with ⟨e | _, w'⟩
  · rw [hw] at hloop
    exact outcome_inScope_at ((outcome_bind_ok (hdeclare _)).trans hloop)
  · rw [hw] at hloop
    exact outcome_inScope_at ((outcome_bind_ok (hdeclare _)).trans hloop)

end Run

/-! ### Code -/

namespace Code

variable {setting : Setting σ} {turns bound : Nat}

theorem keeps_walkAll_advances (world : World σ) (bound : Nat) (cs : List (Code Marks)) :
    Walk.Keeps Advances (walkAll world bound cs) :=
  walkAll_keeps (stepsKeep_advances world) cs

theorem follows_stmtAll_of {cs : List (Code Marks)} {depth : Nat} {inner : List Scope}
    (h : ∀ c ∈ cs, ∀ w, Follows setting.source inner (fun _ => Flow.normal) w
      (execute setting turns (c.stmt depth) depth) (c.walk setting.toWorld bound))
    (w : Walked σ Marks) :
    Follows setting.source inner (fun _ => Flow.normal) w
      (executeAll setting turns (stmtAll depth cs) depth) (walkAll setting.toWorld bound cs) := by
  induction cs generalizing w with
  | nil =>
    rw [stmtAll, executeAll, walkAll]
    rfl
  | cons c cs ih =>
    rw [stmtAll, executeAll, walkAll]
    exact (h c List.mem_cons_self w).bind fun _ w' _ =>
      ih (fun d hd => h d (List.mem_cons_of_mem c hd)) w'

/-- **The statement of code** does what the walk of the code does, at any depth that a workspace
allows. -/
theorem follows_stmt (c : Code Marks) {depth : Nat} {inner : List Scope}
    (hd : depth + c.height ≤ heightLimit) (hfits : ∀ header ∈ c.headers, header.Fits)
    (hturns : guardLimit < turns) (hbound : guardLimit < bound) (h : Uncovered inner)
    (w : Walked σ Marks) :
    Follows setting.source inner (fun _ => Flow.normal) w
      (execute setting turns (c.stmt depth) depth) (c.walk setting.toWorld bound) := by
  induction c using Code.induction generalizing depth inner w with
  | call m verb argument =>
    have hroom : depth + 2 ≤ depthLimit := by
      unfold heightLimit at hd
      unfold depthLimit
      omega
    rw [stmt, walk]
    exact follows_callStmt hroom (follows_call verb m argument)
  | loop m header body ih =>
    -- the limit on depth leaves room for the guard below the limit on height
    have hroom : depth + 4 ≤ depthLimit := by
      unfold heightLimit at hd
      unfold depthLimit
      omega
    obtain ⟨hheader, hbody⟩ := List.forall_mem_cons.mp hfits
    have hlow : ∀ c ∈ body, depth + 1 + c.height ≤ heightLimit := by
      intro c hc
      have hle := heightAll_le.mp (le_refl (heightAll body)) c hc
      rw [height] at hd
      omega
    have hfollows : ∀ {inner}, Uncovered inner → ∀ w,
        Follows setting.source inner (fun _ => Flow.normal) w
          (executeAll setting turns (stmtAll (depth + 1) body) (depth + 1))
          (walkAll setting.toWorld bound body) := fun hinner =>
      follows_stmtAll_of fun c hc => ih c hc (hlow c hc)
        (fun header hmem => hbody header (mem_headersAll.mpr ⟨c, hc, hmem⟩)) hinner
    have hkeeps := keeps_walkAll_advances setting.toWorld bound body
    rw [stmt, walk]
    cases header with
    | count n =>
      exact follows_count h hroom hheader.natAbs_lt hkeeps
        (fun k => hfollows (h.index depth k).push) hturns
    | endless => exact follows_endless h hroom hkeeps (hfollows h.push) hturns hbound

theorem follows_executeTop {cs : List (Code Marks)} (hd : ∀ c ∈ cs, c.height ≤ heightLimit)
    (hfits : ∀ header ∈ headersAll cs, header.Fits) (hturns : guardLimit < turns)
    (hbound : guardLimit < bound) (w : Walked σ Marks) :
    Follows setting.source [] id w (executeTop setting turns (stmtAll 0 cs))
      (walkAll setting.toWorld bound cs) := by
  induction cs generalizing w with
  | nil =>
    rw [stmtAll, executeTop, walkAll]
    rfl
  | cons c cs ih =>
    obtain ⟨hc, hcs⟩ := List.forall_mem_cons.mp hd
    obtain ⟨hfit, hfitAll⟩ := List.forall_mem_append.mp hfits
    -- at the top no scope is open, so no name is covered
    have hfirst : Follows setting.source [] (fun _ => Flow.normal) w
        (execute setting turns (c.stmt 0) 0) (c.walk setting.toWorld bound) :=
      follows_stmt c (by omega) hfit hturns hbound
        (fun _ hmem => absurd hmem List.not_mem_nil) w
    rw [stmtAll, executeTop, walkAll]
    exact hfirst.bind fun _ w' _ => ih hcs hfitAll w'

end Code

/-- **The statements of a program** do what the walk of its code does from the start. -/
theorem follows_program {cs : List (Code Marks)} {world : World σ} {turns bound : Nat}
    (hd : ∀ c ∈ cs, c.height ≤ heightLimit) (hfits : ∀ header ∈ Code.headersAll cs, header.Fits)
    (hturns : guardLimit < turns) (hbound : guardLimit < bound) (place : Nat → Span)
    (source : Nat) (host : σ) :
    run world turns ⟨preludeStmt place :: Code.stmtAll 0 cs, source⟩ (.start host)
      = followed source [] id (outcome (Code.walkAll world bound cs) (.start host)) := by
  have hprelude : ∀ span, outcome (execute ⟨world, source⟩ turns
      (.simple (.declare guardVariable (.number (Float.ofNat 0)) span)) 0) (Machine.start host)
      = (.ok .normal, machineAt source [] (.start host)) := by
    intro span
    rw [execute, outcome_bind_ok (outcome_declare (by decide))]
    rfl
  change outcome (executeTop _ _ _) _ = _
  rw [executeTop, preludeStmt, outcome_bind_ok (hprelude _)]
  exact Code.follows_executeTop hd hfits hturns hbound (.start host)

end Blockwork
