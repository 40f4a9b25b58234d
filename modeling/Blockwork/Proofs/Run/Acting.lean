import Mathlib
import Blockwork.Proofs.Computation
import Blockwork.Run.Execute

/-!
# What actions do to a machine

One lemma for each construct of the machine, in the form that a run is followed with: the outcome
from a machine whose variables are known. Depths are those of statements of compiled programs, far
from the limit. A `for` loop, the one statement with parts that may be missing, is taken apart into
actions with names (`execute_for`).
-/

namespace Blockwork.Run

open Script Blockwork.Run.Action

variable {σ α β : Type}

/-! ### Constructs of actions -/

theorem outcome_modifyEnv (f : Environment → Environment) (m : Machine σ) :
    outcome (modifyEnv f : Action σ Unit) m = (.ok (), { m with env := f m.env }) := rfl

theorem outcome_locate (span : Span) (source : Nat) (x : Action σ α) (m : Machine σ) :
    outcome (locate span source x) m = match outcome x m with
      | (.error d, t) => (.error (d.locate span source), t)
      | (.ok a, t) => (.ok a, t) := by
  refine (outcome_mk x _ m).trans ?_
  rcases outcome x m with ⟨_ | _, t⟩ <;> rfl

theorem outcome_locate_ok {span : Span} {source : Nat} {x : Action σ α} {m t : Machine σ} {a : α}
    (h : outcome x m = (.ok a, t)) : outcome (locate span source x) m = (.ok a, t) := by
  rw [outcome_locate, h]

theorem outcome_inScope (x : Action σ α) (m : Machine σ) :
    outcome (inScope x) m
      = ((outcome x { m with env := m.env.push }).1,
          { (outcome x { m with env := m.env.push }).2 with
            env := (outcome x { m with env := m.env.push }).2.env.pop }) := by
  rfl

theorem outcome_ask (request : σ → Except String α × σ) (m : Machine σ) :
    outcome (ask request) m = match request m.host with
      | (.ok a, host) => (.ok a, { m with host })
      | (.error text, host) => (.error (.ofCause (.hostFailure text)), { m with host }) := by
  unfold ask
  rw [outcome_bind_ok (outcome_get m)]
  rcases request m.host with ⟨_ | _, host⟩ <;> rfl

theorem outcome_warn (setting : Setting σ) (text : String) (span : Span) (m : Machine σ) :
    outcome (warn setting text span) m
      = (.ok (), { m with
          host := setting.host.warn text m.host
          diagnostics :=
            m.diagnostics.push ⟨.custom text, some span, setting.source, true⟩ }) := rfl

theorem outcome_iterate_last {turns : Nat} {turn : Action σ Bool} {m t : Machine σ}
    (h : outcome turn m = (.ok false, t)) : outcome (iterate (turns + 1) turn) m = (.ok (), t) := by
  rw [iterate, outcome_bind_ok h]
  rfl

theorem outcome_iterate_next {turns : Nat} {turn : Action σ Bool} {m t : Machine σ}
    (h : outcome turn m = (.ok true, t)) :
    outcome (iterate (turns + 1) turn) m = outcome (iterate turns turn) t := by
  rw [iterate, outcome_bind_ok h]
  rfl

theorem outcome_iterate_error {turns : Nat} {turn : Action σ Bool} {m t : Machine σ}
    {d : Diagnostic} (h : outcome turn m = (.error d, t)) :
    outcome (iterate (turns + 1) turn) m = (.error d, t) := by
  rw [iterate, outcome_bind_error h]

/-! ### Expressions -/

variable {setting : Setting σ} {m : Machine σ} {depth : Nat}

theorem outcome_evaluate_number (x : Float) (h : depth ≤ depthLimit) :
    outcome (evaluate setting (.number x) depth) m = (.ok (.number x), m) := by
  rw [evaluate, if_neg (Nat.not_lt.mpr h)]
  rfl

theorem outcome_evaluate_text (s : String) (h : depth ≤ depthLimit) :
    outcome (evaluate setting (.text s) depth) m = (.ok (.text s), m) := by
  rw [evaluate, if_neg (Nat.not_lt.mpr h)]
  rfl

theorem outcome_evaluate_bool (b : Bool) (h : depth ≤ depthLimit) :
    outcome (evaluate setting (.bool b) depth) m = (.ok (.bool b), m) := by
  rw [evaluate, if_neg (Nat.not_lt.mpr h)]
  rfl

theorem outcome_readVariable {name : String} {value : Value} (h : m.env.get? name = some value) :
    outcome (readVariable name) m = (.ok value, m) := by
  unfold readVariable
  rw [outcome_bind_ok (outcome_get m), h]
  rfl

theorem outcome_assignVariable {name : String} {value : Value} {env : Environment}
    (h : m.env.assign? name value = some env) :
    outcome (assignVariable name value) m = (.ok (), { m with env }) := by
  unfold assignVariable
  rw [outcome_bind_ok (outcome_get m), h]
  rfl

theorem outcome_evaluate_var {name : String} {span : Span} {value : Value}
    (h : depth ≤ depthLimit) (hvalue : m.env.get? name = some value) :
    outcome (evaluate setting (.var name span) depth) m = (.ok value, m) := by
  rw [evaluate, if_neg (Nat.not_lt.mpr h)]
  exact outcome_locate_ok (outcome_readVariable hvalue)

theorem outcome_evaluate_negated (x : Float) (h : depth + 1 ≤ depthLimit) :
    outcome (evaluate setting (.unary .negate (.number x)) depth) m = (.ok (.number (-x)), m) := by
  rw [evaluate, if_neg (by omega)]
  rw [outcome_bind_ok (outcome_evaluate_number x h)]
  rfl

/-- A comparison. -/
theorem outcome_evaluate_binary {op : BinaryOp} {left right : Expr} {span : Span} {l r : Value}
    (h : depth ≤ depthLimit) (hop : op ≠ .and ∧ op ≠ .or)
    (hl : outcome (evaluate setting left (depth + 1)) m = (.ok l, m))
    (hr : outcome (evaluate setting right (depth + 1)) m = (.ok r, m)) :
    outcome (evaluate setting (.binary op left right span) depth) m
      = (.ok (applyBinary op l r), m) := by
  obtain ⟨hand, hor⟩ := hop
  rw [evaluate, if_neg (Nat.not_lt.mpr h)]
  rw [outcome_bind_ok hl]
  split
  · exact absurd rfl hand
  · exact absurd rfl hor
  · rw [outcome_bind_ok hr]
    rfl

/-- A call with a text. -/
theorem outcome_evaluate_call {f s : String} {span : Span} (h : depth + 1 ≤ depthLimit) :
    outcome (evaluate setting (.call f [.text s] span) depth) m
      = outcome (locate span setting.source (callFunction setting f [.text s] span)) m := by
  rw [evaluate, if_neg (by omega)]
  have hvalues : outcome (evaluateAll setting [.text s] (depth + 1)) m = (.ok [.text s], m) := by
    rw [evaluateAll, outcome_bind_ok (outcome_evaluate_text s h), evaluateAll]
    rfl
  rw [outcome_bind_ok hvalues]

/-! ### Statements -/

theorem outcome_checkDepth {span : Span} (h : depth ≤ depthLimit) :
    outcome (checkDepth setting depth span) m = (.ok (), m) := by
  unfold checkDepth
  rw [if_neg (Nat.not_lt.mpr h)]
  rfl

theorem outcome_test {condition : Expr} {b : Bool}
    (h : outcome (evaluate setting condition depth) m = (.ok (.bool b), m)) :
    outcome (test setting condition depth) m = (.ok b, m) := by
  unfold test
  rw [outcome_bind_ok h]
  rfl

/-- Counting a variable up. -/
theorem outcome_increment {name : String} {span : Span} {x : Float} {env : Environment}
    (h : depth ≤ depthLimit) (hget : m.env.get? name = some (.number x))
    (hassign : m.env.assign? name (.number (x + 1)) = some env) :
    outcome (executeSimple setting (.increment name span) depth) m = (.ok (), { m with env }) := by
  unfold executeSimple
  rw [outcome_bind_ok (outcome_checkDepth h)]
  refine outcome_locate_ok ?_
  dsimp only
  rw [outcome_bind_ok (outcome_readVariable hget)]
  exact outcome_assignVariable hassign

theorem outcome_declare {name : String} {span : Span} {x : Float} (h : depth + 1 ≤ depthLimit) :
    outcome (executeSimple setting (.declare name (.number x) span) depth) m
      = (.ok (), { m with env := m.env.declare name (.number x) }) := by
  unfold executeSimple
  rw [outcome_bind_ok (outcome_checkDepth (by omega))]
  refine outcome_locate_ok ?_
  dsimp only
  rw [outcome_bind_ok (outcome_evaluate_number x h)]
  rfl

/-! ### The parts of a `for` loop -/

/-- A part of the header of a loop, which may be missing. -/
def executeOptional (setting : Setting σ) (s : Option Simple) (depth : Nat) : Action σ Unit :=
  match s with
  | some s => executeSimple setting s depth
  | none => pure ()

/-- Whether a loop goes on. A missing condition always holds. -/
def testOptional (setting : Setting σ) (condition : Option Expr) (depth : Nat) : Action σ Bool :=
  match condition with
  | some c => test setting c depth
  | none => pure true

/-- A turn of a `for` loop, which says whether another one is to follow. -/
def forTurn (setting : Setting σ) (turns : Nat) (condition : Option Expr) (update : Option Simple)
    (body : List Stmt) (depth : Nat) : Action σ Bool := do
  if ← testOptional setting condition (depth + 1) then
    match ← inScope (executeAll setting turns body (depth + 1)) with
    | .broke => return false
    | .normal =>
      executeOptional setting update (depth + 1)
      return true
  else
    return false

/-- **A `for` loop** by its parts. -/
theorem execute_for (setting : Setting σ) (turns : Nat) (first : Option Simple)
    (condition : Option Expr) (update : Option Simple) (body : List Stmt) (span : Span)
    (depth : Nat) :
    execute setting turns (.for first condition update body span) depth = (do
      checkDepth setting depth span
      locate span setting.source <| inScope do
        executeOptional setting first (depth + 1)
        iterate turns (forTurn setting turns condition update body depth)
      return .normal) := by
  rw [execute]
  unfold forTurn
  cases first <;> cases condition <;> cases update <;> rfl

end Blockwork.Run
