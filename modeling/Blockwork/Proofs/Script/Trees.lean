import Mathlib
import Blockwork.Script.Syntax

/-!
# Syntax trees

Two things about syntax trees that are used wherever something is said of all of them: induction,
where the hypothesis covers the arguments of a call and the statements of a body, and the tree with
its places forgotten (`Expr.unplaced`, `Stmt.unplaced`), which is what a text says wherever it
stands.
-/

namespace Blockwork.Script

/-! ### Induction -/

/-- **Induction over expressions.** -/
theorem Expr.induction {motive : Expr → Prop}
    (number : ∀ x, motive (.number x)) (text : ∀ s, motive (.text s))
    (bool : ∀ b, motive (.bool b)) (var : ∀ name span, motive (.var name span))
    (call : ∀ f arguments span, (∀ e ∈ arguments, motive e) → motive (.call f arguments span))
    (unary : ∀ op e, motive e → motive (.unary op e))
    (binary : ∀ op l r span, motive l → motive r → motive (.binary op l r span)) :
    ∀ e, motive e
  | .number x => number x
  | .text s => text s
  | .bool b => bool b
  | .var name span => var name span
  | .call f arguments span =>
    call f arguments span fun e _ => induction number text bool var call unary binary e
  | .unary op e => unary op e (induction number text bool var call unary binary e)
  | .binary op l r span =>
    binary op l r span (induction number text bool var call unary binary l)
      (induction number text bool var call unary binary r)

/-- **Induction over statements.** -/
theorem Stmt.induction {motive : Stmt → Prop}
    (simple : ∀ s, motive (.simple s))
    (ifThen : ∀ c body span, (∀ s ∈ body, motive s) → motive (.ifThen c body span))
    (ifElse : ∀ c body otherwise span, (∀ s ∈ body, motive s) → (∀ s ∈ otherwise, motive s) →
      motive (.ifElse c body otherwise span))
    (while_ : ∀ c body span, (∀ s ∈ body, motive s) → motive (.while c body span))
    (for_ : ∀ first c update body span, (∀ s ∈ body, motive s) →
      motive (.for first c update body span))
    (break_ : ∀ span, motive (.break span))
    (block : ∀ body span, (∀ s ∈ body, motive s) → motive (.block body span)) :
    ∀ s, motive s
  | .simple s => simple s
  | .ifThen c body span =>
    ifThen c body span fun s _ => induction simple ifThen ifElse while_ for_ break_ block s
  | .ifElse c body otherwise span =>
    ifElse c body otherwise span
      (fun s _ => induction simple ifThen ifElse while_ for_ break_ block s)
      (fun s _ => induction simple ifThen ifElse while_ for_ break_ block s)
  | .while c body span =>
    while_ c body span fun s _ => induction simple ifThen ifElse while_ for_ break_ block s
  | .for first c update body span =>
    for_ first c update body span fun s _ =>
      induction simple ifThen ifElse while_ for_ break_ block s
  | .break span => break_ span
  | .block body span =>
    block body span fun s _ => induction simple ifThen ifElse while_ for_ break_ block s

/-! ### Syntax without places -/

mutual

/-- An expression with its places forgotten. -/
def Expr.unplaced : Expr → Expr
  | .number x => .number x
  | .text s => .text s
  | .bool b => .bool b
  | .var name _ => .var name default
  | .call f arguments _ => .call f (Expr.unplacedAll arguments) default
  | .unary op e => .unary op e.unplaced
  | .binary op l r _ => .binary op l.unplaced r.unplaced default

def Expr.unplacedAll : List Expr → List Expr
  | [] => []
  | e :: es => e.unplaced :: Expr.unplacedAll es

end

/-- A simple statement with its places forgotten. -/
def Simple.unplaced : Simple → Simple
  | .declare name e _ => .declare name e.unplaced default
  | .assign name kind e _ => .assign name kind e.unplaced default
  | .increment name _ => .increment name default
  | .evaluate e _ => .evaluate e.unplaced default

mutual

/-- A statement with its places forgotten. -/
def Stmt.unplaced : Stmt → Stmt
  | .simple s => .simple s.unplaced
  | .ifThen e body _ => .ifThen e.unplaced (Stmt.unplacedAll body) default
  | .ifElse e body otherwise _ =>
    .ifElse e.unplaced (Stmt.unplacedAll body) (Stmt.unplacedAll otherwise) default
  | .while e body _ => .while e.unplaced (Stmt.unplacedAll body) default
  | .for first e update body _ =>
    .for (first.map Simple.unplaced) (e.map Expr.unplaced) (update.map Simple.unplaced)
      (Stmt.unplacedAll body) default
  | .break _ => .break default
  | .block body _ => .block (Stmt.unplacedAll body) default

def Stmt.unplacedAll : List Stmt → List Stmt
  | [] => []
  | s :: ss => s.unplaced :: Stmt.unplacedAll ss

end

theorem Expr.unplacedAll_eq (es : List Expr) : Expr.unplacedAll es = es.map Expr.unplaced := by
  induction es with
  | nil => rfl
  | cons e es ih => rw [Expr.unplacedAll, ih, List.map_cons]

theorem Stmt.unplacedAll_eq (ss : List Stmt) : Stmt.unplacedAll ss = ss.map Stmt.unplaced := by
  induction ss with
  | nil => rfl
  | cons s ss ih => rw [Stmt.unplacedAll, ih, List.map_cons]

end Blockwork.Script
