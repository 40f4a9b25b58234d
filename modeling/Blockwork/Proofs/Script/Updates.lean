import Mathlib
import Blockwork.Proofs.Script.Enclosing

/-!
# Updates of loop headers

The header of a `for` loop may begin with a declaration, and its update must not be one. The reader
of headers sees to it, so it is so of every `for` loop in a program that has been read, however far
inside (`Program.isDeclaration_update`).

Every statement of a program is given by the same reader, so what is shown of this reader holds
everywhere in the program (`Stmt.Everywhere`).
-/

namespace Blockwork.Script

/-! ### Everywhere in a statement -/

/-- The property holds of the statement and of all statements in it. -/
def Stmt.Everywhere (P : Stmt → Prop) (s : Stmt) : Prop :=
  ∀ steps t, s.Way steps t → P t

variable {P : Stmt → Prop}

theorem Stmt.everywhere_of_inner {s : Stmt} (hs : P s)
    (h : ∀ p ∈ s.inner, p.2.Everywhere P) : s.Everywhere P := by
  intro steps u hway
  cases hway with
  | here => exact hs
  | into hmem hway => exact h _ hmem _ u hway

/-- A statement with one body. -/
theorem Stmt.everywhere_of_body {s : Stmt} {body : List Stmt} (hs : P s)
    (hinner : s.inner = body.map (Step.body, ·)) (hbody : ∀ t ∈ body, t.Everywhere P) :
    s.Everywhere P := by
  refine everywhere_of_inner hs ?_
  rw [hinner]
  exact List.forall_mem_map.mpr hbody

/-- A statement with no statements in it. -/
theorem Stmt.everywhere_of_leaf {s : Stmt} (hs : P s) (hinner : s.inner = []) :
    s.Everywhere P := by
  refine everywhere_of_inner hs ?_
  rw [hinner]
  exact List.forall_mem_nil _

/-- The update of the loop, if it is a `for` loop, is no declaration. -/
def Stmt.PlainUpdate : Stmt → Prop
  | .for _ _ update _ _ => ∀ u ∈ update, u.isDeclaration = false
  | _ => True

namespace Parser

variable {bound : Nat} {block : Parser (List Stmt)} {expr : Parser Expr}

/-! ### What the readers give -/

/-- The statements of a body. -/
def PlainBody (ss : List Stmt) : Prop :=
  ∀ s ∈ ss, s.Everywhere Stmt.PlainUpdate

theorem plain_conditional (hblock : Gives PlainBody block) (bound : Nat) :
    Gives (Stmt.Everywhere Stmt.PlainUpdate) (conditional block expr bound) := by
  induction bound with
  | zero => exact gives_failHere _
  | succ bound ih =>
    rw [conditional]
    refine gives_then fun place => gives_then fun _ => gives_then fun e =>
      hblock.bind fun body hbody => gives_then fun more => ?_
    cases more with
    | false =>
      exact gives_then fun _ => gives_pure (Stmt.everywhere_of_body trivial rfl hbody)
    | true =>
      have hwhole {otherwise : List Stmt} (span : Span) (hotherwise : PlainBody otherwise) :
          (Stmt.ifElse e body otherwise span).Everywhere Stmt.PlainUpdate :=
        Stmt.everywhere_of_inner trivial (List.forall_mem_append.mpr
          ⟨List.forall_mem_map.mpr hbody, List.forall_mem_map.mpr hotherwise⟩)
      refine gives_then fun next => ?_
      split
      · exact ih.bind fun s hs => gives_pure_bind <| gives_then fun _ =>
          gives_pure (hwhole _ (List.forall_mem_singleton.mpr hs))
      · exact hblock.bind fun otherwise h => gives_then fun _ => gives_pure (hwhole _ h)

/-- **Updates are read as simple statements, and declarations are refused.** -/
theorem gives_update_plain : Gives (·.isDeclaration = false) (update expr) := by
  unfold update
  refine gives_then fun s => ?_
  split
  · exact gives_throw _
  · next hs => exact gives_pure (Bool.eq_false_iff.mpr hs)

theorem plain_forLoop (hblock : Gives PlainBody block) :
    Gives (Stmt.Everywhere Stmt.PlainUpdate) (forLoop block expr) := by
  unfold forLoop
  refine gives_then fun place => gives_then fun _ => gives_then fun _ => gives_then fun first => ?_
  refine gives_then fun _ => gives_then fun e => gives_then fun _ => ?_
  refine (gives_optional gives_update_plain).bind fun step hstep => gives_then fun _ => ?_
  refine hblock.bind fun body hbody => gives_then fun _ => gives_pure ?_
  -- the statements of the header stand inside the loop too
  refine Stmt.everywhere_of_inner hstep (List.forall_mem_append.mpr ⟨?_, ?_⟩)
  · exact List.forall_mem_map.mpr fun s _ => Stmt.everywhere_of_leaf trivial rfl
  · exact List.forall_mem_map.mpr hbody

theorem plain_statement (hblock : Gives PlainBody block) (bound : Nat) :
    Gives (Stmt.Everywhere Stmt.PlainUpdate) (statement bound block expr) := by
  unfold statement
  refine gives_then fun place => gives_then fun next => ?_
  split
  · exact hblock.bind fun body hbody => gives_then fun _ =>
      gives_pure (Stmt.everywhere_of_body trivial rfl hbody)
  · exact plain_conditional hblock bound
  · exact gives_then fun _ => gives_then fun e => hblock.bind fun body hbody =>
      gives_then fun _ => gives_pure (Stmt.everywhere_of_body trivial rfl hbody)
  · exact plain_forLoop hblock
  · exact gives_then fun _ => gives_then fun _ => gives_then fun _ =>
      gives_pure (Stmt.everywhere_of_leaf trivial rfl)
  · exact gives_then fun s => gives_then fun _ =>
      gives_pure (Stmt.everywhere_of_leaf trivial rfl)

theorem plain_blockRest {opening : Span} {reader : Parser Stmt}
    (h : Gives (Stmt.Everywhere Stmt.PlainUpdate) reader) :
    Gives PlainBody (blockRest opening reader bound) := by
  induction bound with
  | zero => exact gives_throw _
  | succ bound ih =>
    rw [blockRest]
    refine gives_then fun closes => ?_
    cases closes with
    | true => exact gives_pure (List.forall_mem_nil _)
    | false =>
      refine gives_then fun rest => ?_
      dsimp only
      split
      · exact gives_throw _
      · exact h.bind fun first hfirst => ih.bind fun others hothers =>
          gives_pure (List.forall_mem_cons.mpr ⟨hfirst, hothers⟩)

theorem plain_blockAt (bound room : Nat) : Gives PlainBody (blockAt bound room) := by
  induction room with
  | zero => exact gives_failHere _
  | succ room ih =>
    rw [blockAt]
    exact gives_then fun opening => plain_blockRest (plain_statement ih bound)

end Parser

/-- **No update of a `for` loop in a program is a declaration.** -/
theorem Program.isDeclaration_update {text : String} {source : Nat} {p : Program} {s : Stmt}
    {steps : List Step} {first update : Option Simple} {c : Option Expr} {body : List Stmt}
    {span : Span} (h : Program.parse text source = .ok p) (hs : s ∈ p.statements)
    (hway : s.Way steps (.for first c update body span)) :
    ∀ u ∈ update, u.isDeclaration = false := by
  have hreader (bound : Nat) : Parser.Gives (Stmt.Everywhere Stmt.PlainUpdate)
      (Parser.topStatement bound) :=
    Parser.plain_statement (Parser.plain_blockAt bound nestingLimit) bound
  exact Program.forall_statements_of_parse hreader h s hs steps _ hway

end Blockwork.Script
