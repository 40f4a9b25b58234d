import Mathlib
import Blockwork.Proofs.Block.Parsing
import Blockwork.Proofs.Script.Trees

/-!
# The statements of a workspace

What the program of a workspace has to say can be read off its trees without writing any text: a
call for each command, a loop for each container, with the guard at the beginning of its body and
then the statements of its children (`Block.intended`). The program that is read back from the text
of a well placed workspace has these statements and no others (`Workspace.parse_executable`), up to
the places in the source that statements carry (`Stmt.unplaced`). So no text in a slot, whatever
characters it is made of, becomes anything but the literal that it is written as.
-/

namespace Blockwork

open Script
open Fragment (guardVariable guardLimit loopVariable)

variable {ι ν μ : Type}

namespace Script

/-! ### The statements that are written -/

namespace Stmt

/-- The declaration of the counter. -/
def counter : Stmt :=
  .simple (.declare guardVariable (.number (Float.ofNat 0)) default)

/-- A call whose one argument is the given text. -/
def callWith (function text : String) : Stmt :=
  .simple (.evaluate (.call function [.text text] default) default)

/-- Counting a turn, and leaving the loop with a warning once there have been too many. -/
def guard (loop : String) : List Stmt :=
  [.simple (.increment guardVariable default),
    .ifThen
      (.binary .greater (.var guardVariable default) (.number (Float.ofNat guardLimit)) default)
      [callWith "warn" s!"Loop guard tripped in {loop}", .break default] default]

/-- A guarded loop of `n` turns, at a depth that gives its variable the name. -/
def counted (depth : Nat) (n : Int) (body : List Stmt) : Stmt :=
  .for (some (.declare (loopVariable depth) (.number (Float.ofNat 0)) default))
    (some (.binary .less (.var (loopVariable depth) default) (countExpr n) default))
    (some (.increment (loopVariable depth) default)) (guard "repeat" ++ body) default

/-- A guarded loop without end. -/
def endless (body : List Stmt) : Stmt :=
  .while (.bool true) (guard "forever" ++ body) default

end Stmt

end Script

/-- The statement of a block of this kind, given the text of each slot and the statements of the
children. A reporter is part of the statement of another block. -/
def Kind.intended (kind : Kind) (depth : Nat) (input : String → String) (body : List Stmt) :
    Option Stmt :=
  match kind with
  | .print => some (.callWith "print" (input "input1"))
  | .alert => some (.callWith "alert" (input "input1"))
  | .confirm => some (.callWith "confirm" (input "input1"))
  | .prompt => some (.callWith "prompt" (input "input1"))
  | .value => none
  | .repeat =>
    some (.counted depth (repeatCount (input "input1") (kind.defaultText "input1")) body)
  | .forever => some (.endless body)
  | .addSprite => some (.callWith "draw_sprite" (input "imageinput1"))

mutual

/-- The statement of a block at a depth. There is none for a block of unknown type. -/
def Block.intended (r : Registry) (depth : Nat) : Block ι → Option Stmt
  | .mk i t slots children =>
    (r.kind? t).bind fun kind =>
      kind.intended depth ((Block.mk i t slots children).slotText r)
        (Block.intendedAll r (depth + 1) children)

/-- The statements of blocks, one after the other. -/
def Block.intendedAll (r : Registry) (depth : Nat) : List (Block ι) → List Stmt
  | [] => []
  | b :: rest => (Block.intended r depth b).toList ++ Block.intendedAll r depth rest

end

theorem Block.intendedAll_eq (r : Registry) (depth : Nat) (bs : List (Block ι)) :
    Block.intendedAll r depth bs = bs.filterMap (Block.intended r depth) := by
  induction bs with
  | nil => rfl
  | cons b rest ih =>
    rw [Block.intendedAll, ih]
    cases hb : b.intended r depth with
    | none => rw [List.filterMap_cons_none hb]; rfl
    | some s => rw [List.filterMap_cons_some hb]; rfl

/-- **One statement each.** The commands and containers of known types have a statement, and no
other blocks have. -/
theorem Block.isSome_intended_iff (r : Registry) (depth : Nat) (b : Block ι) :
    (b.intended r depth).isSome ↔ (r.kind? b.type).isSome ∧ b.shape? r ≠ some .reporter := by
  obtain ⟨i, t, slots, children⟩ := b
  change ((r.kind? t).bind _).isSome = true
    ↔ (r.kind? t).isSome = true ∧ (r.kind? t).map Kind.shape ≠ some .reporter
  cases r.kind? t with
  | none => simp
  | some kind => cases kind <;> simp [Kind.intended, Kind.shape, Kind.definition, Kind.oneText]

/-! ### The statements of code -/

/-- The loop of a header around a body. -/
def Header.intended (depth : Nat) (body : List Stmt) : Header → Stmt
  | .count n => .counted depth n body
  | .endless => .endless body

namespace Code

mutual

/-- The statement of code, without places. -/
def intended (depth : Nat) : Code ν → Stmt
  | .call _ verb argument => .callWith verb.function argument
  | .loop _ header body => header.intended depth (intendedAll (depth + 1) body)

def intendedAll (depth : Nat) : List (Code ν) → List Stmt
  | [] => []
  | c :: cs => intended depth c :: intendedAll depth cs

end

theorem intendedAll_append (depth : Nat) (cs ds : List (Code ν)) :
    intendedAll depth (cs ++ ds) = intendedAll depth cs ++ intendedAll depth ds := by
  induction cs with
  | nil => rfl
  | cons c cs ih => rw [List.cons_append, intendedAll, intendedAll, ih, List.cons_append]

theorem intendedAll_mapAll_of {f : ν → μ} {depth : Nat} {cs : List (Code ν)}
    (h : ∀ c ∈ cs, (c.map f).intended depth = c.intended depth) :
    intendedAll depth (mapAll f cs) = intendedAll depth cs := by
  induction cs with
  | nil => rfl
  | cons c cs ih =>
    rw [mapAll, intendedAll, intendedAll, h c List.mem_cons_self,
      ih fun d hd => h d (List.mem_cons_of_mem c hd)]

/-- The labels of code are not part of what it says. -/
theorem intended_map (f : ν → μ) (c : Code ν) (depth : Nat) :
    (c.map f).intended depth = c.intended depth := by
  induction c using Code.induction generalizing depth with
  | call => rfl
  | loop label header body ih =>
    rw [map, intended, intended, intendedAll_mapAll_of fun c hc => ih c hc (depth + 1)]

theorem intendedAll_eq_of_bareAll_eq {cs : List (Code ν)} {ds : List (Code μ)}
    (h : bareAll cs = bareAll ds) (depth : Nat) :
    intendedAll depth cs = intendedAll depth ds :=
  calc intendedAll depth cs
    _ = intendedAll depth (bareAll cs) :=
      (intendedAll_mapAll_of fun c _ => intended_map _ c depth).symm
    _ = intendedAll depth (bareAll ds) := by rw [h]
    _ = intendedAll depth ds := intendedAll_mapAll_of fun c _ => intended_map _ c depth

end Code

theorem unplaced_callStmt (f s : String) (place : Nat → Span) (k : Nat) :
    (callStmt f s place k).unplaced = .callWith f s :=
  rfl

theorem unplaced_guardStmts (loop : String) (place : Nat → Span) :
    Stmt.unplacedAll (guardStmts loop place) = Stmt.guard loop :=
  rfl

theorem unplaced_countExpr (n : Int) : (countExpr n).unplaced = countExpr n := by
  cases n <;> rfl

theorem Header.unplaced_stmt (header : Header) (depth : Nat) (m : Marks) (body : List Stmt) :
    (header.stmt depth m (guardStmts header.name m.inside ++ body)).unplaced
      = header.intended depth (Stmt.unplacedAll body) := by
  -- the guard is the same statements wherever its warning is called
  have hbody : ∀ loop, Stmt.unplacedAll (guardStmts loop m.inside ++ body)
      = Stmt.guard loop ++ Stmt.unplacedAll body := by
    intro loop
    rw [← unplaced_guardStmts loop m.inside]
    simp only [Stmt.unplacedAll_eq, List.map_append]
  cases header with
  | count n =>
    change Stmt.for _ (some (.binary .less _ (countExpr n).unplaced default)) _
      (Stmt.unplacedAll (guardStmts "repeat" m.inside ++ body)) default = _
    rw [hbody, unplaced_countExpr]
    rfl
  | endless =>
    change Stmt.while _ (Stmt.unplacedAll (guardStmts "forever" m.inside ++ body)) default = _
    rw [hbody]
    rfl

namespace Code

theorem unplacedAll_stmtAll_of {cs : List (Code Marks)} {depth : Nat}
    (h : ∀ c ∈ cs, (c.stmt depth).unplaced = c.intended depth) :
    Stmt.unplacedAll (stmtAll depth cs) = intendedAll depth cs := by
  induction cs with
  | nil => rfl
  | cons c cs ih =>
    rw [stmtAll, Stmt.unplacedAll, intendedAll, h c List.mem_cons_self,
      ih fun d hd => h d (List.mem_cons_of_mem c hd)]

/-- What is read back is what code says. -/
theorem unplaced_stmt (c : Code Marks) (depth : Nat) :
    (c.stmt depth).unplaced = c.intended depth := by
  induction c using Code.induction generalizing depth with
  | call m verb argument => exact unplaced_callStmt _ _ _ _
  | loop m header body ih =>
    rw [stmt, Header.unplaced_stmt, intended,
      unplacedAll_stmtAll_of fun c hc => ih c hc (depth + 1)]

end Code

theorem Kind.intendedAll_code (kind : Kind) (depth : Nat) (label : ν) (input : String → String)
    (body : List (Code ν)) :
    Code.intendedAll depth (kind.code label input body)
      = (kind.intended depth input (Code.intendedAll (depth + 1) body)).toList := by
  cases kind <;> rfl

theorem Block.intendedAll_codeAll_of {r : Registry} {depth : Nat} {bs : List (Block ι)}
    (h : ∀ b ∈ bs, Code.intendedAll depth (b.code r) = (b.intended r depth).toList) :
    Code.intendedAll depth (Block.codeAll r bs) = Block.intendedAll r depth bs := by
  induction bs with
  | nil => rfl
  | cons b rest ih =>
    rw [Block.codeAll, Code.intendedAll_append, Block.intendedAll, h b List.mem_cons_self,
      ih fun c hc => h c (List.mem_cons_of_mem b hc)]

/-- The code of a block says what the block does. -/
theorem Block.intendedAll_code (r : Registry) (b : Block ι) (depth : Nat) :
    Code.intendedAll depth (b.code r) = (b.intended r depth).toList := by
  induction b using Block.induction generalizing depth with
  | step b ih =>
    obtain ⟨i, t, slots, children⟩ := b
    rw [Block.code, Block.intended]
    cases r.kind? t with
    | none => rfl
    | some kind =>
      change Code.intendedAll depth (kind.code _ _ _) = (kind.intended depth _ _).toList
      have hchildren : ∀ c ∈ children,
          Code.intendedAll (depth + 1) (c.code r) = (c.intended r (depth + 1)).toList :=
        fun c hc => ih c (List.mem_append_right _ hc) (depth + 1)
      rw [Kind.intendedAll_code, Block.intendedAll_codeAll_of hchildren]

/-! ### The program of a workspace -/

/-- What the statements of the code of a workspace say, wherever they are placed. -/
theorem unplaced_statements {r : Registry} {bs : List (Block ι)} {cs : List (Code Marks)}
    (place : Nat → Span) (h : Code.bareAll cs = Code.bareAll (Block.codeAll r bs)) :
    Stmt.unplacedAll (preludeStmt place :: Code.stmtAll 0 cs)
      = .counter :: bs.filterMap (Block.intended r 0) :=
  calc Stmt.unplacedAll (preludeStmt place :: Code.stmtAll 0 cs)
    _ = .counter :: Stmt.unplacedAll (Code.stmtAll 0 cs) := rfl
    _ = .counter :: Code.intendedAll 0 cs := by
      rw [Code.unplacedAll_stmtAll_of fun c _ => Code.unplaced_stmt c 0]
    _ = .counter :: Code.intendedAll 0 (Block.codeAll r bs) := by
      rw [Code.intendedAll_eq_of_bareAll_eq h]
    _ = .counter :: bs.filterMap (Block.intended r 0) := by
      rw [Block.intendedAll_codeAll_of fun b _ => Block.intendedAll_code r b 0,
        Block.intendedAll_eq]

/-- **A program says what its trees say.** The text of a well placed workspace parses, whatever is
in its slots, and its statements are, up to their places, the declaration of the counter and the
intended statement of each root in turn, one for every root of a known type. -/
theorem Workspace.parse_executable {ws : Workspace} (h : ws.WellPlaced) (source : Nat) :
    ∃ program, Program.parse ws.compile.executable source = .ok program ∧
      program.source = source ∧
      Stmt.unplacedAll program.statements
        = .counter :: ws.blocks.filterMap (Block.intended ws.registry 0) ∧
      ∀ b ∈ ws.blocks,
        (b.intended ws.registry 0).isSome ↔ (ws.registry.kind? b.type).isSome := by
  obtain ⟨place, cs, hparse, hsame, -⟩ := parse_program source
    (fun b hb => ⟨h.wellFormed b hb, h.root_shape b hb⟩) h.height_le
  refine ⟨_, hparse, rfl, unplaced_statements place hsame, fun b hb => ?_⟩
  rw [Block.isSome_intended_iff]
  exact and_iff_left (h.root_shape b hb)

/-- Texts that would end the literal, the line or the statement, were they not quoted. -/
def Workspace.hostile : Workspace :=
  ⟨.standard,
    [⟨0, 0, .mk 1 "print" [.literal "input1" "\");\nalert(\"\\"] []⟩,
      ⟨0, 40, .mk 2 "repeat" [.literal "input1" "-2"]
        [.mk 3 "add_sprite" [.literal "imageinput1" "// \x7d 猫"] []]⟩,
      ⟨0, 80, .mk 4 "alarm" [.literal "input1" "break;"] []⟩],
    [], 5⟩

theorem Workspace.parse_executable_hostile :
    hostile.WellPlaced ∧ ∃ program, Program.parse hostile.compile.executable 3 = .ok program ∧
      Stmt.unplacedAll program.statements =
        [.counter, .callWith "print" "\");\nalert(\"\\",
          .counted 0 (-2) [.callWith "draw_sprite" "// \x7d 猫"]] := by
  have hplaced : hostile.WellPlaced := by decide
  obtain ⟨program, hparse, -, hsays, -⟩ := parse_executable hplaced 3
  exact ⟨hplaced, program, hparse, hsays.trans (by rfl)⟩

end Blockwork
