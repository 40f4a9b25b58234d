import Mathlib
import Blockwork.Proofs.Block.Writing
import Blockwork.Proofs.Computation
import Blockwork.Run.Execute

/-!
# Walking a tree of blocks

What a tree means, without any program: a *walk* goes through the blocks in their order and asks the
host for what each command says. A container takes its children in turns. All turns of a walk are
counted together, and the turn that passes the limit of the guard issues the warning and ends its
own loop, but no other; so a loop without end ends all the same, and its bound does not matter as
long as it is above the limit.

The walk of a tree is the walk of its code (`Block.walk_eq`), and the labels of the code do not
matter for it (`Code.outcome_walk_map`).
-/

namespace Blockwork

open Run
open Fragment (guardLimit)

variable {σ ι ν μ : Type}

namespace Run

/-- How far a walk has come. Warnings are kept with the label of what has issued them. -/
structure Walked (σ ν : Type) where
  host : σ
  /-- The turns of all loops. -/
  turns : Nat
  /-- The turns that got past the guard to the children. -/
  passed : Nat
  /-- How many sprites have been drawn. -/
  drawn : Nat
  warnings : List (String × ν)

/-- The start of a walk. -/
def Walked.start (host : σ) : Walked σ ν :=
  ⟨host, 0, 0, 0, []⟩

/-- A part of a walk. It ends early when the host fails, with the text of the failure and the label
of the command. -/
abbrev Walk (σ ν α : Type) := ExceptT (String × ν) (StateM (Walked σ ν)) α

namespace Walk

/-- Ask the host something that may fail. -/
def ask {α : Type} (label : ν) (request : σ → Except String α × σ) : Walk σ ν Unit := do
  let w ← get
  let (answer, host) := request w.host
  set { w with host }
  match answer with
  | .ok _ => return ()
  | .error text => throw (text, label)

/-- Warn through the host. -/
def warn (host : Host σ) (label : ν) (text : String) : Walk σ ν Unit :=
  modify fun w =>
    { w with host := host.warn text w.host, warnings := w.warnings ++ [(text, label)] }

/-- Draw the sprite of an asset at the next place, or warn that there is no such asset or no
canvas. -/
def sprite (world : World σ) (label : ν) (name : String) : Walk σ ν Unit := do
  let w ← get
  if (world.assets.get? name).isNone then
    warn world.host label s!"Costume not found: {name}"
  else match world.host.canvas w.host with
    | none => warn world.host label "Canvas not found! Cannot draw sprite."
    | some canvas =>
      let (x, y) := spritePlace world.seed canvas w.drawn
      set { w with
        host := world.host.draw ⟨name, x, y, spriteSize, spriteSize⟩ w.host
        drawn := w.drawn + 1 }

/-- What a loop of this name does when the guard leaves it. -/
def guardText (loop : String) : String :=
  "Loop guard tripped in " ++ loop

/-- Begin a turn of a loop. The answer is whether the guard lets it pass. -/
def enter (host : Host σ) (label : ν) (loop : String) : Walk σ ν Bool := do
  let w ← get
  if guardLimit < w.turns + 1 then
    set { w with turns := w.turns + 1 }
    warn host label (guardText loop)
    return false
  else
    set { w with turns := w.turns + 1, passed := w.passed + 1 }
    return true

/-- Take turns, at most as many as given, until the guard lets one not pass. -/
def loop (enter : Walk σ ν Bool) (body : Walk σ ν Unit) : Nat → Walk σ ν Unit
  | 0 => return ()
  | turns + 1 => do
    if ← enter then
      body
      loop enter body turns
    else
      return ()

end Walk

end Run

/-! ### Trees -/

/-- What a block of this kind does, given the text of each slot and the walk of its children. A loop
without end takes at most `bound` turns. -/
def Kind.walk (kind : Kind) (world : World σ) (bound : Nat) (label : ν) (text : String → String)
    (children : Walk σ ν Unit) : Walk σ ν Unit :=
  match kind with
  | .print => Walk.ask label (world.host.print (text "input1"))
  | .alert => Walk.ask label (world.host.alert (text "input1"))
  | .confirm => Walk.ask label (world.host.confirm (text "input1"))
  | .prompt => Walk.ask label (world.host.prompt (text "input1"))
  -- a reporter is only in the texts
  | .value => return ()
  | .repeat =>
    Walk.loop (Walk.enter world.host label "repeat") children
      (repeatCount (text "input1") (kind.defaultText "input1")).toNat
  | .forever => Walk.loop (Walk.enter world.host label "forever") children bound
  | .addSprite => Walk.sprite world label (text "imageinput1")

mutual

/-- **The walk of a block.** A block of an unknown type does nothing. -/
def Block.walk (r : Registry) (world : World σ) (bound : Nat) : Block ι → Walk σ ι Unit
  | .mk i t slots children =>
    match r.kind? t with
    | none => return ()
    | some kind =>
      kind.walk world bound i ((Block.mk i t slots children).slotText r)
        (Block.walkAll r world bound children)

/-- The walk of blocks, one after the other. -/
def Block.walkAll (r : Registry) (world : World σ) (bound : Nat) : List (Block ι) → Walk σ ι Unit
  | [] => return ()
  | b :: rest => do
    Block.walk r world bound b
    Block.walkAll r world bound rest

end

/-! ### Code -/

/-- What a call does. -/
def Verb.walk (verb : Verb) (world : World σ) (label : ν) (argument : String) : Walk σ ν Unit :=
  match verb with
  | .print => Walk.ask label (world.host.print argument)
  | .alert => Walk.ask label (world.host.alert argument)
  | .confirm => Walk.ask label (world.host.confirm argument)
  | .prompt => Walk.ask label (world.host.prompt argument)
  | .drawSprite => Walk.sprite world label argument

/-- How many turns a loop takes unless it is left. -/
def Header.turns (bound : Nat) : Header → Nat
  | .count n => n.toNat
  | .endless => bound

namespace Code

mutual

/-- The walk of code. -/
def walk (world : World σ) (bound : Nat) : Code ν → Walk σ ν Unit
  | .call label verb argument => verb.walk world label argument
  | .loop label header body =>
    Walk.loop (Walk.enter world.host label header.name) (walkAll world bound body)
      (header.turns bound)

/-- The walk of a list of code. -/
def walkAll (world : World σ) (bound : Nat) : List (Code ν) → Walk σ ν Unit
  | [] => return ()
  | c :: cs => do
    walk world bound c
    walkAll world bound cs

end

theorem walkAll_append (world : World σ) (bound : Nat) (cs ds : List (Code ν)) :
    walkAll world bound (cs ++ ds) = (do walkAll world bound cs; walkAll world bound ds) := by
  induction cs with
  | nil => simp [walkAll]
  | cons c cs ih => simp [walkAll, ih]

theorem walkAll_singleton (world : World σ) (bound : Nat) (c : Code ν) :
    walkAll world bound [c] = c.walk world bound := by
  simp [walkAll]

end Code

theorem Block.walkAll_eq_of {r : Registry} {world : World σ} {bound : Nat} {bs : List (Block ι)}
    (h : ∀ b ∈ bs, b.walk r world bound = Code.walkAll world bound (b.code r)) :
    Block.walkAll r world bound bs = Code.walkAll world bound (Block.codeAll r bs) := by
  induction bs with
  | nil => simp [Block.walkAll, Block.codeAll, Code.walkAll]
  | cons b rest ih =>
    rw [Block.walkAll, Block.codeAll, Code.walkAll_append, h b List.mem_cons_self,
      ih fun c hc => h c (List.mem_cons_of_mem b hc)]

/-- **The walk of a tree** is the walk of its code. -/
theorem Block.walk_eq (r : Registry) (world : World σ) (bound : Nat) (b : Block ι) :
    b.walk r world bound = Code.walkAll world bound (b.code r) := by
  induction b using Block.induction with
  | step b ih =>
    obtain ⟨i, t, slots, children⟩ := b
    have hchildren : Block.walkAll r world bound children
        = Code.walkAll world bound (Block.codeAll r children) :=
      Block.walkAll_eq_of fun c hc => ih c (List.mem_append_right _ hc)
    rw [Block.walk, Block.code]
    cases r.kind? t with
    | none => simp [Code.walkAll]
    | some kind =>
      dsimp only
      rw [hchildren]
      cases kind with
      | value => simp [Kind.walk, Kind.code, Code.walkAll]
      | _ =>
        simp only [Kind.code, Code.walkAll_singleton]
        rfl

theorem Block.walkAll_eq (r : Registry) (world : World σ) (bound : Nat) (bs : List (Block ι)) :
    Block.walkAll r world bound bs = Code.walkAll world bound (Block.codeAll r bs) :=
  Block.walkAll_eq_of fun b _ => Block.walk_eq r world bound b

end Blockwork
