import Mathlib
import Blockwork.Proofs.Snapshot.Numbering
import Blockwork.Proofs.Workspace.Mutation

/-!
# Editing a workspace from beginning to end

Blocks are not only in the workspace. A new block is first in the hand of whoever edits, and so is
one that has been taken out, until it is put somewhere or dropped. A `Desk` is a workspace with the
blocks in hand. `Desk.Move` is what can be done with these blocks where each stays one block, and
`Desk.Duplicate` what makes further blocks of them: a block may also be made by hand, with any
identifier, or be copied.

Two lemmas say what one operation of the workspace does to the blocks: `Operation.sound` for the
rules of placement and `Operation.conserves` for the identifiers. From the first it follows that on
every desk that can be reached the workspace is well placed (`Desk.wellPlaced_of_reachable`).
The rules have to be kept by the blocks in hand as well, and so has the height, since placing a
block as a root does not look at it.
-/

namespace Blockwork

open scoped List

/-! ### Operations -/

/-- What is done to a workspace as a whole, with the blocks that are put into it. -/
inductive Operation where
  | instantiate (type : String)
  | addRoot (block : PlacedBlock) (x y : Float)
  | moveRoot (id : BlockId) (x y : Float)
  | remove (id : BlockId)
  | edit (id : BlockId) (e : Edit)
  | clear
  | setAssets (assets : Run.AssetStore)
  | restore (s : Snapshot)
  | loadText (text : String)
  | loadShareToken (token : String)

namespace Operation

/-- The blocks that are put in. -/
def taken : Operation → List PlacedBlock
  | addRoot b _ _ => [b]
  | edit _ e => e.taken
  | _ => []

/-- The workspace after the operation, and the blocks that it hands out; nothing if it fails. -/
def run? (ws : Workspace) : Operation → Option (Workspace × List PlacedBlock)
  | instantiate type => some ((ws.instantiate type).2, [(ws.instantiate type).1])
  | addRoot b x y => ((ws.addRoot b x y).map (·, [])).toOption
  | moveRoot id x y => ((ws.moveRoot id x y).map (·, [])).toOption
  | remove id => ((ws.remove id).map fun (b, ws') => (ws', [b])).toOption
  | edit id e => (e.ofPlaced ws id).toOption
  | clear => some (ws.clear, [])
  | setAssets assets => some ({ ws with assets }, [])
  | restore s => ((ws.restore s).map (·, [])).toOption
  | loadText text => ((ws.loadText text).map (·, [])).toOption
  | loadShareToken token => ((ws.loadShareToken token).map (·, [])).toOption

/-- The workspace after the operation in place, whether or not it succeeds. -/
def after (ws : Workspace) : Operation → Workspace
  | instantiate type => (ws.instantiate type).2
  | addRoot b x y => (outcome (Workspace.adding b x y) ws).2
  | moveRoot id x y => (outcome (Workspace.moving id x y) ws).2
  | remove id => (outcome (Workspace.removing id) ws).2
  | edit id e => (outcome (e.placing id) ws).2
  | clear => ws.clear
  | setAssets assets => { ws with assets }
  | restore s => (outcome (Workspace.restoring s) ws).2
  | loadText text => (outcome (Workspace.loading (Snapshot.ofText text)) ws).2
  | loadShareToken token => (outcome (Workspace.loading (Snapshot.ofShareToken token)) ws).2

/-- **An operation in place** comes to the new workspace, or leaves the workspace as it was. -/
theorem after_eq (ws : Workspace) (op : Operation) :
    op.after ws = ((op.run? ws).map Prod.fst).getD ws := by
  have hsettled {ε α : Type} (x : Except ε (Workspace × α)) :
      (settled ws x).2 = (x.toOption.map Prod.fst).getD ws := by
    cases x <;> rfl
  have hmap {ε α β γ : Type} (x : Except ε α) (f : α → Workspace × β) (g : α → γ) :
      (settled ws (x.map f)).2
        = ((x.map fun a => ((f a).1, g a)).toOption.map Prod.fst).getD ws := by
    cases x <;> rfl
  cases op with
  | instantiate type => rfl
  | addRoot b x y =>
    rw [after, Workspace.outcome_adding]
    exact hmap _ _ _
  | moveRoot id x y =>
    rw [after, Workspace.outcome_moving]
    exact hmap _ _ _
  | remove id =>
    rw [after, Workspace.outcome_removing]
    exact hmap _ _ fun p : PlacedBlock × Workspace => [p.1]
  | edit id e =>
    rw [after, Edit.outcome_placing]
    exact hsettled _
  | clear => rfl
  | setAssets assets => rfl
  | restore s =>
    rw [after, Workspace.outcome_restoring]
    exact hmap _ _ _
  | loadText text =>
    rw [after, Workspace.outcome_loading]
    exact hmap _ _ _
  | loadShareToken token =>
    rw [after, Workspace.outcome_loading]
    exact hmap _ _ _

/-- An operation that fails changes nothing. -/
theorem after_of_fails {ws : Workspace} {op : Operation} (h : op.run? ws = none) :
    op.after ws = ws := by
  rw [after_eq, h]
  rfl

/-- What an operation that succeeds comes to. A text that is loaded is restored. -/
inductive Ran (ws : Workspace) : Operation → Workspace → List PlacedBlock → Prop
  | instantiate (type : String) :
      Ran ws (.instantiate type) (ws.instantiate type).2 [(ws.instantiate type).1]
  | addRoot {b : PlacedBlock} {x y : Float} {ws' : Workspace} :
      ws.addRoot b x y = .ok ws' → Ran ws (.addRoot b x y) ws' []
  | moveRoot {id : BlockId} {x y : Float} {ws' : Workspace} :
      ws.moveRoot id x y = .ok ws' → Ran ws (.moveRoot id x y) ws' []
  | remove {id : BlockId} {b : PlacedBlock} {ws' : Workspace} :
      ws.remove id = .ok (b, ws') → Ran ws (.remove id) ws' [b]
  | edit {id : BlockId} {e : Edit} {ws' : Workspace} {given : List PlacedBlock} :
      e.ofPlaced ws id = .ok (ws', given) → Ran ws (.edit id e) ws' given
  | clear : Ran ws .clear ws.clear []
  | setAssets (assets : Run.AssetStore) : Ran ws (.setAssets assets) { ws with assets } []
  | restore {op : Operation} {s : Snapshot} {ws' : Workspace} :
      op.taken = [] → ws.restore s = .ok ws' → Ran ws op ws' []

theorem some_of_toOption {ε α β : Type} {x : Except ε α} {f : α → β} {b : β}
    (h : (x.map f).toOption = some b) : ∃ a, x = .ok a ∧ f a = b := by
  cases x with
  | error e => cases h
  | ok a => exact ⟨a, rfl, Option.some.inj h⟩

theorem ok_of_toOption {ε α : Type} {x : Except ε α} {a : α} (h : x.toOption = some a) :
    x = .ok a := by
  cases x with
  | error e => cases h
  | ok b => exact congrArg Except.ok (Option.some.inj h)

theorem ran_of_run? {ws ws' : Workspace} {op : Operation} {given : List PlacedBlock}
    (h : op.run? ws = some (ws', given)) : op.Ran ws ws' given := by
  cases op with
  | instantiate type =>
    cases h
    exact .instantiate type
  | addRoot b x y =>
    obtain ⟨_, hok, ⟨⟩⟩ := some_of_toOption h
    exact .addRoot hok
  | moveRoot id x y =>
    obtain ⟨_, hok, ⟨⟩⟩ := some_of_toOption h
    exact .moveRoot hok
  | remove id =>
    obtain ⟨⟨b, _⟩, hok, ⟨⟩⟩ := some_of_toOption h
    exact .remove hok
  | edit id e => exact .edit (ok_of_toOption h)
  | clear =>
    cases h
    exact .clear
  | setAssets assets =>
    cases h
    exact .setAssets assets
  | restore s =>
    obtain ⟨_, hok, ⟨⟩⟩ := some_of_toOption h
    exact .restore rfl hok
  | loadText text =>
    obtain ⟨_, hok, ⟨⟩⟩ := some_of_toOption h
    unfold Workspace.loadText at hok
    obtain ⟨s, -, hok⟩ := except_bind_eq_ok hok
    exact .restore rfl hok
  | loadShareToken token =>
    obtain ⟨_, hok, ⟨⟩⟩ := some_of_toOption h
    unfold Workspace.loadShareToken at hok
    obtain ⟨s, -, hok⟩ := except_bind_eq_ok hok
    exact .restore rfl hok

end Operation

/-! ### Desks -/

/-- A workspace and the blocks in the hand of whoever edits it. -/
structure Desk where
  workspace : Workspace
  hand : List PlacedBlock

namespace Desk

/-- **A step that makes no second block of one.** What is put in comes from the hand, and is gone if
the step fails; the workspace or the block is then what the step has made of it by its failure. -/
inductive Move : Desk → Desk → Prop
  | run {ws ws' : Workspace} {hand given rest : List PlacedBlock} {op : Operation} :
      op.run? ws = some (ws', given) → hand ~ op.taken ++ rest →
      Move ⟨ws, hand⟩ ⟨ws', given ++ rest⟩
  | runFails {ws : Workspace} {hand rest : List PlacedBlock} {op : Operation} :
      op.run? ws = none → hand ~ op.taken ++ rest → Move ⟨ws, hand⟩ ⟨op.after ws, rest⟩
  | edit {ws : Workspace} {hand given rest : List PlacedBlock} {b b' : PlacedBlock} {e : Edit} :
      e.ofBlock ws.registry b = .ok (b', given) → hand ~ b :: (e.taken ++ rest) →
      Move ⟨ws, hand⟩ ⟨ws, b' :: (given ++ rest)⟩
  | editFails {ws : Workspace} {hand rest : List PlacedBlock} {b : PlacedBlock} {e : Edit}
      {problem : PlacementError} :
      e.ofBlock ws.registry b = .error problem → hand ~ b :: (e.taken ++ rest) →
      Move ⟨ws, hand⟩ ⟨ws, (outcome (e.acting ws.registry) b).2 :: rest⟩
  | detach {ws : Workspace} {hand rest : List PlacedBlock} {b b' found : PlacedBlock}
      {id : BlockId} :
      b.detach? id = some (found, b') → hand ~ b :: rest →
      Move ⟨ws, hand⟩ ⟨ws, found :: b' :: rest⟩
  | drop {ws : Workspace} {hand rest : List PlacedBlock} {b : PlacedBlock} :
      hand ~ b :: rest → Move ⟨ws, hand⟩ ⟨ws, rest⟩

/-- **A step that makes a further block**: a bare one with whatever identifier, or a copy of one on
the desk with everything below it. -/
inductive Duplicate : Desk → Desk → Prop
  | make {ws : Workspace} {hand : List PlacedBlock} (id : BlockId) (type : String) :
      Duplicate ⟨ws, hand⟩ ⟨ws, .bare id type :: hand⟩
  | copy {ws : Workspace} {hand : List PlacedBlock} {b c : PlacedBlock} :
      b ∈ ws.blocks ++ hand → c ∈ b.subtrees → Duplicate ⟨ws, hand⟩ ⟨ws, c :: hand⟩

def Step (d d' : Desk) : Prop :=
  Move d d' ∨ Duplicate d d'

/-- The desk with nothing on it. -/
def empty (r : Registry) : Desk :=
  ⟨.empty r, []⟩

/-- What becomes of an empty desk in some steps. -/
def Reachable (r : Registry) : Desk → Prop :=
  Relation.ReflTransGen Step (empty r)

/-- What becomes of an empty desk as long as each block stays one block. -/
def Unduplicated (r : Registry) : Desk → Prop :=
  Relation.ReflTransGen Move (empty r)

theorem Unduplicated.reachable {r : Registry} {d : Desk} (h : Unduplicated r d) : Reachable r d :=
  Relation.ReflTransGen.mono (fun _ _ => Or.inl) _ _ h

/-- An operation with blocks in hand leads on. -/
theorem Reachable.run {r : Registry} {d : Desk} {ws' : Workspace} {given rest : List PlacedBlock}
    (h : Reachable r d) (op : Operation) (hok : op.run? d.workspace = some (ws', given))
    (hhand : d.hand ~ op.taken ++ rest) : Reachable r ⟨ws', given ++ rest⟩ :=
  h.tail (.inl (.run hok hhand))

/-- An operation leads on as long as each block stays one block, too. -/
theorem Unduplicated.run {r : Registry} {d : Desk} {ws' : Workspace}
    {given rest : List PlacedBlock} (h : Unduplicated r d) (op : Operation)
    (hok : op.run? d.workspace = some (ws', given)) (hhand : d.hand ~ op.taken ++ rest) :
    Unduplicated r ⟨ws', given ++ rest⟩ :=
  h.tail (.run hok hhand)

end Desk

/-! ### The rules of placement -/

/-- A root that obeys the rules, at a point of the grid. -/
structure Root.Sound (r : Registry) (root : Root BlockId) : Prop where
  wellFormed : root.block.WellFormed r
  shape : root.block.shape? r ≠ some .reporter
  height_le : root.block.height ≤ heightLimit
  snapped : ∃ x y, root.x = snapToGrid x ∧ root.y = snapToGrid y

/-- A block in hand obeys the rules below it. -/
structure Block.Held (r : Registry) (b : PlacedBlock) : Prop where
  wellFormed : b.WellFormed r
  height_le : b.height ≤ heightLimit

/-- A workspace over a registry whose roots obey the rules. -/
structure Workspace.Sound (r : Registry) (ws : Workspace) : Prop where
  registry : ws.registry = r
  roots : ∀ root ∈ ws.roots, root.Sound r

/-- **The invariant of editing.** -/
structure Desk.Sound (r : Registry) (d : Desk) : Prop where
  workspace : d.workspace.Sound r
  hand : ∀ b ∈ d.hand, b.Held r

variable {r : Registry} {ws ws' : Workspace}

theorem Workspace.Sound.wellPlaced (h : ws.Sound r) : ws.WellPlaced := by
  rw [wellPlaced_iff, h.registry]
  intro b hb
  obtain ⟨root, hroot, rfl⟩ := List.mem_map.mp hb
  have hsound := h.roots root hroot
  exact ⟨hsound.wellFormed, hsound.shape, hsound.height_le⟩

/-- A subtree of a well-formed tree obeys the rules. -/
theorem Block.WellFormed.subtree {ι : Type} {b c : Block ι} (h : b.WellFormed r)
    (hc : c ∈ b.subtrees) : c.WellFormed r :=
  fun _ hd => h _ (subtrees_trans hc hd)

theorem Block.height_le_of_mem_subtrees {ι : Type} {b c : Block ι} (hc : c ∈ b.subtrees) :
    c.height ≤ b.height := by
  induction b using Block.induction with
  | step b ih =>
    rcases mem_subtrees.mp hc with rfl | ⟨p, hp, hcp⟩
    · exact le_rfl
    · exact (ih p hp hcp).trans (height_lt_of_mem_parts hp).le

theorem Block.held_of_no_parts {b : PlacedBlock} (hobeys : b.Obeys r) (hparts : b.parts = []) :
    b.Held r := by
  refine ⟨wellFormed_iff.mpr ⟨hobeys, ?_⟩, ?_⟩
  · rw [hparts]
    exact List.forall_mem_nil _
  · refine height_le_of_parts (by decide) ?_
    rw [hparts]
    exact List.forall_mem_nil _

/-! ### New blocks -/

/-- What the slots of a new block are: texts in slots that its type has. -/
theorem Workspace.instantiate_slots {ws : Workspace} {type : String} {s : Slot PlacedBlock}
    (hs : s ∈ (ws.instantiate type).1.slots) :
    ∃ name text, s = .literal name text ∧
      ∀ kind, ws.registry.kind? type = some kind → kind.hasSlot name = true := by
  unfold instantiate at hs
  dsimp only [Block.slots] at hs
  cases hkind : ws.registry.kind? type with
  | none =>
    rw [hkind] at hs
    cases hs
  | some kind =>
    rw [hkind] at hs
    dsimp only at hs
    -- the slots are added one after the other, each under the name of a slot of the kind
    have hadded : ∃ name text, s = .literal name text ∧ kind.hasSlot name = true := by
      refine List.foldlRecOn (motive := fun slots : List (Slot PlacedBlock) =>
        ∀ t ∈ slots, ∃ name text, t = .literal name text ∧ kind.hasSlot name = true)
        kind.slots _ (List.forall_mem_nil _) ?_ s hs
      intro slots hslots p hp
      split
      · exact hslots
      · next d _ =>
        intro t ht
        rcases Slots.mem_put ht with rfl | ht
        · exact ⟨p.1, d.display, rfl, List.any_eq_true.mpr ⟨p, hp, decide_eq_true rfl⟩⟩
        · exact hslots t ht
    obtain ⟨name, text, hs, hknown⟩ := hadded
    refine ⟨name, text, hs, ?_⟩
    rintro _ ⟨⟩
    exact hknown

theorem Workspace.parts_instantiate (ws : Workspace) (type : String) :
    (ws.instantiate type).1.parts = [] := by
  have hblocks : Slots.blocks (ws.instantiate type).1.slots = [] := by
    rw [List.eq_nil_iff_forall_not_mem]
    intro c hc
    obtain ⟨name, hname⟩ := Slots.mem_blocks.mp hc
    obtain ⟨_, _, hs, -⟩ := instantiate_slots hname
    cases hs
  unfold Block.parts
  rw [hblocks]
  rfl

/-- **A new block obeys the rules.** -/
theorem Workspace.held_instantiate (ws : Workspace) (type : String) :
    (ws.instantiate type).1.Held ws.registry := by
  have hparts := ws.parts_instantiate type
  refine Block.held_of_no_parts ⟨?_, ?_, ?_, ?_⟩ hparts
  · intro s hs
    obtain ⟨name, text, rfl, hknown⟩ := instantiate_slots hs
    exact hknown
  · intro c hc
    have hmem : c ∈ (ws.instantiate type).1.parts := List.mem_append_left _ hc
    rw [hparts] at hmem
    cases hmem
  · intro hne
    exact absurd rfl hne
  · exact List.forall_mem_nil _

theorem Block.held_bare (id : BlockId) (type : String) : (Block.bare id type).Held r :=
  held_of_no_parts ⟨List.forall_mem_nil _, List.forall_mem_nil _, fun hne => absurd rfl hne,
    List.forall_mem_nil _⟩ rfl

/-! ### What an operation keeps -/

namespace Operation

/-- What an operation leaves and hands out obeys the rules. -/
def Keeps (r : Registry) (ws' : Workspace) (given : List PlacedBlock) : Prop :=
  ws'.Sound r ∧ ∀ b ∈ given, b.Held r

/-- Roots that come in the stead of one root. -/
theorem forall_mem_replace {p : Root BlockId → Prop} {before after rest : List (Root BlockId)}
    {root : Root BlockId} (h : ∀ x ∈ before ++ root :: after, p x) (hrest : ∀ x ∈ rest, p x) :
    ∀ x ∈ before ++ (rest ++ after), p x := by
  obtain ⟨hbefore, hroot⟩ := List.forall_mem_append.mp h
  obtain ⟨-, hafter⟩ := List.forall_mem_cons.mp hroot
  exact List.forall_mem_append.mpr ⟨hbefore, List.forall_mem_append.mpr ⟨hrest, hafter⟩⟩

theorem keeps_addRoot {b : PlacedBlock} {x y : Float} (h : ws.Sound r) (hb : b.Held r)
    (hok : ws.addRoot b x y = .ok ws') : Keeps r ws' [] := by
  obtain ⟨hshape, rfl⟩ := Workspace.addRoot_ok hok
  rw [h.registry] at hshape
  refine ⟨⟨h.registry, List.forall_mem_append.mpr ⟨h.roots, ?_⟩⟩, List.forall_mem_nil _⟩
  exact List.forall_mem_singleton.mpr ⟨hb.wellFormed, hshape, hb.height_le, x, y, rfl, rfl⟩

theorem keeps_moveRoot {id : BlockId} {x y : Float} (h : ws.Sound r)
    (hok : ws.moveRoot id x y = .ok ws') : Keeps r ws' [] := by
  obtain ⟨before, root, after, hroots, rfl⟩ := Workspace.moveRoot_ok hok
  have hall := h.roots
  rw [hroots] at hall
  have hroot := hall root (List.mem_append_right _ List.mem_cons_self)
  refine ⟨⟨h.registry, ?_⟩, List.forall_mem_nil _⟩
  have hmoved : Root.Sound r { root with x := snapToGrid x, y := snapToGrid y } :=
    ⟨hroot.wellFormed, hroot.shape, hroot.height_le, x, y, rfl, rfl⟩
  exact forall_mem_replace hall (List.forall_mem_singleton.mpr hmoved)

theorem keeps_remove {id : BlockId} {found : PlacedBlock} (h : ws.Sound r)
    (hok : ws.remove id = .ok (found, ws')) : Keeps r ws' [found] := by
  obtain ⟨before, root, rest, after, hroots, rfl, hcase⟩ := Workspace.remove_ok hok
  have hall := h.roots
  rw [hroots] at hall
  have hroot := hall root (List.mem_append_right _ List.mem_cons_self)
  rcases hcase with ⟨rfl, rfl⟩ | ⟨block, rfl, hdetached⟩
  · refine ⟨⟨h.registry, forall_mem_replace hall (List.forall_mem_nil _)⟩, ?_⟩
    exact List.forall_mem_singleton.mpr ⟨hroot.wellFormed, hroot.height_le⟩
  · obtain ⟨hfound, hblock, hshape, hlow, hlow'⟩ := hdetached.keeps hroot.wellFormed
    have hleft : Root.Sound r { root with block } :=
      ⟨hblock, hshape ▸ hroot.shape, hlow'.trans hroot.height_le, hroot.snapped⟩
    refine ⟨⟨h.registry, forall_mem_replace hall (List.forall_mem_singleton.mpr hleft)⟩, ?_⟩
    exact List.forall_mem_singleton.mpr ⟨hfound, hlow.trans hroot.height_le⟩

/-- The height of the tree around an edited block has been checked, and where nothing is put in, the
edit does not make it higher. -/
theorem keeps_edit {id : BlockId} {e : Edit} {given : List PlacedBlock} (h : ws.Sound r)
    (htaken : ∀ c ∈ e.taken, c.Held r) (hok : e.ofPlaced ws id = .ok (ws', given)) :
    Keeps r ws' given := by
  obtain ⟨s, b, b', hroots, hedit, rfl, hroom⟩ := Edit.ofPlaced_ok hok
  rw [h.registry] at hedit
  have hall := h.roots
  rw [hroots] at hall
  have hroot := hall ⟨s.x, s.y, s.place.fill b⟩ (List.mem_append_right _ List.mem_cons_self)
  obtain ⟨hwellFormed, hshape, hheight, hsnapped⟩ := hroot
  dsimp only at hwellFormed hshape hheight
  have hb : b.WellFormed r := hwellFormed.of_fill
  have hdeep := s.place.length_add_height_le b
  -- nothing that is put in is higher than what is left below the site
  have hn : ∀ c ∈ e.taken, c.height ≤ heightLimit - (s.place.length + 1) := by
    intro c hc
    have := hroom c hc
    omega
  obtain ⟨hedited, -, hgiven⟩ := Edit.edited hedit hb (fun c hc => (htaken c hc).wellFormed) hn
  have hb' : s.place.length + b'.height ≤ heightLimit := by
    have := hedited.height_le
    have := b.height_pos
    omega
  have hfilled : Root.Sound r ⟨s.x, s.y, s.place.fill b'⟩ := by
    refine ⟨hwellFormed.fill hedited.wellFormed hedited.shape, ?_, ?_, hsnapped⟩
    · rw [Block.shape?_fill hedited.shape]
      exact hshape
    · exact Place.height_fill_le hheight hb'
  refine ⟨⟨h.registry, forall_mem_replace hall (List.forall_mem_singleton.mpr hfilled)⟩, ?_⟩
  intro c hc
  obtain ⟨hc, hlow⟩ := hgiven c hc
  exact ⟨hc, by omega⟩

theorem keeps_restore {s : Snapshot} (h : ws.Sound r) (hok : ws.restore s = .ok ws') :
    Keeps r ws' [] := by
  have hrestored := Workspace.restored_of_restore hok
  have hregistry : ws'.registry = r := hrestored.registry.trans h.registry
  have hplaced := Workspace.wellPlaced_iff.mp hrestored.wellPlaced
  rw [hregistry] at hplaced
  refine ⟨⟨hregistry, ?_⟩, List.forall_mem_nil _⟩
  intro root hroot
  obtain ⟨hwellFormed, hshape, hheight⟩ := hplaced root.block (List.mem_map_of_mem hroot)
  obtain ⟨saved, -, -, hplace⟩ := hrestored.roots.exists_saved hroot
  rw [hplace] at hwellFormed hshape hheight ⊢
  exact ⟨hwellFormed, hshape, hheight, _, _, rfl, rfl⟩

/-- **An operation keeps the rules.** -/
theorem sound {op : Operation} {given : List PlacedBlock} (h : ws.Sound r)
    (htaken : ∀ b ∈ op.taken, b.Held r) (hran : op.Ran ws ws' given) : Keeps r ws' given := by
  cases hran with
  | instantiate type =>
    refine ⟨⟨h.registry, h.roots⟩, List.forall_mem_singleton.mpr ?_⟩
    rw [← h.registry]
    exact ws.held_instantiate type
  | addRoot hok => exact keeps_addRoot h (htaken _ List.mem_cons_self) hok
  | moveRoot hok => exact keeps_moveRoot h hok
  | remove hok => exact keeps_remove h hok
  | edit hok => exact keeps_edit h htaken hok
  | clear => exact ⟨⟨h.registry, List.forall_mem_nil _⟩, List.forall_mem_nil _⟩
  | setAssets assets => exact ⟨⟨h.registry, h.roots⟩, List.forall_mem_nil _⟩
  | restore _ hok => exact keeps_restore h hok

end Operation

/-! ### What a step keeps -/

namespace Desk

/-- Whatever holds of the blocks in hand holds of what they are taken apart into. -/
theorem forall_hand {p : PlacedBlock → Prop} {hand taken rest : List PlacedBlock}
    (h : ∀ b ∈ hand, p b) (hperm : hand ~ taken ++ rest) :
    (∀ b ∈ taken, p b) ∧ ∀ b ∈ rest, p b :=
  List.forall_mem_append.mp fun b hb => h b (hperm.mem_iff.mpr hb)

/-- An edit of a block in hand. -/
theorem held_edit {e : Edit} {b b' : PlacedBlock} {given : List PlacedBlock} (hb : b.Held r)
    (htaken : ∀ c ∈ e.taken, c.Held r) (hok : e.ofBlock r b = .ok (b', given)) :
    b'.Held r ∧ ∀ c ∈ given, c.Held r := by
  have hwellFormed : ∀ c ∈ e.taken, c.WellFormed r := fun c hc => (htaken c hc).wellFormed
  -- an edit checks that what it puts in leaves room for the block itself
  have hroom := (Edit.edited hok hb.wellFormed hwellFormed fun c hc => (htaken c hc).height_le).2.1
  have hn : ∀ c ∈ e.taken, c.height ≤ heightLimit - 1 := by
    intro c hc
    have := hroom c hc
    omega
  obtain ⟨hedited, -, hgiven⟩ := Edit.edited hok hb.wellFormed hwellFormed hn
  have hlimit : 0 < heightLimit := by decide
  have hlow := hb.height_le
  refine ⟨⟨hedited.wellFormed, ?_⟩, fun c hc => ?_⟩
  · have := hedited.height_le
    omega
  · obtain ⟨hc, hheight⟩ := hgiven c hc
    exact ⟨hc, hheight.trans hlow⟩

theorem Move.sound {d d' : Desk} (h : d.Sound r) (hmove : Move d d') : d'.Sound r := by
  obtain ⟨hworkspace, hhand⟩ := h
  cases hmove with
  | run hok hperm =>
    obtain ⟨htaken, hrest⟩ := forall_hand hhand hperm
    obtain ⟨hkept, hgiven⟩ := Operation.sound hworkspace htaken (Operation.ran_of_run? hok)
    exact ⟨hkept, List.forall_mem_append.mpr ⟨hgiven, hrest⟩⟩
  | runFails hfails hperm =>
    rw [Operation.after_of_fails hfails]
    exact ⟨hworkspace, (forall_hand hhand hperm).2⟩
  | edit hok hperm =>
    -- the block that is edited is held in the hand, together with what the edit takes
    obtain ⟨hb, hhand⟩ := List.forall_mem_cons.mp fun c hc => hhand c (hperm.mem_iff.mpr hc)
    obtain ⟨htaken, hrest⟩ := List.forall_mem_append.mp hhand
    dsimp only at hworkspace
    rw [hworkspace.registry] at hok
    obtain ⟨hb', hgiven⟩ := held_edit hb htaken hok
    exact ⟨hworkspace, List.forall_mem_cons.mpr ⟨hb', List.forall_mem_append.mpr ⟨hgiven, hrest⟩⟩⟩
  | editFails hfails hperm =>
    rw [Edit.acting_of_fails hfails]
    obtain ⟨hb, hhand⟩ := List.forall_mem_cons.mp fun c hc => hhand c (hperm.mem_iff.mpr hc)
    exact ⟨hworkspace, List.forall_mem_cons.mpr ⟨hb, (List.forall_mem_append.mp hhand).2⟩⟩
  | detach hdetach hperm =>
    obtain ⟨hb, hrest⟩ := List.forall_mem_cons.mp fun c hc => hhand c (hperm.mem_iff.mpr hc)
    obtain ⟨hfound, hb', -, hlow, hlow'⟩ := (Block.detached_of_detach? hdetach).keeps hb.wellFormed
    have hheight := hb.height_le
    exact ⟨hworkspace, List.forall_mem_cons.mpr ⟨⟨hfound, hlow.trans hheight⟩,
      List.forall_mem_cons.mpr ⟨⟨hb', hlow'.trans hheight⟩, hrest⟩⟩⟩
  | drop hperm =>
    exact ⟨hworkspace, (List.forall_mem_cons.mp fun c hc => hhand c (hperm.mem_iff.mpr hc)).2⟩

theorem Duplicate.sound {d d' : Desk} (h : d.Sound r) (hduplicate : Duplicate d d') :
    d'.Sound r := by
  obtain ⟨hworkspace, hhand⟩ := h
  cases hduplicate with
  | make id type => exact ⟨hworkspace, List.forall_mem_cons.mpr ⟨Block.held_bare id type, hhand⟩⟩
  | @copy ws hand b c hb hc =>
    refine ⟨hworkspace, List.forall_mem_cons.mpr ⟨?_, hhand⟩⟩
    have hheld : b.Held r := by
      rcases List.mem_append.mp hb with hb | hb
      · obtain ⟨root, hroot, rfl⟩ := List.mem_map.mp hb
        have hsound := hworkspace.roots root hroot
        exact ⟨hsound.wellFormed, hsound.height_le⟩
      · exact hhand b hb
    obtain ⟨hwellFormed, hheight⟩ := hheld
    exact ⟨hwellFormed.subtree hc, (Block.height_le_of_mem_subtrees hc).trans hheight⟩

theorem sound_empty (r : Registry) : (empty r).Sound r :=
  ⟨⟨rfl, List.forall_mem_nil _⟩, List.forall_mem_nil _⟩

/-- **All that can be reached is sound.** -/
theorem sound_of_reachable {d : Desk} (h : Reachable r d) : d.Sound r := by
  induction h with
  | refl => exact sound_empty r
  | tail _ hstep ih => exact hstep.elim (Move.sound ih) (Duplicate.sound ih)

/-- **Whatever is done, the workspace stays well placed.** -/
theorem wellPlaced_of_reachable {d : Desk} (h : Reachable r d) :
    d.workspace.registry = r ∧ d.workspace.WellPlaced :=
  ⟨(sound_of_reachable h).workspace.registry, (sound_of_reachable h).workspace.wellPlaced⟩

/-- A new block that is put into another new one, which is a root. -/
theorem wellPlaced_of_reachable_pushChild :
    ∃ d : Desk, Reachable .standard d ∧ d.workspace.ids = [2, 1] ∧
      d.workspace.registry = .standard ∧ d.workspace.WellPlaced := by
  have hnone : Unduplicated .standard (empty .standard) := .refl
  have hprint := hnone.run (.instantiate "print") rfl (.refl _)
  have hrepeat := hprint.run (.instantiate "repeat") rfl (.refl _)
  have hroot := hrepeat.run (.addRoot (.mk 2 "repeat" [.literal "input1" "3"] []) 60 60) rfl
    (.refl _)
  have hchild := hroot.run
    (.edit 2 (.pushChild (.mk 1 "print" [.literal "input1" "Hello World!"] []))) rfl (.refl _)
  exact ⟨_, hchild.reachable, by decide, wellPlaced_of_reachable hchild.reachable⟩

end Desk

end Blockwork
