import Mathlib
import Blockwork.Proofs.Block.Sorted
import Blockwork.Proofs.Workspace.Finding

/-!
# Edits stay where they are addressed

An edit by identifier goes through the whole workspace to find its block, and one that writes a slot
destroys whatever was in it, with everything below. Where identifiers are distinct, nothing else
happens (`Edit.ofPlaced_local`): the roots stay, the addressed block differs in the one slot or in
its children, and of all other blocks those that are gone are the ones that the edit drops
(`Edit.dropped`), and those that stay have kept their faces.

For this the edits of one block are brought into three forms (`Block.Does`), and each of these is an
exchange of parts (`Block.Does.exchange`).
-/

namespace Blockwork

open scoped List

/-! ### What an edit does -/

namespace Block

variable {ι : Type} {b b' : Block ι} {slot? : Option String} {dropped taken given : List (Block ι)}

/-- The reporter in a slot. -/
def inSlot (b : Block ι) (slot : String) : List (Block ι) :=
  ((Slots.get? b.slots slot).bind Slot.block?).toList

/-- **What may be done to a block** in an edit: a slot is written or emptied, or the children are
exchanged for others. Of what goes from the block some may be given back. -/
inductive Does (b : Block ι) :
    (slot? : Option String) → (dropped taken given : List (Block ι)) → Block ι → Prop
  | put (s : Slot (Block ι)) :
    Does b (some s.name) (b.inSlot s.name) s.block?.toList [] (b.putSlot s)
  | clear (slot : String) :
    Does b (some slot) (b.inSlot slot) [] (b.inSlot slot) (b.clearSlot slot)
  | change {children kept dropped taken given : List (Block ι)} :
    b.children ~ dropped ++ kept → children ~ taken ++ kept → given ⊆ dropped →
    Does b none dropped taken given (b.withChildren children)

/-- **Two blocks that differ in one slot**, or in nothing but their children. -/
inductive AlikeBut (b : Block ι) : (slot? : Option String) → Block ι → Prop
  | slot {name : String} {slots : List (Slot (Block ι))} :
    Slots.erase slots name = Slots.erase b.slots name → AlikeBut b (some name) (b.withSlots slots)
  | children (children : List (Block ι)) : AlikeBut b none (b.withChildren children)

theorem AlikeBut.id (h : AlikeBut b slot? b') : b'.id = b.id := by
  cases h <;> rfl

theorem AlikeBut.type (h : AlikeBut b slot? b') : b'.type = b.type := by
  cases h <;> rfl

theorem Does.alikeBut (h : Does b slot? dropped taken given b') : AlikeBut b slot? b' := by
  cases h with
  | put s => exact .slot (Slots.erase_put s b.slots)
  | clear slot => exact .slot (Slots.erase_erase b.slots slot)
  | change _ _ _ => exact .children _

/-- **What is done to a block is an exchange of parts.** That nothing else is dropped with a slot is
because no other slot has its name. -/
theorem Does.exchange (hslots : Slots.Ascending b.slots)
    (h : Does b slot? dropped taken given b') : Exchange b b' dropped taken := by
  cases h with
  | put s =>
    refine ⟨rfl, Slots.blocks (Slots.erase b.slots s.name) ++ b.children, ?_, ?_⟩
    · rw [← List.append_assoc]
      exact (Slots.blocks_perm hslots s.name).append_right b.children
    · rw [← List.append_assoc]
      exact (Slots.blocks_put_perm hslots s).append_right b.children
  | clear slot =>
    refine ⟨rfl, Slots.blocks (Slots.erase b.slots slot) ++ b.children, ?_, .refl _⟩
    rw [← List.append_assoc]
    exact (Slots.blocks_perm hslots slot).append_right b.children
  | @change children kept _ _ _ hold hnew _ =>
    -- what is in the slots stays, too
    have hmove : ∀ {xs ys : List (Block ι)}, xs ~ ys ++ kept →
        Slots.blocks b.slots ++ xs ~ ys ++ (Slots.blocks b.slots ++ kept) := by
      intro xs ys hxs
      refine (hxs.append_left _).trans ?_
      rw [← List.append_assoc, ← List.append_assoc]
      exact List.perm_append_comm.append_right kept
    exact ⟨rfl, Slots.blocks b.slots ++ kept, hmove hold, hmove hnew⟩

end Block

namespace Edit

/-- The slot that is written. -/
def slot? : Edit → Option String
  | setLiteral slot _ | insertReporter slot _ | clearSlot slot => some slot
  | _ => none

/-- What goes from the block: the reporter that is replaced or cleared, or the child that is
removed. -/
def dropped (b : PlacedBlock) : Edit → List PlacedBlock
  | setLiteral slot _ | insertReporter slot _ | clearSlot slot => b.inSlot slot
  | removeChild index => b.children[index]?.toList
  | pushChild _ | insertChild _ _ | moveChild _ _ => []

/-- **What an edit does to the block.** -/
theorem does {r : Registry} {b b' : PlacedBlock} {e : Edit} {given : List PlacedBlock}
    (h : e.ofBlock r b = .ok (b', given)) : b.Does e.slot? (e.dropped b) e.taken given b' := by
  cases e with
  | setLiteral slot text =>
    obtain ⟨_, hedit, he⟩ := except_map_eq_ok h
    cases he
    obtain ⟨-, rfl⟩ := Block.setLiteral_ok hedit
    exact .put (.literal slot text)
  | insertReporter slot c =>
    obtain ⟨_, hedit, he⟩ := except_map_eq_ok h
    cases he
    obtain ⟨-, -, -, rfl⟩ := Block.insertReporter_ok hedit
    exact .put (.reporter slot c)
  | clearSlot slot =>
    cases h
    exact .clear slot
  | pushChild c =>
    obtain ⟨_, hedit, he⟩ := except_map_eq_ok h
    cases he
    obtain ⟨-, rfl⟩ := Block.pushChild_ok hedit
    exact .change (.refl _) (List.perm_append_singleton c b.children) (List.Subset.refl _)
  | insertChild index c =>
    obtain ⟨_, hedit, he⟩ := except_map_eq_ok h
    cases he
    obtain ⟨-, hindex, rfl⟩ := Block.insertChild_ok hedit
    exact .change (.refl _) (List.perm_insertIdx c b.children hindex) (List.Subset.refl _)
  | removeChild index =>
    obtain ⟨⟨c, _⟩, hremove, he⟩ := except_map_eq_ok h
    cases he
    obtain ⟨hget, rfl⟩ := Block.removeChild_ok hremove
    have hdropped : (removeChild index).dropped b = [c] := congrArg Option.toList hget
    obtain ⟨hindex, rfl⟩ := List.getElem?_eq_some_iff.mp hget
    rw [hdropped]
    exact .change (List.getElem_cons_eraseIdx_perm hindex).symm (.refl _) (List.Subset.refl _)
  | moveChild source target =>
    obtain ⟨_, hedit, he⟩ := except_map_eq_ok h
    cases he
    obtain ⟨c, hget, htarget, rfl⟩ := Block.moveChild_ok hedit
    obtain ⟨hsource, rfl⟩ := List.getElem?_eq_some_iff.mp hget
    have hlength : target ≤ (b.children.eraseIdx source).length := by
      rw [List.length_eraseIdx_of_lt hsource]
      omega
    -- the child is put back among the others, wherever it stood
    have hsame := (List.perm_insertIdx b.children[source] _ hlength).trans
      (List.getElem_cons_eraseIdx_perm hsource)
    exact .change (.refl _) hsame (List.Subset.refl _)

end Edit

/-! ### Edits of placed blocks -/

/-- The slots of a placed block are in order. -/
theorem Workspace.ascending_slots {ws : Workspace} {s : Site BlockId} {b : PlacedBlock}
    (hsorted : ∀ b ∈ ws.blocks, b.Sorted) (hroots : ws.roots = s.fill b) :
    Slots.Ascending b.slots := by
  have hb : b ∈ Root.subtrees ws.roots := hroots ▸ s.mem_subtrees_fill b
  obtain ⟨root, hroot, hb⟩ := List.mem_flatMap.mp hb
  exact hsorted root.block (List.mem_map_of_mem hroot) b hb

namespace Edit

/-- **What an edit of a placed block changes**, and what not. -/
structure Local (e : Edit) (ws : Workspace) (id : BlockId) (ws' : Workspace)
    (given : List PlacedBlock) : Prop where
  /-- The addressed block is edited as it would be in hand, and differs in nothing but the slot that
  is written or the children. -/
  target : ∃ b b', ws.find? id = some b ∧ ws'.find? id = some b' ∧
    e.ofBlock ws.registry b = .ok (b', given) ∧ b.AlikeBut e.slot? b' ∧
    ∀ i, ((ws.find? i).isSome = true ∧ ws'.find? i = none ↔ i ∈ Block.idsAll (e.dropped b))
  /-- Of the blocks that are there before and after, each keeps its type and all but the addressed
  one keep their faces. -/
  kept : ∀ i c c', ws.find? i = some c → ws'.find? i = some c' →
    c'.type = c.type ∧ (i ≠ id → c'.face = c.face)
  /-- The roots keep their order and their places. -/
  roots : ws'.roots.map Root.mark = ws.roots.map Root.mark
  rest : ws' = { ws with roots := ws'.roots }

variable {ws ws' : Workspace} {id : BlockId} {e : Edit} {given : List PlacedBlock}

/-- The block that is edited is the one that is found. -/
theorem exists_site_of_ofPlaced (hnodup : ws.ids.Nodup) (h : e.ofPlaced ws id = .ok (ws', given)) :
    ∃ (s : Site BlockId) (b b' : PlacedBlock), b.id = id ∧ ws.roots = s.fill b ∧
      e.ofBlock ws.registry b = .ok (b', given) ∧ ws' = { ws with roots := s.fill b' } := by
  rw [ofPlaced_eq] at h
  obtain ⟨⟨⟩, -, h⟩ := except_bind_eq_ok h
  unfold inPlace at h
  cases hfind : ws.find? id with
  | none =>
    rw [Workspace.editBlock_eq,
      Workspace.locateIn?_eq_none (Workspace.find?_eq_none_iff.mp hfind)] at h
    cases h
  | some b =>
    obtain ⟨rfl, s, hroots⟩ := Workspace.exists_site_of_find? hfind
    rw [Workspace.editBlock_fill hroots (s.id_not_mem_ids (hroots ▸ hnodup))] at h
    obtain ⟨⟨b', _⟩, hedit, he⟩ := except_map_eq_ok h
    cases he
    exact ⟨s, b, b', rfl, hroots, hedit, rfl⟩

theorem local_of_ofPlaced (hnodup : ws.ids.Nodup) (hsorted : ∀ b ∈ ws.blocks, b.Sorted)
    (hfresh : ∀ i ∈ Block.idsAll e.taken, i ∉ ws.ids) (h : e.ofPlaced ws id = .ok (ws', given)) :
    e.Local ws id ws' given := by
  obtain ⟨s, b, b', rfl, hroots, hedit, hws'⟩ := exists_site_of_ofPlaced hnodup h
  have hslots := Workspace.ascending_slots hsorted hroots
  have hexchanged : Workspace.Exchanged ws ws' b b' (e.dropped b) e.taken :=
    ⟨(does hedit).exchange hslots, s, hroots, hws'⟩
  have halike := (does hedit).alikeBut
  obtain ⟨hfound, hfound'⟩ := hexchanged.find?_self hnodup hfresh
  refine {
    target := ⟨b, b', hfound, hfound', hedit, halike,
      fun i => hexchanged.gone_iff hnodup hfresh⟩
    kept := fun i c c' hc hc' => ?_
    roots := hexchanged.map_mark
    rest := by rw [hws'] }
  by_cases hi : i = b.id
  · subst hi
    obtain rfl : b = c := Option.some.inj (hfound.symm.trans hc)
    obtain rfl : b' = c' := Option.some.inj (hfound'.symm.trans hc')
    exact ⟨halike.type, fun hne => absurd rfl hne⟩
  · have hne : c ≠ b := by
      rintro rfl
      exact hi (Workspace.mem_subtrees_of_find? hc).2.symm
    -- what is found afterwards has not been dropped
    have hstays : i ∉ Block.idsAll (e.dropped b) := by
      intro hdropped
      have hgone := ((hexchanged.gone_iff hnodup hfresh).mpr hdropped).2
      rw [hgone] at hc'
      cases hc'
    obtain ⟨c'', hc'', hface⟩ := hexchanged.exists_face hnodup hfresh hc hstays hne
    obtain rfl : c'' = c' := Option.some.inj (hc''.symm.trans hc')
    exact ⟨congrArg Face.type hface, fun _ => hface⟩

/-- **Edits touch only the addressed block.** What is put in is to have new identifiers. An edit in
place that fails leaves everything as it was. -/
theorem ofPlaced_local (hnodup : ws.ids.Nodup) (hsorted : ∀ b ∈ ws.blocks, b.Sorted)
    (id : BlockId) (e : Edit) (hfresh : ∀ i ∈ Block.idsAll e.taken, i ∉ ws.ids) :
    (∀ ws' given, e.ofPlaced ws id = .ok (ws', given) → e.Local ws id ws' given) ∧
    ∀ problem, e.ofPlaced ws id = .error problem →
      outcome (e.placing id) ws = (.error problem, ws) := by
  refine ⟨fun ws' given h => local_of_ofPlaced hnodup hsorted hfresh h, fun problem h => ?_⟩
  rw [outcome_placing, h]
  rfl

/-- A reporter takes the place of another, and a child cannot be removed where there is none. -/
theorem ofPlaced_local_insertReporter :
    Workspace.twoRoots.ids.Nodup ∧ (∀ b ∈ Workspace.twoRoots.blocks, b.Sorted) ∧
    (∀ i ∈ Block.idsAll (insertReporter "input1" (.bare 6 "value")).taken,
      i ∉ Workspace.twoRoots.ids) ∧
    (∃ ws', (insertReporter "input1" (.bare 6 "value")).ofPlaced .twoRoots 2 = .ok (ws', []) ∧
      (insertReporter "input1" (.bare 6 "value")).Local .twoRoots 2 ws' [] ∧
      ws'.ids = [1, 2, 6, 4, 5]) ∧
    outcome ((removeChild 2).placing 1) .twoRoots
      = (.error (.indexOutOfRange 2 2), .twoRoots) := by
  have hnodup : Workspace.twoRoots.ids.Nodup := by decide
  have hsorted : ∀ b ∈ Workspace.twoRoots.blocks, b.Sorted := by decide
  have hfresh : ∀ i ∈ Block.idsAll (insertReporter "input1" (.bare 6 "value")).taken,
      i ∉ Workspace.twoRoots.ids := by decide
  refine ⟨hnodup, hsorted, hfresh, ⟨_, rfl, ?_, by decide⟩, ?_⟩
  · exact (ofPlaced_local hnodup hsorted 2 _ hfresh).1 _ _ rfl
  · exact (ofPlaced_local hnodup hsorted 1 (removeChild 2) (List.forall_mem_nil _)).2 _ rfl

end Edit

end Blockwork
