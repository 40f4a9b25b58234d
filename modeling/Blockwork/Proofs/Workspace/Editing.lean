import Mathlib
import Blockwork.Proofs.Block.Identifiers

/-!
# Edits of a workspace

A placed block stands at a `Site`: in a root, at a place in its tree. An operation that is addressed
to a block finds the site of the first block with the identifier (`Workspace.locateIn?`), and what
it does is said by filling that site with another block.

All edits of one block are here one type, `Edit`. An edit applied to a block in hand is the edit of
that block (`Edit.ofBlock`), and one applied to a placed block is the same edit at its site,
provided that what is put in is not too high for it (`Edit.ofPlaced_eq`). So what an edit keeps of
the rules (`Edit.edited`) and of the identifiers (`Edit.conserves`) has to be said of blocks only.
-/

namespace Blockwork

open scoped List

variable {β γ : Type}

/-! ### Sites -/

/-- Where a block stands in a list of roots: the roots before its own, that root's place on the
canvas, the block's place in the tree, and the roots behind. -/
structure Site (ι : Type) where
  before : List (Root ι)
  x : Int64
  y : Int64
  place : Place ι
  after : List (Root ι)

/-- The roots with this block at the site. -/
def Site.fill {ι : Type} (s : Site ι) (b : Block ι) : List (Root ι) :=
  s.before ++ ⟨s.x, s.y, s.place.fill b⟩ :: s.after

namespace Workspace

/-- The first block with the identifier below these roots, and its site. -/
def locateIn? (id : BlockId) : List (Root BlockId) → Option (Site BlockId × PlacedBlock)
  | [] => none
  | r :: rest =>
    match r.block.locate? id with
    | some (p, b) => some (⟨[], r.x, r.y, p, rest⟩, b)
    | none => (locateIn? id rest).map fun (s, b) => ({ s with before := r :: s.before }, b)

/-- **The site of a block, filled with it, is the roots.** -/
theorem fill_of_locateIn? {id : BlockId} {roots : List (Root BlockId)} {s : Site BlockId}
    {b : PlacedBlock} (h : locateIn? id roots = some (s, b)) : s.fill b = roots ∧ b.id = id := by
  induction roots generalizing s with
  | nil => cases h
  | cons r rest ih =>
    rw [locateIn?] at h
    cases hr : r.block.locate? id with
    | some found =>
      rw [hr] at h
      cases h
      obtain ⟨hfill, hid⟩ := Block.fill_of_locate? hr
      refine ⟨?_, hid⟩
      unfold Site.fill
      rw [hfill]
      rfl
    | none =>
      rw [hr] at h
      dsimp only at h
      rw [Option.map_eq_some_iff] at h
      obtain ⟨⟨s', _⟩, h', he⟩ := h
      cases he
      obtain ⟨hfill, hid⟩ := ih h'
      exact ⟨congrArg (r :: ·) hfill, hid⟩

/-- **Editing below roots** fills the site with the edited block. -/
theorem editIn?_eq (id : BlockId)
    (edit : PlacedBlock → Except PlacementError (PlacedBlock × β)) (roots : List (Root BlockId)) :
    editIn? id edit roots = (locateIn? id roots).map fun (s, b) =>
      (edit b).map fun (b', x) => (s.fill b', x) := by
  induction roots with
  | nil => rfl
  | cons r rest ih =>
    rw [editIn?, locateIn?, Block.editAt?_eq]
    cases r.block.locate? id with
    | some found =>
      obtain ⟨p, b⟩ := found
      cases hb : edit b <;> simp [hb, Except.map, Site.fill]
    | none =>
      dsimp only [Option.map_none]
      rw [ih, Option.map_map, Option.map_map]
      congr 1
      funext ⟨s, b⟩
      cases hb : edit b <;> simp [hb, Except.map, Site.fill]

/-- The depth of a placed block is the length of its place. -/
theorem findSome?_depthOf? (id : BlockId) (roots : List (Root BlockId)) :
    (roots.map Root.block).findSome? (·.depthOf? id)
      = (locateIn? id roots).map (·.1.place.length) := by
  induction roots with
  | nil => rfl
  | cons r rest ih =>
    rw [List.map_cons, List.findSome?_cons, locateIn?, Block.depthOf?_eq]
    cases r.block.locate? id with
    | some found => rfl
    | none =>
      dsimp only [Option.map_none]
      rw [ih, Option.map_map]
      rfl

theorem editBlock_eq (ws : Workspace) (id : BlockId)
    (edit : PlacedBlock → Except PlacementError (PlacedBlock × β)) :
    ws.editBlock id edit =
      match locateIn? id ws.roots with
      | none => .error (.blockNotFound id)
      | some (s, b) => (edit b).map fun (b', x) => ({ ws with roots := s.fill b' }, x) := by
  unfold editBlock
  rw [editIn?_eq]
  cases locateIn? id ws.roots with
  | none => rfl
  | some found =>
    obtain ⟨s, b⟩ := found
    cases hb : edit b <;> simp [hb, Except.map]

theorem depthOf_eq (ws : Workspace) (id : BlockId) :
    ws.depthOf id =
      match locateIn? id ws.roots with
      | none => .error (.blockNotFound id)
      | some (s, _) => .ok s.place.length := by
  unfold depthOf blocks
  rw [findSome?_depthOf?]
  cases locateIn? id ws.roots <;> rfl

/-- An edit that gives nothing back, as one that gives back an empty list. -/
theorem modifyBlock_map {α : Type} (ws : Workspace) (id : BlockId)
    (edit : PlacedBlock → Except PlacementError PlacedBlock) :
    (ws.modifyBlock id edit).map (·, ([] : List α))
      = ws.editBlock id fun b => (edit b).map (·, []) := by
  unfold modifyBlock
  rw [editBlock_eq, editBlock_eq]
  cases locateIn? id ws.roots with
  | none => rfl
  | some found =>
    obtain ⟨s, b⟩ := found
    cases hb : edit b <;> simp [hb, Except.map]

/-- What an edit gives back may be looked at before or after. -/
theorem editBlock_map (ws : Workspace) (id : BlockId)
    (edit : PlacedBlock → Except PlacementError (PlacedBlock × β)) (f : β → γ) :
    (ws.editBlock id edit).map (fun (ws', x) => (ws', f x))
      = ws.editBlock id fun b => (edit b).map fun (b', x) => (b', f x) := by
  rw [editBlock_eq, editBlock_eq]
  cases locateIn? id ws.roots with
  | none => rfl
  | some found =>
    obtain ⟨s, b⟩ := found
    cases hb : edit b <;> simp [hb, Except.map]

end Workspace

/-! ### Edits -/

/-- An edit of one block, with the block that it puts in. -/
inductive Edit where
  | setLiteral (slot text : String)
  | insertReporter (slot : String) (reporter : PlacedBlock)
  | clearSlot (slot : String)
  | pushChild (child : PlacedBlock)
  | insertChild (index : Nat) (child : PlacedBlock)
  | removeChild (index : Nat)
  | moveChild (source target : Nat)

namespace Edit

/-- The block that is put in. -/
def taken : Edit → List PlacedBlock
  | insertReporter _ b | pushChild b | insertChild _ b => [b]
  | _ => []

/-- The edit of a block, and the block that has come out of it. -/
def ofBlock (r : Registry) (b : PlacedBlock) :
    Edit → Except PlacementError (PlacedBlock × List PlacedBlock)
  | setLiteral slot text => (b.setLiteral r slot text).map (·, [])
  | insertReporter slot c => (b.insertReporter r slot c).map (·, [])
  | clearSlot slot => .ok (b.clearSlot slot, ((Slots.get? b.slots slot).bind Slot.block?).toList)
  | pushChild c => (b.pushChild r c).map (·, [])
  | insertChild index c => (b.insertChild r index c).map (·, [])
  | removeChild index => (b.removeChild index).map fun (c, b') => (b', [c])
  | moveChild source target => (b.moveChild source target).map (·, [])

/-- The edit of a placed block, and the block that has come out of it. -/
def ofPlaced (ws : Workspace) (id : BlockId) :
    Edit → Except PlacementError (Workspace × List PlacedBlock)
  | setLiteral slot text => (ws.setLiteral id slot text).map (·, [])
  | insertReporter slot c => (ws.insertReporter id slot c).map (·, [])
  | clearSlot slot =>
    (ws.clearSlot id slot).map fun (ws', s) => (ws', (s.bind Slot.block?).toList)
  | pushChild c => (ws.pushChild id c).map (·, [])
  | insertChild index c => (ws.insertChild id index c).map (·, [])
  | removeChild index => (ws.removeChild id index).map fun (ws', c) => (ws', [c])
  | moveChild source target => (ws.moveChild id source target).map (·, [])

variable {r : Registry} {b b' : PlacedBlock} {e : Edit} {given : List PlacedBlock}

/-- Whether what is put in is not too high for where the block stands. -/
def checkRoom (ws : Workspace) (id : BlockId) (e : Edit) : Except PlacementError Unit :=
  e.taken.forM fun c => do checkHeight (← ws.depthOf id) c.height

/-- The edit of a placed block as of one in hand, wherever it stands. -/
def inPlace (ws : Workspace) (id : BlockId) (e : Edit) :
    Except PlacementError (Workspace × List PlacedBlock) :=
  ws.editBlock id fun b => e.ofBlock ws.registry b

/-- **An edit of a placed block** is the edit of the block, after a check of the height. -/
theorem ofPlaced_eq (ws : Workspace) (id : BlockId) (e : Edit) :
    e.ofPlaced ws id = (do e.checkRoom ws id; e.inPlace ws id) := by
  -- an edit that takes a block asks for the depth first; the others ask for nothing
  have hchecked (c : PlacedBlock) (edit : PlacedBlock → Except PlacementError PlacedBlock) :
      (ws.depthOf id >>= fun depth => checkHeight depth c.height >>= fun _ =>
        ws.modifyBlock id edit).map (·, []) =
      ([c].forM fun c => ws.depthOf id >>= fun depth => checkHeight depth c.height) >>= fun _ =>
        ws.editBlock id fun b => (edit b).map (·, ([] : List PlacedBlock)) := by
    rw [← Workspace.modifyBlock_map]
    cases ws.depthOf id with
    | error problem => rfl
    | ok depth =>
      change (checkHeight depth c.height >>= _).map _ =
        ((checkHeight depth c.height >>= fun _ => pure ()) >>= _)
      cases checkHeight depth c.height <;> rfl
  cases e with
  | setLiteral slot text => exact Workspace.modifyBlock_map ws id _
  | insertReporter slot c => exact hchecked c _
  | clearSlot slot =>
    exact Workspace.editBlock_map ws id
      (fun b => .ok (b.clearSlot slot, Slots.get? b.slots slot))
      fun s => (s.bind Slot.block?).toList
  | pushChild c => exact hchecked c _
  | insertChild index c => exact hchecked c _
  | removeChild index =>
    refine (Workspace.editBlock_map ws id
      (fun b => (b.removeChild index).map fun (c, b') => (b', c)) fun c => [c]).trans ?_
    refine congrArg (ws.editBlock id) (funext fun b => ?_)
    change _ = (b.removeChild index).map _
    cases b.removeChild index <;> rfl
  | moveChild source target => exact Workspace.modifyBlock_map ws id _

theorem checkRoom_eq {ws : Workspace} {id : BlockId} {depth : Nat}
    (h : ws.depthOf id = .ok depth) :
    e.checkRoom ws id =
      if ∀ c ∈ e.taken, depth + 1 + c.height ≤ heightLimit then .ok () else .error .tooDeep := by
  unfold checkRoom
  rw [h]
  -- the blocks are checked one after the other, and the first that is too high decides
  generalize e.taken = taken
  induction taken with
  | nil => rfl
  | cons c rest ih =>
    change (checkHeight depth c.height >>= fun _ => rest.forM _) = _
    unfold checkHeight
    split
    · next hhigh =>
      rw [if_neg fun hall => (hall c List.mem_cons_self).not_gt hhigh]
      rfl
    · next hlow =>
      refine ih.trans ?_
      simp only [List.forall_mem_cons, not_lt.mp hlow, true_and]

/-- **What an edit in place does**: the block at the site is edited. By the identifier it would do
the same, unless what is put in is too high for the site. -/
theorem inPlace_ok {ws ws' : Workspace} {id : BlockId}
    (h : e.inPlace ws id = .ok (ws', given)) :
    ∃ (s : Site BlockId) (b b' : PlacedBlock), ws.roots = s.fill b ∧
      e.ofBlock ws.registry b = .ok (b', given) ∧ ws' = { ws with roots := s.fill b' } ∧
      e.ofPlaced ws id =
        if ∀ c ∈ e.taken, s.place.length + 1 + c.height ≤ heightLimit then .ok (ws', given)
        else .error .tooDeep := by
  have hsite := h
  unfold inPlace at hsite
  rw [Workspace.editBlock_eq] at hsite
  have hdepth := ws.depthOf_eq id
  cases hlocate : Workspace.locateIn? id ws.roots with
  | none =>
    rw [hlocate] at hsite
    cases hsite
  | some found =>
    obtain ⟨s, b⟩ := found
    rw [hlocate] at hsite hdepth
    obtain ⟨⟨b', x⟩, hb, he⟩ := except_map_eq_ok hsite
    cases he
    refine ⟨s, b, b', (Workspace.fill_of_locateIn? hlocate).1.symm, hb, rfl, ?_⟩
    -- by the identifier the heights are checked first, and then the edit is the same
    rw [ofPlaced_eq, checkRoom_eq hdepth, h]
    split <;> rfl

/-- **What an edit of a placed block does**: the block at the site is edited, and what is put in is
not too high for it. -/
theorem ofPlaced_ok {ws ws' : Workspace} {id : BlockId}
    (h : e.ofPlaced ws id = .ok (ws', given)) :
    ∃ (s : Site BlockId) (b b' : PlacedBlock), ws.roots = s.fill b ∧
      e.ofBlock ws.registry b = .ok (b', given) ∧ ws' = { ws with roots := s.fill b' } ∧
      ∀ c ∈ e.taken, s.place.length + 1 + c.height ≤ heightLimit := by
  have hinPlace := h
  rw [ofPlaced_eq] at hinPlace
  obtain ⟨⟨⟩, -, hinPlace⟩ := except_bind_eq_ok hinPlace
  obtain ⟨s, b, b', hroots, hedit, hws', hroom⟩ := inPlace_ok hinPlace
  rw [h] at hroom
  split at hroom
  · next hlow => exact ⟨s, b, b', hroots, hedit, hws', hlow⟩
  · cases hroom

/-! ### What edits keep -/

/-- **An edit keeps the rules**, and what has come out obeys them. -/
theorem edited (h : e.ofBlock r b = .ok (b', given)) (hb : b.WellFormed r)
    (htaken : ∀ c ∈ e.taken, c.WellFormed r) {n : Nat} (hn : ∀ c ∈ e.taken, c.height ≤ n) :
    Block.Edited r b b' n ∧ (∀ c ∈ e.taken, 1 + c.height ≤ heightLimit) ∧
      ∀ c ∈ given, c.WellFormed r ∧ c.height ≤ b.height := by
  -- most edits put nothing in, and are lower than the bound says
  have hhigher : ∀ {k : Nat}, k ≤ n → Block.Edited r b b' k → Block.Edited r b b' n := by
    intro k hk hedited
    have := hedited.height_le
    exact ⟨hedited.wellFormed, hedited.shape, by omega⟩
  have hgiven : ∀ {edit : Except PlacementError PlacedBlock},
      edit.map (·, ([] : List PlacedBlock)) = .ok (b', given) →
        edit = .ok b' ∧ ∀ c ∈ given, c.WellFormed r ∧ c.height ≤ b.height := by
    intro edit h
    obtain ⟨b'', hedit, he⟩ := except_map_eq_ok h
    cases he
    exact ⟨hedit, List.forall_mem_nil _⟩
  cases e with
  | setLiteral slot text =>
    obtain ⟨hedit, hout⟩ := hgiven h
    exact ⟨hhigher (Nat.zero_le n) (Block.edited_setLiteral hb hedit), List.forall_mem_nil _, hout⟩
  | insertReporter slot c =>
    obtain ⟨hedit, hout⟩ := hgiven h
    have hc := Block.edited_insertReporter hb (htaken c List.mem_cons_self) hedit
    exact ⟨hhigher (hn c List.mem_cons_self) hc.1, List.forall_mem_singleton.mpr hc.2, hout⟩
  | clearSlot slot =>
    cases h
    refine ⟨hhigher (Nat.zero_le n) (Block.edited_clearSlot hb slot), List.forall_mem_nil _, ?_⟩
    intro c hc
    obtain ⟨s, hs, hblock⟩ := Option.bind_eq_some_iff.mp (Option.mem_toList.mp hc)
    cases s with
    | literal name text => cases hblock
    | reporter name d =>
      cases hblock
      exact Block.reporter_of_get? hb hs
  | pushChild c =>
    obtain ⟨hedit, hout⟩ := hgiven h
    have hc := Block.edited_pushChild hb (htaken c List.mem_cons_self) hedit
    exact ⟨hhigher (hn c List.mem_cons_self) hc.1, List.forall_mem_singleton.mpr hc.2, hout⟩
  | insertChild index c =>
    obtain ⟨hedit, hout⟩ := hgiven h
    have hc := Block.edited_insertChild hb (htaken c List.mem_cons_self) hedit
    exact ⟨hhigher (hn c List.mem_cons_self) hc.1, List.forall_mem_singleton.mpr hc.2, hout⟩
  | removeChild index =>
    obtain ⟨⟨c, b''⟩, hremove, he⟩ := except_map_eq_ok h
    cases he
    obtain ⟨hedited, hc⟩ := Block.edited_removeChild hb hremove
    exact ⟨hhigher (Nat.zero_le n) hedited, List.forall_mem_nil _, List.forall_mem_singleton.mpr hc⟩
  | moveChild source target =>
    obtain ⟨hedit, hout⟩ := hgiven h
    exact ⟨hhigher (Nat.zero_le n) (Block.edited_moveChild hb hedit), List.forall_mem_nil _, hout⟩

/-- **An edit makes no identifiers.** -/
theorem conserves (h : e.ofBlock r b = .ok (b', given)) :
    Block.Conserves b b' e.taken given := by
  cases e with
  | setLiteral slot text =>
    obtain ⟨_, hedit, he⟩ := except_map_eq_ok h
    cases he
    obtain ⟨-, rfl⟩ := Block.setLiteral_ok hedit
    exact Block.conserves_putSlot b (.literal slot text)
  | insertReporter slot c =>
    obtain ⟨_, hedit, he⟩ := except_map_eq_ok h
    cases he
    obtain ⟨-, -, -, rfl⟩ := Block.insertReporter_ok hedit
    exact Block.conserves_putSlot b (.reporter slot c)
  | clearSlot slot =>
    cases h
    exact Block.conserves_clearSlot b slot
  | pushChild c =>
    obtain ⟨_, hedit, he⟩ := except_map_eq_ok h
    cases he
    obtain ⟨-, rfl⟩ := Block.pushChild_ok hedit
    exact Block.conserves_withChildren (List.perm_append_singleton c b.children).subperm
  | insertChild index c =>
    obtain ⟨_, hedit, he⟩ := except_map_eq_ok h
    cases he
    obtain ⟨-, hindex, rfl⟩ := Block.insertChild_ok hedit
    exact Block.conserves_withChildren (List.perm_insertIdx c b.children hindex).subperm
  | removeChild index =>
    obtain ⟨⟨c, _⟩, hremove, he⟩ := except_map_eq_ok h
    cases he
    obtain ⟨hget, rfl⟩ := Block.removeChild_ok hremove
    obtain ⟨hindex, rfl⟩ := List.getElem?_eq_some_iff.mp hget
    exact Block.conserves_withChildren (List.getElem_cons_eraseIdx_perm hindex).subperm
  | moveChild source target =>
    obtain ⟨_, hedit, he⟩ := except_map_eq_ok h
    cases he
    obtain ⟨c, hget, htarget, rfl⟩ := Block.moveChild_ok hedit
    obtain ⟨hsource, rfl⟩ := List.getElem?_eq_some_iff.mp hget
    have hlength : target ≤ (b.children.eraseIdx source).length := by
      rw [List.length_eraseIdx_of_lt hsource]
      omega
    -- the child is put back among the others, wherever it stood
    refine Block.conserves_withChildren ?_
    exact ((List.perm_insertIdx _ _ hlength).trans
      (List.getElem_cons_eraseIdx_perm hsource)).subperm

end Edit

/-! ### Taking blocks out -/

namespace Workspace

theorem takeRoot?_some {id : BlockId} {roots rest : List (Root BlockId)} {found : PlacedBlock}
    (h : takeRoot? id roots = some (found, rest)) :
    ∃ before root after, roots = before ++ root :: after ∧ rest = before ++ after ∧
      found = root.block := by
  induction roots generalizing rest with
  | nil => cases h
  | cons r roots ih =>
    rw [takeRoot?] at h
    split at h
    · cases h
      exact ⟨[], r, roots, rfl, rfl, rfl⟩
    · rw [Option.map_eq_some_iff] at h
      obtain ⟨⟨_, others⟩, h', he⟩ := h
      cases he
      obtain ⟨before, root, after, rfl, rfl, rfl⟩ := ih h'
      exact ⟨r :: before, root, after, rfl, rfl, rfl⟩

theorem detachIn?_some {id : BlockId} {roots rest : List (Root BlockId)} {found : PlacedBlock}
    (h : detachIn? id roots = some (found, rest)) :
    ∃ before root block after, roots = before ++ root :: after ∧
      rest = before ++ { root with block } :: after ∧ root.block.Detached found block := by
  induction roots generalizing rest with
  | nil => cases h
  | cons r roots ih =>
    rw [detachIn?] at h
    cases hr : r.block.detach? id with
    | some result =>
      rw [hr] at h
      cases h
      exact ⟨[], r, _, roots, rfl, rfl, Block.detached_of_detach? hr⟩
    | none =>
      rw [hr] at h
      dsimp only at h
      rw [Option.map_eq_some_iff] at h
      obtain ⟨⟨_, others⟩, h', he⟩ := h
      cases he
      obtain ⟨before, root, block, after, rfl, rfl, hdetached⟩ := ih h'
      exact ⟨r :: before, root, block, after, rfl, rfl, hdetached⟩

/-- **What removing does**: the block was a root, or stood below one. -/
theorem remove_ok {ws ws' : Workspace} {id : BlockId} {found : PlacedBlock}
    (h : ws.remove id = .ok (found, ws')) :
    ∃ before root rest after, ws.roots = before ++ root :: after ∧
      ws' = { ws with roots := before ++ (rest ++ after) } ∧
      ((rest = [] ∧ found = root.block) ∨
        ∃ block, rest = [{ root with block }] ∧ root.block.Detached found block) := by
  unfold remove at h
  split at h
  · next hfound =>
    cases h
    -- roots are looked at first
    rcases Option.or_eq_some_iff.mp hfound with htake | ⟨-, hdetach⟩
    · obtain ⟨before, root, after, hroots, rfl, rfl⟩ := takeRoot?_some htake
      exact ⟨before, root, [], after, hroots, rfl, Or.inl ⟨rfl, rfl⟩⟩
    · obtain ⟨before, root, block, after, hroots, rfl, hdetached⟩ := detachIn?_some hdetach
      exact ⟨before, root, [{ root with block }], after, hroots, rfl,
        Or.inr ⟨block, rfl, hdetached⟩⟩
  · cases h

theorem moveIn?_some {id : BlockId} {x y : Int64} {roots roots' : List (Root BlockId)}
    (h : moveIn? id x y roots = some roots') :
    ∃ before root after, roots = before ++ root :: after ∧
      roots' = before ++ { root with x, y } :: after := by
  induction roots generalizing roots' with
  | nil => cases h
  | cons r roots ih =>
    rw [moveIn?] at h
    split at h
    · cases h
      exact ⟨[], r, roots, rfl, rfl⟩
    · rw [Option.map_eq_some_iff] at h
      obtain ⟨others, h', he⟩ := h
      cases he
      obtain ⟨before, root, after, rfl, rfl⟩ := ih h'
      exact ⟨r :: before, root, after, rfl, rfl⟩

/-- **What moving does**: one root stands somewhere else. -/
theorem moveRoot_ok {ws ws' : Workspace} {id : BlockId} {x y : Float}
    (h : ws.moveRoot id x y = .ok ws') :
    ∃ before root after, ws.roots = before ++ root :: after ∧
      ws' = { ws with
        roots := before ++ { root with x := snapToGrid x, y := snapToGrid y } :: after } := by
  unfold moveRoot at h
  split at h
  · next hmove =>
    cases h
    obtain ⟨before, root, after, hroots, rfl⟩ := moveIn?_some hmove
    exact ⟨before, root, after, hroots, rfl⟩
  · cases h

/-- **What placing does**: there is one root more, which is no reporter. -/
theorem addRoot_ok {ws ws' : Workspace} {b : PlacedBlock} {x y : Float}
    (h : ws.addRoot b x y = .ok ws') :
    b.shape? ws.registry ≠ some .reporter ∧
      ws' = { ws with roots := ws.roots ++ [⟨snapToGrid x, snapToGrid y, b⟩] } := by
  unfold addRoot at h
  split at h
  · cases h
  · next hshape =>
    cases h
    exact ⟨hshape, rfl⟩

end Workspace

end Blockwork
