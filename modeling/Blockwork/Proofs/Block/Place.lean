import Mathlib
import Blockwork.Proofs.Block.Tree

/-!
# Places in a tree

An operation on a block that is addressed by its identifier finds the block, knows how far below the
root it stands, and puts another in its stead. Each of these goes through the tree on its own. Here
they are one: `Block.locate?` gives the *place* of the first block with the identifier, which is
everything around it, and the block itself. Filling the place with the block gives the tree back
(`Block.fill_of_locate?`), and

* `Block.editAt?_eq`: editing fills the place with the edited block;
* `Block.depthOf?_eq`: the depth of the block is the length of its place;
* `Block.detach?_spec`: detaching takes a block out of the place around it.

What a filled place keeps of the rules is said by `Block.WellFormed.fill` and `Block.height_fill_le`.
-/

namespace Blockwork

variable {ι : Type}

/-- Everything around a block in the block directly above it. -/
inductive Around (ι : Type) where
  /-- The block is the reporter in a slot. -/
  | slot (id : ι) (type : String) (before : List (Slot (Block ι))) (name : String)
    (after : List (Slot (Block ι))) (children : List (Block ι))
  /-- The block is a child. -/
  | child (id : ι) (type : String) (slots : List (Slot (Block ι))) (before after : List (Block ι))

/-- Everything around a block in a tree, from the root down. -/
abbrev Place (ι : Type) := List (Around ι)

namespace Around

/-- The block above, with this block in it. -/
def fill (b : Block ι) : Around ι → Block ι
  | slot i t before name after children => .mk i t (before ++ .reporter name b :: after) children
  | child i t slots before after => .mk i t slots (before ++ b :: after)

/-- The block above, with nothing in the place. -/
def leave : Around ι → Block ι
  | slot i t before _ after children => .mk i t (before ++ after) children
  | child i t slots before after => .mk i t slots (before ++ after)

/-- The blocks beside the place. -/
def others : Around ι → List (Block ι)
  | slot _ _ before _ after children => Slots.blocks before ++ (Slots.blocks after ++ children)
  | child _ _ slots before after => Slots.blocks slots ++ (before ++ after)

end Around

/-- The tree with this block in the place. -/
def Place.fill (b : Block ι) : Place ι → Block ι
  | [] => b
  | a :: rest => a.fill (Place.fill b rest)

@[simp] theorem Place.fill_nil (b : Block ι) : Place.fill b [] = b := rfl

@[simp] theorem Place.fill_cons (b : Block ι) (a : Around ι) (p : Place ι) :
    Place.fill b (a :: p) = a.fill (Place.fill b p) := rfl

/-! ### Finding the place -/

namespace Block

variable [DecidableEq ι]

mutual

/-- The first block with the identifier and its place. -/
def locate? (id : ι) : Block ι → Option (Place ι × Block ι)
  | mk i t slots children =>
    if i = id then some ([], mk i t slots children)
    else match locateSlot? id slots with
      | some (before, name, after, p, b) => some (.slot i t before name after children :: p, b)
      | none => (locateChild? id children).map fun (before, after, p, b) =>
          (.child i t slots before after :: p, b)

/-- The first block with the identifier in these slots: the slots before, the name of its slot, the
slots after, and its place in the reporter there. -/
def locateSlot? (id : ι) : List (Slot (Block ι)) →
    Option (List (Slot (Block ι)) × String × List (Slot (Block ι)) × Place ι × Block ι)
  | [] => none
  | .literal n t :: rest => (locateSlot? id rest).map fun (before, name, after, p, b) =>
      (.literal n t :: before, name, after, p, b)
  | .reporter n c :: rest =>
    match locate? id c with
    | some (p, b) => some ([], n, rest, p, b)
    | none => (locateSlot? id rest).map fun (before, name, after, p, b) =>
        (.reporter n c :: before, name, after, p, b)

/-- The first block with the identifier in these trees. -/
def locateChild? (id : ι) : List (Block ι) →
    Option (List (Block ι) × List (Block ι) × Place ι × Block ι)
  | [] => none
  | c :: rest =>
    match locate? id c with
    | some (p, b) => some ([], rest, p, b)
    | none => (locateChild? id rest).map fun (before, after, p, b) => (c :: before, after, p, b)

end

theorem locateSlot?_some {id : ι} {slots before after : List (Slot (Block ι))} {name : String}
    {p : Place ι} {b : Block ι}
    (ih : ∀ c ∈ Slots.blocks slots, ∀ p b, c.locate? id = some (p, b) → p.fill b = c ∧ b.id = id)
    (h : locateSlot? id slots = some (before, name, after, p, b)) :
    before ++ .reporter name (p.fill b) :: after = slots ∧ b.id = id := by
  induction slots generalizing before with
  | nil => cases h
  | cons s rest ihs =>
    have hrest : ∀ before', locateSlot? id rest = some (before', name, after, p, b) →
        (before' ++ .reporter name (p.fill b) :: after = rest) ∧ b.id = id := by
      intro before' h'
      refine ihs (fun c hc => ih c ?_) h'
      cases s with
      | literal => exact hc
      | reporter => exact List.mem_cons_of_mem _ hc
    cases s with
    | literal n t =>
      -- what is found behind the first slot has one more slot in front of it
      rw [locateSlot?, Option.map_eq_some_iff] at h
      obtain ⟨⟨before', _⟩, h', he⟩ := h
      cases he
      obtain ⟨hfill, hid⟩ := hrest before' h'
      exact ⟨congrArg (Slot.literal n t :: ·) hfill, hid⟩
    | reporter n c =>
      rw [locateSlot?] at h
      cases hc : locate? id c with
      | some found =>
        rw [hc] at h
        cases h
        obtain ⟨hfill, hid⟩ := ih c List.mem_cons_self _ _ hc
        rw [hfill]
        exact ⟨rfl, hid⟩
      | none =>
        rw [hc] at h
        dsimp only at h
        rw [Option.map_eq_some_iff] at h
        obtain ⟨⟨before', _⟩, h', he⟩ := h
        cases he
        obtain ⟨hfill, hid⟩ := hrest before' h'
        exact ⟨congrArg (Slot.reporter n c :: ·) hfill, hid⟩

theorem locateChild?_some {id : ι} {bs before after : List (Block ι)} {p : Place ι} {b : Block ι}
    (ih : ∀ c ∈ bs, ∀ p b, c.locate? id = some (p, b) → p.fill b = c ∧ b.id = id)
    (h : locateChild? id bs = some (before, after, p, b)) :
    before ++ p.fill b :: after = bs ∧ b.id = id := by
  induction bs generalizing before with
  | nil => cases h
  | cons c rest ihs =>
    rw [locateChild?] at h
    cases hc : locate? id c with
    | some found =>
      rw [hc] at h
      cases h
      obtain ⟨hfill, hid⟩ := ih c List.mem_cons_self _ _ hc
      rw [hfill]
      exact ⟨rfl, hid⟩
    | none =>
      rw [hc] at h
      dsimp only at h
      rw [Option.map_eq_some_iff] at h
      obtain ⟨⟨before', _⟩, h', he⟩ := h
      cases he
      obtain ⟨hfill, hid⟩ := ihs (fun d hd => ih d (List.mem_cons_of_mem c hd)) h'
      exact ⟨congrArg (c :: ·) hfill, hid⟩

/-- **The place of a block, filled with it, is the tree.** -/
theorem fill_of_locate? {id : ι} {t b : Block ι} {p : Place ι} (h : t.locate? id = some (p, b)) :
    p.fill b = t ∧ b.id = id := by
  induction t using Block.induction generalizing p b with
  | step t ih =>
    obtain ⟨i, ty, slots, children⟩ := t
    rw [locate?] at h
    -- the block itself is asked first, then the reporters in its slots, then its children
    split at h
    · next hid =>
      cases h
      exact ⟨rfl, hid⟩
    · split at h
      · next before name after q c hslot =>
        cases h
        obtain ⟨hfill, hid⟩ := locateSlot?_some
          (fun d hd q e he => ih d (List.mem_append_left _ hd) he) hslot
        refine ⟨?_, hid⟩
        rw [Place.fill_cons, Around.fill, hfill]
        rfl
      · rw [Option.map_eq_some_iff] at h
        obtain ⟨⟨before, after, q, c⟩, hchild, he⟩ := h
        cases he
        obtain ⟨hfill, hid⟩ := locateChild?_some
          (fun d hd q e he => ih d (List.mem_append_right _ hd) he) hchild
        refine ⟨?_, hid⟩
        rw [Place.fill_cons, Around.fill, hfill]
        rfl

/-! ### Depth and edits -/

theorem depthOf?_mk (id i : ι) (t : String) (slots : List (Slot (Block ι)))
    (children : List (Block ι)) :
    depthOf? id (mk i t slots children)
      = if i = id then some 0
        else (((Slots.blocks slots ++ children).map (depthOf? id)).findSome? fun d => d).map
          (· + 1) := by
  unfold depthOf?
  rw [fold_mk, Slots.blocks_map, List.map_append]

theorem findSome?_depth_slots {id : ι} {slots : List (Slot (Block ι))}
    (ih : ∀ c ∈ Slots.blocks slots, c.depthOf? id = (c.locate? id).map (·.1.length)) :
    (((Slots.blocks slots).map (depthOf? id)).findSome? fun d => d)
      = (locateSlot? id slots).map (·.2.2.2.1.length) := by
  induction slots with
  | nil => rfl
  | cons s rest ihs =>
    cases s with
    | literal n t =>
      rw [Slots.blocks_literal, ihs ih, locateSlot?, Option.map_map]
      rfl
    | reporter n c =>
      have hrest := ihs fun d hd => ih d (List.mem_cons_of_mem c hd)
      rw [Slots.blocks_reporter, List.map_cons, List.findSome?_cons, ih c List.mem_cons_self,
        locateSlot?]
      cases c.locate? id with
      | some found => rfl
      | none =>
        dsimp only [Option.map_none]
        rw [hrest, Option.map_map]
        rfl

theorem findSome?_depth_children {id : ι} {bs : List (Block ι)}
    (ih : ∀ c ∈ bs, c.depthOf? id = (c.locate? id).map (·.1.length)) :
    ((bs.map (depthOf? id)).findSome? fun d => d)
      = (locateChild? id bs).map (·.2.2.1.length) := by
  induction bs with
  | nil => rfl
  | cons c rest ihs =>
    have hrest := ihs fun d hd => ih d (List.mem_cons_of_mem c hd)
    rw [List.map_cons, List.findSome?_cons, ih c List.mem_cons_self, locateChild?]
    cases c.locate? id with
    | some found => rfl
    | none =>
      dsimp only [Option.map_none]
      rw [hrest, Option.map_map]
      rfl

/-- **The depth of a block** is the length of its place. -/
theorem depthOf?_eq (id : ι) (b : Block ι) :
    b.depthOf? id = (b.locate? id).map (·.1.length) := by
  induction b using Block.induction with
  | step b ih =>
    obtain ⟨i, t, slots, children⟩ := b
    rw [depthOf?_mk, locate?]
    split
    · rfl
    · have hslots := @findSome?_depth_slots _ _ id slots fun c hc =>
        ih c (List.mem_append_left _ hc)
      have hchildren := @findSome?_depth_children _ _ id children fun c hc =>
        ih c (List.mem_append_right _ hc)
      rw [List.map_append, List.findSome?_append, hslots, hchildren]
      cases locateSlot? id slots with
      | some found => rfl
      | none => cases locateChild? id children <;> rfl

end Block

namespace Block

variable {ε β : Type} {id : BlockId} {edit : PlacedBlock → Except ε (PlacedBlock × β)}

theorem editSlots?_eq {slots : List (Slot PlacedBlock)}
    (ih : ∀ c ∈ Slots.blocks slots, c.editAt? id edit = (c.locate? id).map fun (p, d) =>
      (edit d).map fun (d', x) => (p.fill d', x)) :
    editSlots? id edit slots
      = (locateSlot? id slots).map fun (before, name, after, p, d) =>
          (edit d).map fun (d', x) => (before ++ .reporter name (p.fill d') :: after, x) := by
  induction slots with
  | nil => rfl
  | cons s rest ihs =>
    cases s with
    | literal n t =>
      rw [editSlots?, ihs ih, locateSlot?, Option.map_map, Option.map_map]
      congr 1
      funext ⟨before, name, after, p, d⟩
      cases hd : edit d <;> simp [hd, Except.map]
    | reporter n c =>
      have hrest := ihs fun d hd => ih d (List.mem_cons_of_mem c hd)
      rw [editSlots?, ih c List.mem_cons_self, locateSlot?]
      -- by where the block is found: what the edit gives is asked there and nowhere else
      cases c.locate? id with
      | some found =>
        obtain ⟨p, d⟩ := found
        cases hd : edit d <;> simp [hd, Except.map]
      | none =>
        dsimp only [Option.map_none]
        rw [hrest, Option.map_map, Option.map_map]
        congr 1
        funext ⟨before, name, after, p, d⟩
        cases hd : edit d <;> simp [hd, Except.map]

theorem editAll?_eq {bs : List PlacedBlock}
    (ih : ∀ c ∈ bs, c.editAt? id edit = (c.locate? id).map fun (p, d) =>
      (edit d).map fun (d', x) => (p.fill d', x)) :
    editAll? id edit bs
      = (locateChild? id bs).map fun (before, after, p, d) =>
          (edit d).map fun (d', x) => (before ++ p.fill d' :: after, x) := by
  induction bs with
  | nil => rfl
  | cons c rest ihs =>
    have hrest := ihs fun d hd => ih d (List.mem_cons_of_mem c hd)
    rw [editAll?, ih c List.mem_cons_self, locateChild?]
    cases c.locate? id with
    | some found =>
      obtain ⟨p, d⟩ := found
      cases hd : edit d <;> simp [hd, Except.map]
    | none =>
      dsimp only [Option.map_none]
      rw [hrest, Option.map_map, Option.map_map]
      congr 1
      funext ⟨before, after, p, d⟩
      cases hd : edit d <;> simp [hd, Except.map]

/-- **Editing a block** fills its place with the edited block. -/
theorem editAt?_eq (b : PlacedBlock) :
    b.editAt? id edit = (b.locate? id).map fun (p, d) =>
      (edit d).map fun (d', x) => (p.fill d', x) := by
  induction b using Block.induction with
  | step b ih =>
    obtain ⟨i, t, slots, children⟩ := b
    have hslots := @editSlots?_eq _ _ id edit slots fun c hc => ih c (List.mem_append_left _ hc)
    have hchildren := @editAll?_eq _ _ id edit children fun c hc =>
      ih c (List.mem_append_right _ hc)
    rw [editAt?, locate?]
    split
    · cases hd : edit (mk i t slots children) <;> simp [hd, Except.map]
    · rw [hslots, hchildren]
      cases locateSlot? id slots with
      | some found =>
        obtain ⟨before, name, after, p, d⟩ := found
        cases hd : edit d <;> simp [hd, Except.map, Around.fill]
      | none =>
        dsimp only [Option.map_none]
        rw [Option.map_map, Option.map_map]
        congr 1
        funext ⟨before, after, p, d⟩
        cases hd : edit d <;> simp [hd, Except.map, Around.fill]

end Block

/-! ### Taking blocks out -/

namespace Block

theorem takeChild?_some {id : BlockId} {bs rest : List PlacedBlock} {found : PlacedBlock}
    (h : takeChild? id bs = some (found, rest)) :
    ∃ before after, bs = before ++ found :: after ∧ rest = before ++ after := by
  induction bs generalizing rest with
  | nil => cases h
  | cons c cs ih =>
    rw [takeChild?] at h
    split at h
    · cases h
      exact ⟨[], cs, rfl, rfl⟩
    · rw [Option.map_eq_some_iff] at h
      obtain ⟨⟨_, others⟩, h', he⟩ := h
      cases he
      obtain ⟨before, after, rfl, rfl⟩ := ih h'
      exact ⟨c :: before, after, rfl, rfl⟩

theorem takeReporter?_some {id : BlockId} {slots rest : List (Slot PlacedBlock)}
    {found : PlacedBlock} (h : takeReporter? id slots = some (found, rest)) :
    ∃ before name after, slots = before ++ .reporter name found :: after ∧
      rest = before ++ after := by
  induction slots generalizing rest with
  | nil => cases h
  | cons s slots ih =>
    -- a slot that is passed over stays where it is
    have hskip : (takeReporter? id slots).map (fun taken => (taken.1, s :: taken.2))
        = some (found, rest) → ∃ before name after,
          s :: slots = before ++ .reporter name found :: after ∧ rest = before ++ after := by
      intro h'
      rw [Option.map_eq_some_iff] at h'
      obtain ⟨⟨_, others⟩, h', he⟩ := h'
      cases he
      obtain ⟨before, name, after, rfl, rfl⟩ := ih h'
      exact ⟨s :: before, name, after, rfl, rfl⟩
    cases s with
    | literal n t => exact hskip h
    | reporter n c =>
      rw [takeReporter?] at h
      split at h
      · cases h
        exact ⟨[], n, slots, rfl, rfl⟩
      · exact hskip h

/-- What has been taken out of a tree: it stood in a place, and what is left is the tree with nothing
in that place. -/
def Detached (b found rest : Block ι) : Prop :=
  ∃ (p : Place ι) (a : Around ι), b = p.fill (a.fill found) ∧ rest = p.fill a.leave

theorem Detached.above {b found rest : Block ι} (h : Detached b found rest) (a : Around ι) :
    Detached (a.fill b) found (a.fill rest) := by
  obtain ⟨p, a', rfl, rfl⟩ := h
  exact ⟨a :: p, a', rfl, rfl⟩

theorem detachSlots?_some {id : BlockId} {slots rest : List (Slot PlacedBlock)}
    {found : PlacedBlock}
    (ih : ∀ c ∈ Slots.blocks slots, ∀ found rest, c.detach? id = some (found, rest) →
      Detached c found rest)
    (h : detachSlots? id slots = some (found, rest)) :
    ∃ before name c c' after, slots = before ++ .reporter name c :: after ∧
      rest = before ++ .reporter name c' :: after ∧ Detached c found c' := by
  induction slots generalizing rest with
  | nil => cases h
  | cons s slots ihs =>
    cases s with
    | literal n t =>
      rw [detachSlots?, Option.map_eq_some_iff] at h
      obtain ⟨⟨_, others⟩, h', he⟩ := h
      cases he
      obtain ⟨before, name, c, c', after, rfl, rfl, hc⟩ := ihs ih h'
      exact ⟨.literal n t :: before, name, c, c', after, rfl, rfl, hc⟩
    | reporter n d =>
      rw [detachSlots?] at h
      -- the first reporter with the block in it is changed, and no slot behind it is asked
      cases hd : d.detach? id with
      | some result =>
        rw [hd] at h
        cases h
        exact ⟨[], n, d, _, slots, rfl, rfl, ih d List.mem_cons_self _ _ hd⟩
      | none =>
        rw [hd] at h
        dsimp only at h
        rw [Option.map_eq_some_iff] at h
        obtain ⟨⟨_, others⟩, h', he⟩ := h
        cases he
        obtain ⟨before, name, c, c', after, rfl, rfl, hc⟩ :=
          ihs (fun e he => ih e (List.mem_cons_of_mem d he)) h'
        exact ⟨.reporter n d :: before, name, c, c', after, rfl, rfl, hc⟩

theorem detachAll?_some {id : BlockId} {bs rest : List PlacedBlock} {found : PlacedBlock}
    (ih : ∀ c ∈ bs, ∀ found rest, c.detach? id = some (found, rest) → Detached c found rest)
    (h : detachAll? id bs = some (found, rest)) :
    ∃ before c c' after, bs = before ++ c :: after ∧ rest = before ++ c' :: after ∧
      Detached c found c' := by
  induction bs generalizing rest with
  | nil => cases h
  | cons d bs ihs =>
    rw [detachAll?] at h
    cases hd : d.detach? id with
    | some result =>
      rw [hd] at h
      cases h
      exact ⟨[], d, _, bs, rfl, rfl, ih d List.mem_cons_self _ _ hd⟩
    | none =>
      rw [hd] at h
      dsimp only at h
      rw [Option.map_eq_some_iff] at h
      obtain ⟨⟨_, others⟩, h', he⟩ := h
      cases he
      obtain ⟨before, c, c', after, rfl, rfl, hc⟩ :=
        ihs (fun e he => ih e (List.mem_cons_of_mem d he)) h'
      exact ⟨d :: before, c, c', after, rfl, rfl, hc⟩

/-- **Detaching** takes a block out of its place below the root. -/
theorem detached_of_detach? {id : BlockId} {b found rest : PlacedBlock}
    (h : b.detach? id = some (found, rest)) : Detached b found rest := by
  induction b using Block.induction generalizing found rest with
  | step b ih =>
    obtain ⟨i, t, slots, children⟩ := b
    have hslots : ∀ c ∈ Slots.blocks slots, ∀ found rest,
        c.detach? id = some (found, rest) → Detached c found rest := fun c hc _ _ =>
      ih c (List.mem_append_left _ hc)
    have hchildren : ∀ c ∈ children, ∀ found rest,
        c.detach? id = some (found, rest) → Detached c found rest := fun c hc _ _ =>
      ih c (List.mem_append_right _ hc)
    rw [detach?] at h
    -- the four places are tried in the order of the definition
    split at h
    · next found' rest' hchild =>
      cases h
      obtain ⟨before, after, rfl, rfl⟩ := takeChild?_some hchild
      exact ⟨[], .child i t slots before after, rfl, rfl⟩
    · split at h
      · next found' rest' hslot =>
        cases h
        obtain ⟨before, name, after, rfl, rfl⟩ := takeReporter?_some hslot
        exact ⟨[], .slot i t before name after children, rfl, rfl⟩
      · split at h
        · next found' rest' hbelow =>
          cases h
          obtain ⟨before, name, c, c', after, rfl, rfl, hc⟩ := detachSlots?_some hslots hbelow
          exact hc.above (.slot i t before name after children)
        · rw [Option.map_eq_some_iff] at h
          obtain ⟨⟨_, rest'⟩, hbelow, he⟩ := h
          cases he
          obtain ⟨before, c, c', after, rfl, rfl, hc⟩ := detachAll?_some hchildren hbelow
          exact hc.above (.child i t slots before after)

end Block

/-! ### Parts -/

namespace Around

theorem mem_parts_fill {a : Around ι} {b c : Block ι} :
    c ∈ (a.fill b).parts ↔ c = b ∨ c ∈ a.others := by
  cases a with
  | slot i t before name after children =>
    unfold fill others Slots.blocks
    rw [Block.parts_mk]
    simp only [Slots.blocks, List.filterMap_append, List.mem_append]
    change (_ ∨ c ∈ b :: _) ∨ _ ↔ _
    rw [List.mem_cons]
    tauto
  | child i t slots before after =>
    unfold fill others
    rw [Block.parts_mk]
    simp only [List.mem_append, List.mem_cons]
    tauto

/-- The block in the place is a part of the block above. -/
theorem mem_parts_self (a : Around ι) (b : Block ι) : b ∈ (a.fill b).parts := by
  rw [mem_parts_fill]
  exact Or.inl rfl

theorem mem_parts_of_others {a : Around ι} {b c : Block ι} (h : c ∈ a.others) :
    c ∈ (a.fill b).parts := by
  rw [mem_parts_fill]
  exact Or.inr h

theorem mem_parts_leave {a : Around ι} {c : Block ι} : c ∈ a.leave.parts ↔ c ∈ a.others := by
  cases a with
  | slot i t before name after children =>
    unfold leave others
    rw [Block.parts_mk]
    simp only [Slots.blocks, List.filterMap_append, List.mem_append]
    tauto
  | child i t slots before after => exact Iff.rfl

end Around

/-! ### Subtrees by their places -/

namespace Block

/-- What is around a part of a block. -/
theorem exists_around {b c : Block ι} (h : c ∈ b.parts) : ∃ a : Around ι, a.fill c = b := by
  obtain ⟨i, t, slots, children⟩ := b
  rcases List.mem_append.mp h with h | h
  · obtain ⟨name, hname⟩ := Slots.mem_blocks.mp h
    obtain ⟨before, after, rfl⟩ := List.append_of_mem hname
    exact ⟨.slot i t before name after children, rfl⟩
  · obtain ⟨before, after, rfl⟩ := List.append_of_mem h
    exact ⟨.child i t slots before after, rfl⟩

/-- **A subtree** stands at a place. -/
theorem mem_subtrees_iff_place {b c : Block ι} :
    c ∈ b.subtrees ↔ ∃ p : Place ι, p.fill c = b := by
  constructor
  · intro h
    induction b using Block.induction with
    | step b ih =>
      rcases mem_subtrees.mp h with rfl | ⟨d, hd, hc⟩
      · exact ⟨[], rfl⟩
      · obtain ⟨p, rfl⟩ := ih d hd hc
        obtain ⟨a, rfl⟩ := exists_around hd
        exact ⟨a :: p, rfl⟩
  · rintro ⟨p, rfl⟩
    induction p with
    | nil => exact c.self_mem_subtrees
    | cons a p ih => exact mem_subtrees.mpr (Or.inr ⟨_, a.mem_parts_self _, ih⟩)

end Block

/-! ### Height -/

theorem Around.height_fill_le {a : Around ι} {b : Block ι} {n : Nat} :
    (a.fill b).height ≤ n + 1 ↔ b.height ≤ n ∧ ∀ c ∈ a.others, c.height ≤ n := by
  rw [Block.height_le_succ]
  constructor
  · intro h
    refine ⟨h b (a.mem_parts_self b), ?_⟩
    intro c hc
    exact h c (mem_parts_of_others hc)
  · rintro ⟨hb, hothers⟩ c hc
    rw [mem_parts_fill] at hc
    obtain rfl | hc := hc
    · exact hb
    · exact hothers c hc

theorem Around.height_leave_le {a : Around ι} {b : Block ι} :
    a.leave.height ≤ (a.fill b).height := by
  refine Block.height_le_of_parts (a.fill b).height_pos fun c hc => ?_
  rw [mem_parts_leave] at hc
  exact Block.height_lt_of_mem_parts (mem_parts_of_others hc)

namespace Place

/-- A block is as far from the limit as its place allows. -/
theorem length_add_height_le (p : Place ι) (b : Block ι) :
    p.length + b.height ≤ (p.fill b).height := by
  induction p with
  | nil => exact (Nat.zero_add _).le
  | cons a p ih =>
    have hlt := Block.height_lt_of_mem_parts (a.mem_parts_self (Place.fill b p))
    rw [List.length_cons, fill_cons]
    omega

/-- **The height of a filled place**: a block that is not too high for the place makes the tree not
too high. -/
theorem height_fill_le {p : Place ι} {b c : Block ι} {n : Nat} (h : (p.fill b).height ≤ n)
    (hc : p.length + c.height ≤ n) : (p.fill c).height ≤ n := by
  induction p generalizing n with
  | nil =>
    rw [List.length_nil, Nat.zero_add] at hc
    exact hc
  | cons a p ih =>
    rw [List.length_cons] at hc
    obtain ⟨m, rfl⟩ := Nat.exists_eq_succ_of_ne_zero (show n ≠ 0 by omega)
    rw [fill_cons, Around.height_fill_le] at h ⊢
    exact ⟨ih h.1 (by omega), h.2⟩

end Place

/-! ### The rules -/

namespace Around

variable {r : Registry} {a : Around ι} {b c : Block ι}

/-- The rules do not ask for more of a part than its shape. -/
theorem obeys_fill (h : (a.fill b).Obeys r) (hshape : c.shape? r = b.shape? r) :
    (a.fill c).Obeys r := by
  cases a with
  | slot i t before name after children =>
    obtain ⟨hknown, hslots, hcontainer, hchildren⟩ := h
    have hothers : before ++ after ⊆ before ++ .reporter name b :: after :=
      ((List.sublist_cons_self _ after).append_left before).subset
    refine ⟨?_, ?_, hcontainer, hchildren⟩
    · intro s hs
      -- the slot of the part keeps its name, and that is all that is asked of it
      rcases List.mem_cons.mp (List.perm_middle.mem_iff.mp hs) with rfl | hs
      · exact hknown (.reporter name b) List.mem_append_cons_self
      · exact hknown s (hothers hs)
    · intro d hd
      obtain ⟨n, hn⟩ := Slots.mem_blocks.mp hd
      rcases List.mem_cons.mp (List.perm_middle.mem_iff.mp hn) with hn | hn
      · cases hn
        rw [hshape]
        exact hslots b (Slots.mem_blocks.mpr ⟨_, List.mem_append_cons_self⟩)
      · exact hslots d (Slots.mem_blocks.mpr ⟨n, hothers hn⟩)
  | child i t slots before after =>
    obtain ⟨hknown, hslots, hcontainer, hchildren⟩ := h
    have hothers : before ++ after ⊆ before ++ b :: after :=
      ((List.sublist_cons_self _ after).append_left before).subset
    refine ⟨hknown, hslots, fun _ => hcontainer (by simp [fill, Block.children]), ?_⟩
    intro d hd
    rcases List.mem_cons.mp (List.perm_middle.mem_iff.mp hd) with rfl | hd
    · rw [hshape]
      exact hchildren b List.mem_append_cons_self
    · exact hchildren d (hothers hd)

/-- Nor for any part to be there. -/
theorem obeys_leave (h : (a.fill b).Obeys r) : a.leave.Obeys r := by
  cases a with
  | slot i t before name after children =>
    have hslots : before ++ after ⊆ before ++ .reporter name b :: after :=
      ((List.sublist_cons_self _ after).append_left before).subset
    exact h.of_subset rfl hslots (List.Subset.refl _)
  | child i t slots before after =>
    have hchildren : before ++ after ⊆ before ++ b :: after :=
      ((List.sublist_cons_self _ after).append_left before).subset
    exact h.of_subset rfl (List.Subset.refl _) hchildren

theorem shape?_fill (a : Around ι) (b c : Block ι) :
    (a.fill b).shape? r = (a.fill c).shape? r := by
  cases a <;> rfl

theorem shape?_leave (a : Around ι) (b : Block ι) : a.leave.shape? r = (a.fill b).shape? r := by
  cases a <;> rfl

end Around

namespace Block

variable {r : Registry} {b c : Block ι}

theorem WellFormed.fill_around {a : Around ι} (h : (a.fill b).WellFormed r)
    (hc : c.WellFormed r) (hshape : c.shape? r = b.shape? r) : (a.fill c).WellFormed r := by
  rw [wellFormed_iff] at h ⊢
  refine ⟨Around.obeys_fill h.1 hshape, ?_⟩
  intro d hd
  rw [Around.mem_parts_fill] at hd
  obtain rfl | hd := hd
  · exact hc
  · exact h.2 d (Around.mem_parts_of_others hd)

theorem WellFormed.leave {a : Around ι} (h : (a.fill b).WellFormed r) : a.leave.WellFormed r := by
  rw [wellFormed_iff] at h ⊢
  refine ⟨Around.obeys_leave h.1, ?_⟩
  intro d hd
  rw [Around.mem_parts_leave] at hd
  exact h.2 d (Around.mem_parts_of_others hd)

theorem WellFormed.of_fill {p : Place ι} (h : (p.fill b).WellFormed r) : b.WellFormed r := by
  induction p with
  | nil => exact h
  | cons a p ih => exact ih (h.part (a.mem_parts_self _))

theorem shape?_fill {p : Place ι} (hshape : c.shape? r = b.shape? r) :
    (p.fill c).shape? r = (p.fill b).shape? r := by
  cases p with
  | nil => exact hshape
  | cons a p => exact a.shape?_fill _ _

/-- **The rules hold in a filled place** as before, if the new block obeys them and has the shape of
the old one. -/
theorem WellFormed.fill {p : Place ι} (h : (p.fill b).WellFormed r) (hc : c.WellFormed r)
    (hshape : c.shape? r = b.shape? r) : (p.fill c).WellFormed r := by
  induction p with
  | nil => exact hc
  | cons a p ih =>
    have hpart : (Place.fill b p).WellFormed r := h.part (a.mem_parts_self _)
    exact h.fill_around (ih hpart) (shape?_fill hshape)

end Block

/-- What a tree that has lost a block keeps. -/
theorem Block.Detached.keeps {r : Registry} {b found rest : Block ι} (h : Detached b found rest)
    (hb : b.WellFormed r) :
    found.WellFormed r ∧ rest.WellFormed r ∧ rest.shape? r = b.shape? r ∧
      found.height ≤ b.height ∧ rest.height ≤ b.height := by
  obtain ⟨p, a, rfl, rfl⟩ := h
  have habove : (a.fill found).WellFormed r := hb.of_fill
  have hshape : a.leave.shape? r = (a.fill found).shape? r := a.shape?_leave found
  have hplace := p.length_add_height_le (a.fill found)
  have hleave : a.leave.height ≤ (a.fill found).height := Around.height_leave_le
  have hpart := a.mem_parts_self found
  have hfound := height_lt_of_mem_parts hpart
  refine ⟨habove.part hpart, hb.fill habove.leave hshape, shape?_fill hshape, by omega, ?_⟩
  exact Place.height_fill_le le_rfl (by omega)

end Blockwork
