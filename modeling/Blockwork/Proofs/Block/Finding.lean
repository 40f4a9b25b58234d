import Mathlib
import Blockwork.Proofs.Block.Identifiers

/-!
# Finding a block by its identifier

Each function that is given an identifier goes through the tree in its own order, and all of them
come to the same place as long as the identifier stands nowhere around it. Then the block is located
where it is (`Place.locate?_fill`), and detaching takes it out of there (`Place.detach?_fill`). An
identifier that is nowhere in the tree is found by none of them.

The converses, that what has been located or detached stood in a place, hold whatever the
identifiers are, and are shown with the places themselves.
-/

namespace Blockwork

open scoped List

variable {ι : Type}

theorem Block.id_mem_ids (b : Block ι) : b.id ∈ b.ids := by
  rw [ids_eq]
  exact List.mem_cons_self

theorem Block.mem_ids_of_mem_parts {b c : Block ι} {i : ι} (hc : c ∈ b.parts) (hi : i ∈ c.ids) :
    i ∈ b.ids := by
  rw [ids_eq]
  exact List.mem_cons_of_mem _ (List.mem_flatMap.mpr ⟨c, hc, hi⟩)

namespace Around

theorem id_fill (a : Around ι) (b : Block ι) : (a.fill b).id = a.leave.id := by
  cases a <;> rfl

theorem id_fill_mem_ids (a : Around ι) (b : Block ι) : (a.fill b).id ∈ a.ids := by
  rw [id_fill]
  exact a.leave.id_mem_ids

theorem not_mem_ids_others {a : Around ι} {i : ι} (h : i ∉ a.ids) : ∀ c ∈ a.others, i ∉ c.ids :=
  fun _ hc hi => h (Block.mem_ids_of_mem_parts (mem_parts_leave.mpr hc) hi)

end Around

theorem Place.not_mem_ids_cons {a : Around ι} {p : Place ι} {i : ι} :
    i ∉ Place.ids (a :: p) ↔ i ∉ a.ids ∧ i ∉ p.ids := by
  unfold ids
  rw [List.flatMap_cons, List.mem_append, not_or]

theorem Place.fill_concat (p : Place ι) (a : Around ι) (b : Block ι) :
    Place.fill b (p ++ [a]) = p.fill (a.fill b) := by
  induction p with
  | nil => rfl
  | cons above p ih => exact congrArg above.fill ih

/-- What is above a block has another identifier. -/
theorem Place.id_fill_ne {p : Place ι} {a : Around ι} {b : Block ι} (ha : b.id ∉ a.ids)
    (hp : b.id ∉ p.ids) : (p.fill (a.fill b)).id ≠ b.id := by
  cases p with
  | nil => exact ne_of_mem_of_not_mem (a.id_fill_mem_ids b) ha
  | cons above p =>
    exact ne_of_mem_of_not_mem (above.id_fill_mem_ids _) (not_mem_ids_cons.mp hp).1

/-! ### Locating -/

namespace Block

variable [DecidableEq ι] {id : ι} {b c : Block ι} {p : Place ι}

theorem locate?_eq_none (h : id ∉ b.ids) : b.locate? id = none := by
  cases hb : b.locate? id with
  | none => rfl
  | some found =>
    obtain ⟨p, c⟩ := found
    obtain ⟨rfl, rfl⟩ := fill_of_locate? hb
    exact absurd ((p.ids_fill c).mem_iff.mpr (List.mem_append_left _ c.id_mem_ids)) h

theorem locateSlot?_eq_none {slots : List (Slot (Block ι))}
    (h : ∀ c ∈ Slots.blocks slots, c.locate? id = none) : locateSlot? id slots = none := by
  induction slots with
  | nil => rfl
  | cons s rest ih =>
    cases s with
    | literal n t =>
      rw [locateSlot?, ih h]
      rfl
    | reporter n c =>
      obtain ⟨hc, hrest⟩ := List.forall_mem_cons.mp h
      rw [locateSlot?, hc, ih hrest]
      rfl

theorem locateSlot?_middle {before : List (Slot (Block ι))} (name : String)
    (after : List (Slot (Block ι)))
    (hbefore : ∀ c ∈ Slots.blocks before, c.locate? id = none)
    (h : c.locate? id = some (p, b)) :
    locateSlot? id (before ++ .reporter name c :: after) = some (before, name, after, p, b) := by
  induction before with
  | nil =>
    rw [List.nil_append, locateSlot?, h]
  | cons s before ih =>
    rw [List.cons_append]
    cases s with
    | literal n t =>
      rw [locateSlot?, ih hbefore]
      rfl
    | reporter n d =>
      obtain ⟨hd, hbefore⟩ := List.forall_mem_cons.mp hbefore
      rw [locateSlot?, hd, ih hbefore]
      rfl

theorem locateChild?_middle {before : List (Block ι)} (after : List (Block ι))
    (hbefore : ∀ c ∈ before, c.locate? id = none) (h : c.locate? id = some (p, b)) :
    locateChild? id (before ++ c :: after) = some (before, after, p, b) := by
  induction before with
  | nil =>
    rw [List.nil_append, locateChild?, h]
  | cons d before ih =>
    obtain ⟨hd, hbefore⟩ := List.forall_mem_cons.mp hbefore
    rw [List.cons_append, locateChild?, hd, ih hbefore]
    rfl

end Block

/-- **A block is located where it is** if nothing around it has its identifier. -/
theorem Place.locate?_fill [DecidableEq ι] {p : Place ι} {b : Block ι} (h : b.id ∉ p.ids) :
    (p.fill b).locate? b.id = some (p, b) := by
  induction p with
  | nil =>
    obtain ⟨i, t, slots, children⟩ := b
    exact if_pos rfl
  | cons a p ih =>
    obtain ⟨ha, hp⟩ := not_mem_ids_cons.mp h
    have hbelow := ih hp
    have hid : (a.fill (Place.fill b p)).id ≠ b.id :=
      ne_of_mem_of_not_mem (a.id_fill_mem_ids _) ha
    have hothers : ∀ c ∈ a.others, c.locate? b.id = none :=
      fun c hc => Block.locate?_eq_none (Around.not_mem_ids_others ha c hc)
    rw [fill_cons]
    cases a with
    | slot i t before name after children =>
      change i ≠ b.id at hid
      have hslot := Block.locateSlot?_middle name after
        (fun c hc => hothers c (List.mem_append_left _ hc)) hbelow
      rw [Around.fill, Block.locate?, if_neg hid, hslot]
    | child i t slots before after =>
      change i ≠ b.id at hid
      -- the slots are searched before the children
      have hslots := Block.locateSlot?_eq_none fun c hc => hothers c (List.mem_append_left _ hc)
      have hchild := Block.locateChild?_middle after
        (fun c hc => hothers c (List.mem_append_right _ (List.mem_append_left _ hc))) hbelow
      rw [Around.fill, Block.locate?, if_neg hid, hslots, hchild]
      rfl

/-! ### Detaching -/

namespace Block

variable {id : BlockId} {b b' c : PlacedBlock}

theorem takeChild?_eq_none {bs : List PlacedBlock} (h : ∀ c ∈ bs, c.id ≠ id) :
    takeChild? id bs = none := by
  induction bs with
  | nil => rfl
  | cons c rest ih =>
    obtain ⟨hc, hrest⟩ := List.forall_mem_cons.mp h
    rw [takeChild?, if_neg hc, ih hrest]
    rfl

theorem takeChild?_middle {before : List PlacedBlock} (after : List PlacedBlock)
    (hbefore : ∀ c ∈ before, c.id ≠ b.id) :
    takeChild? b.id (before ++ b :: after) = some (b, before ++ after) := by
  induction before with
  | nil => exact if_pos rfl
  | cons d before ih =>
    obtain ⟨hd, hbefore⟩ := List.forall_mem_cons.mp hbefore
    rw [List.cons_append, takeChild?, if_neg hd, ih hbefore]
    rfl

theorem takeReporter?_eq_none {slots : List (Slot PlacedBlock)}
    (h : ∀ c ∈ Slots.blocks slots, c.id ≠ id) : takeReporter? id slots = none := by
  induction slots with
  | nil => rfl
  | cons s rest ih =>
    cases s with
    | literal n t =>
      rw [takeReporter?, ih h]
      rfl
    | reporter n c =>
      obtain ⟨hc, hrest⟩ := List.forall_mem_cons.mp h
      rw [takeReporter?, if_neg hc, ih hrest]
      rfl

theorem takeReporter?_middle {before : List (Slot PlacedBlock)} (name : String)
    (after : List (Slot PlacedBlock))
    (hbefore : ∀ c ∈ Slots.blocks before, c.id ≠ b.id) :
    takeReporter? b.id (before ++ .reporter name b :: after) = some (b, before ++ after) := by
  induction before with
  | nil => exact if_pos rfl
  | cons s before ih =>
    rw [List.cons_append]
    cases s with
    | literal n t =>
      rw [takeReporter?, ih hbefore]
      rfl
    | reporter n d =>
      obtain ⟨hd, hbefore⟩ := List.forall_mem_cons.mp hbefore
      rw [takeReporter?, if_neg hd, ih hbefore]
      rfl

theorem detachSlots?_eq_none {slots : List (Slot PlacedBlock)}
    (h : ∀ c ∈ Slots.blocks slots, c.detach? id = none) : detachSlots? id slots = none := by
  induction slots with
  | nil => rfl
  | cons s rest ih =>
    cases s with
    | literal n t =>
      rw [detachSlots?, ih h]
      rfl
    | reporter n c =>
      obtain ⟨hc, hrest⟩ := List.forall_mem_cons.mp h
      rw [detachSlots?, hc, ih hrest]
      rfl

theorem detachSlots?_middle {before : List (Slot PlacedBlock)} (name : String)
    (after : List (Slot PlacedBlock))
    (hbefore : ∀ c ∈ Slots.blocks before, c.detach? id = none)
    (h : c.detach? id = some (b, b')) :
    detachSlots? id (before ++ .reporter name c :: after)
      = some (b, before ++ .reporter name b' :: after) := by
  induction before with
  | nil =>
    rw [List.nil_append, detachSlots?, h]
    rfl
  | cons s before ih =>
    rw [List.cons_append]
    cases s with
    | literal n t =>
      rw [detachSlots?, ih hbefore]
      rfl
    | reporter n d =>
      obtain ⟨hd, hbefore⟩ := List.forall_mem_cons.mp hbefore
      rw [detachSlots?, hd, ih hbefore]
      rfl

theorem detachAll?_eq_none {bs : List PlacedBlock} (h : ∀ c ∈ bs, c.detach? id = none) :
    detachAll? id bs = none := by
  induction bs with
  | nil => rfl
  | cons c rest ih =>
    obtain ⟨hc, hrest⟩ := List.forall_mem_cons.mp h
    rw [detachAll?, hc, ih hrest]
    rfl

theorem detachAll?_middle {before : List PlacedBlock} (after : List PlacedBlock)
    (hbefore : ∀ c ∈ before, c.detach? id = none) (h : c.detach? id = some (b, b')) :
    detachAll? id (before ++ c :: after) = some (b, before ++ b' :: after) := by
  induction before with
  | nil =>
    rw [List.nil_append, detachAll?, h]
    rfl
  | cons d before ih =>
    obtain ⟨hd, hbefore⟩ := List.forall_mem_cons.mp hbefore
    rw [List.cons_append, detachAll?, hd, ih hbefore]
    rfl

/-- Of what is not directly below a block, nothing is taken there. -/
theorem take?_eq_none (h : ∀ c ∈ b.parts, c.id ≠ id) :
    takeChild? id b.children = none ∧ takeReporter? id b.slots = none :=
  ⟨takeChild?_eq_none fun c hc => h c (List.mem_append_right _ hc),
    takeReporter?_eq_none fun c hc => h c (List.mem_append_left _ hc)⟩

theorem detach?_eq_none (h : id ∉ b.ids) : b.detach? id = none := by
  induction b using Block.induction with
  | step b ih =>
    have hparts : ∀ c ∈ b.parts, id ∉ c.ids := fun c hc hi => h (mem_ids_of_mem_parts hc hi)
    have hbelow : ∀ c ∈ b.parts, c.detach? id = none := fun c hc => ih c hc (hparts c hc)
    obtain ⟨hchild, hreporter⟩ :=
      take?_eq_none fun c hc => ne_of_mem_of_not_mem c.id_mem_ids (hparts c hc)
    obtain ⟨i, t, slots, children⟩ := b
    have hslots := detachSlots?_eq_none fun c hc => hbelow c (List.mem_append_left _ hc)
    have hchildren := detachAll?_eq_none fun c hc => hbelow c (List.mem_append_right _ hc)
    dsimp only [Block.children, Block.slots] at hchild hreporter hslots hchildren
    rw [detach?, hchild, hreporter, hslots, hchildren]
    rfl

end Block

/-- **Detaching takes a block out of where it is** if nothing around it has its identifier. -/
theorem Place.detach?_fill {p : Place BlockId} {a : Around BlockId} {b : PlacedBlock}
    (ha : b.id ∉ a.ids) (hp : b.id ∉ p.ids) :
    (p.fill (a.fill b)).detach? b.id = some (b, p.fill a.leave) := by
  induction p with
  | nil =>
    have hothers : ∀ c ∈ a.others, c.id ≠ b.id :=
      fun c hc => ne_of_mem_of_not_mem c.id_mem_ids (Around.not_mem_ids_others ha c hc)
    rw [fill_nil]
    cases a with
    | child i t slots before after =>
      have hchild := Block.takeChild?_middle after fun c hc =>
        hothers c (List.mem_append_right _ (List.mem_append_left _ hc))
      rw [Around.fill, Block.detach?, hchild]
      rfl
    | slot i t before name after children =>
      have hchildren := Block.takeChild?_eq_none fun c hc =>
        hothers c (List.mem_append_right _ (List.mem_append_right _ hc))
      have hslot := Block.takeReporter?_middle name after fun c hc =>
        hothers c (List.mem_append_left _ hc)
      rw [Around.fill, Block.detach?, hchildren, hslot]
      rfl
  | cons above p ih =>
    obtain ⟨habove, hp⟩ := not_mem_ids_cons.mp hp
    have hbelow := ih hp
    have hwhole : (Place.fill (a.fill b) p).id ≠ b.id := id_fill_ne ha hp
    rw [fill_cons]
    generalize Place.fill (a.fill b) p = whole at hbelow hwhole ⊢
    -- the block stands further down: neither it nor another of its name is found directly below
    have hothers : ∀ c ∈ above.others, b.id ∉ c.ids := Around.not_mem_ids_others habove
    have hnone : ∀ c ∈ above.others, c.detach? b.id = none :=
      fun c hc => Block.detach?_eq_none (hothers c hc)
    obtain ⟨hchild, hreporter⟩ := Block.take?_eq_none (b := above.fill whole) fun c hc => by
      rcases Around.mem_parts_fill.mp hc with rfl | hc
      · exact hwhole
      · exact ne_of_mem_of_not_mem c.id_mem_ids (hothers c hc)
    cases above with
    | slot i t before name after children =>
      have hslot := Block.detachSlots?_middle name after
        (fun c hc => hnone c (List.mem_append_left _ hc)) hbelow
      dsimp only [Around.fill, Block.children, Block.slots] at hchild hreporter ⊢
      rw [Block.detach?, hchild, hreporter, hslot]
      rfl
    | child i t slots before after =>
      have hslots := Block.detachSlots?_eq_none fun c hc => hnone c (List.mem_append_left _ hc)
      have hbelow := Block.detachAll?_middle after
        (fun c hc => hnone c (List.mem_append_right _ (List.mem_append_left _ hc))) hbelow
      dsimp only [Around.fill, Block.children, Block.slots] at hchild hreporter ⊢
      rw [Block.detach?, hchild, hreporter, hslots, hbelow]
      rfl

end Blockwork
