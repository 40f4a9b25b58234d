import Mathlib
import Blockwork.Proofs.Snapshot.Encoding

/-!
# What is read is in order

Slots and assets are lists that stand for maps, and are in the order of their names. A snapshot that
is given as lists need not be, but one that is read from a text always is (`Snapshot.ordered_of_ofText`,
`Snapshot.ordered_of_ofShareToken`), in whatever order the text has the members: a reader puts each
in its place. So encoding loses nothing of a snapshot that has been read.

`Json.Reader.Gives` says of a reader what holds of all it gives. It is closed under the ways in which
readers are put together.
-/

namespace Blockwork

/-! ### What readers give -/

namespace Json.Reader

variable {α β : Type} {P : α → Prop} {Q : β → Prop} {x : Reader α} {f : α → Reader β}

/-- Whatever the reader gives has the property. -/
def Gives (P : α → Prop) (x : Reader α) : Prop :=
  ∀ bytes a rest, x.run bytes = .ok (a, rest) → P a

theorem gives_pure {a : α} (h : P a) : Gives P (pure a : Reader α) := by
  intro bytes a' rest ha
  cases ha
  exact h

theorem gives_fail (fault : ReadFault) : Gives P (fail fault : Reader α) := by
  intro bytes a rest h
  cases h

theorem Gives.bind (hx : Gives P x) (hf : ∀ a, P a → Gives Q (f a)) : Gives Q (x >>= f) := by
  intro bytes b rest h
  obtain ⟨⟨a, between⟩, ha, hb⟩ := except_bind_eq_ok h
  exact hf a (hx bytes a between ha) between b rest hb

/-- What the first reader gives does not matter. -/
theorem gives_then (hf : ∀ a, Gives Q (f a)) : Gives Q (x >>= f) :=
  Gives.bind (P := fun _ => True) (fun _ _ _ _ => trivial) fun a _ => hf a

theorem gives_wrongType : Gives P (wrongType : Reader α) := by
  unfold wrongType
  refine gives_then fun bytes => ?_
  cases bytes with
  | nil => exact gives_fail _
  | cons b rest =>
    -- whatever the value begins with, the last thing is to fail
    dsimp only
    repeat' split
    all_goals first
      | exact gives_fail _
      | exact gives_then fun _ => gives_fail _
      | exact gives_then fun _ => gives_then fun _ => gives_fail _

theorem gives_elements (h : Gives P x) (bound : Nat) (first : Bool) :
    Gives (fun xs => ∀ a ∈ xs, P a) (elements x bound first) := by
  induction bound generalizing first with
  | zero => exact gives_fail _
  | succ bound ih =>
    rw [elements]
    refine gives_then fun more => ?_
    cases more with
    | true =>
      exact h.bind fun a ha => (ih false).bind fun xs hxs =>
        gives_pure (List.forall_mem_cons.mpr ⟨ha, hxs⟩)
    | false => exact gives_then fun _ => gives_pure (List.forall_mem_nil _)

theorem gives_array {inner : (room : Nat) → Reader α} (h : ∀ room, Gives P (inner room))
    (bound room : Nat) : Gives (fun xs => ∀ a ∈ xs, P a) (array bound room inner) := by
  unfold array
  refine gives_then fun b => ?_
  split
  · cases room with
    | zero => exact gives_fail _
    | succ room => exact gives_then fun _ => gives_elements (h room) bound true
  · exact gives_wrongType

/-- What every member keeps, the object has. -/
theorem gives_members {member : α → String → Reader α}
    (h : ∀ a key, P a → Gives P (member a key)) (bound : Nat) (first : Bool) {a : α} (ha : P a) :
    Gives P (members member bound first a) := by
  induction bound generalizing first a with
  | zero => exact gives_fail _
  | succ bound ih =>
    rw [members]
    refine gives_then fun more => ?_
    cases more with
    | true =>
      refine gives_then fun b => ?_
      split
      · exact gives_then fun _ => gives_then fun key => (h a key ha).bind fun a' ha' => ih false ha'
      · exact gives_fail _
    | false => exact gives_then fun _ => gives_pure ha

theorem gives_map {inner : (room : Nat) → Reader α} {put : β → String → α → β} {empty : β}
    (h : ∀ room, Gives P (inner room)) (hput : ∀ b key a, Q b → P a → Q (put b key a))
    (hempty : Q empty) (bound room : Nat) : Gives Q (map bound room inner empty put) := by
  unfold map
  refine gives_then fun b => ?_
  split
  · cases room with
    | zero => exact gives_fail _
    | succ room =>
      refine gives_then fun _ => gives_members (fun b key hb => ?_) bound true hempty
      exact gives_then fun _ => (h room).bind fun a ha => gives_pure (hput b key a hb ha)
  · exact gives_wrongType

theorem gives_fieldElements {fields : List (RecordField α)}
    (h : ∀ field ∈ fields, ∀ room a, P a → Gives P (field.read room a)) (room : Nat) (first : Bool)
    {a : α} (ha : P a) : Gives P (fieldElements room fields first a) := by
  induction fields generalizing first a with
  | nil =>
    rw [fieldElements]
    refine gives_then fun b => ?_
    split
    · exact gives_then fun _ => gives_then fun _ => gives_pure ha
    · exact gives_then fun _ => gives_pure ha
  | cons field fields ih =>
    obtain ⟨hfield, hfields⟩ := List.forall_mem_cons.mp h
    rw [fieldElements]
    refine gives_then fun b => ?_
    split
    · split
      · exact gives_then fun _ => gives_pure ha
      · exact gives_fail _
    · exact gives_then fun _ => (hfield room a ha).bind fun a' ha' => ih hfields false ha'

/-- What every field keeps, the record has, in whatever order the fields come. -/
theorem gives_record {fields : List (RecordField α)} {start : α}
    (h : ∀ field ∈ fields, ∀ room a, P a → Gives P (field.read room a)) (hstart : P start)
    (bound room : Nat) : Gives P (record bound room fields start) := by
  have hvalue : ∀ room a key, P a → Gives P (fieldValue bound room fields a key) := by
    intro room a key ha
    unfold fieldValue
    split
    · exact gives_then fun _ => gives_then fun _ => gives_pure ha
    · next field hfield =>
      -- a field that comes a second time is refused, so nothing is overwritten
      split
      · exact gives_fail _
      · exact gives_then fun _ => h field (List.mem_of_find?_eq_some hfield) room a ha
  unfold record
  refine gives_then fun b => ?_
  -- an object gives its fields by their keys, an array by their positions
  split
  · cases room with
    | zero => exact gives_fail _
    | succ room =>
      refine gives_then fun _ => ?_
      refine (gives_members (fun a key ha => hvalue room a key ha) bound true hstart).bind
        fun a ha => ?_
      split
      · exact gives_pure ha
      · exact gives_fail _
  · split
    · cases room with
      | zero => exact gives_fail _
      | succ room => exact gives_then fun _ => gives_fieldElements h room true hstart
    · exact gives_wrongType

theorem of_whole {value : (bound : Nat) → Reader α} {bytes : List UInt8} {a : α}
    (h : ∀ bound, Gives P (value bound)) (hwhole : whole value bytes = .ok a) : P a := by
  unfold whole at hwhole
  obtain ⟨⟨a', rest⟩, hread, hrest⟩ := except_bind_eq_ok hwhole
  dsimp only at hrest
  split at hrest
  · cases hrest
    exact h _ bytes a rest hread
  · cases hrest

end Json.Reader

/-! ### Snapshots -/

namespace Snapshot

open Json Json.Reader

/-- What has been read of a block is in order. -/
structure BlockParts.Sorted (p : BlockParts) : Prop where
  slots : ∀ slots, p.slots = some slots → Slots.Ascending slots
  blocks : ∀ slots, p.slots = some slots → ∀ c ∈ Slots.blocks slots, c.Sorted
  children : ∀ children, p.children = some children → ∀ c ∈ children, c.Sorted

variable {read : (room : Nat) → Reader (Block Unit)}

/-- What is in a slot is in order, whatever the name of the slot is. -/
def Fills (make : String → Slot (Block Unit)) : Prop :=
  ∀ name c, (make name).block? = some c → c.Sorted

theorem gives_slot (h : ∀ room, Gives Block.Sorted (read room)) (room : Nat) :
    Gives Fills (blockFields.slot read room) := by
  -- what has been read is given back behind the closing brace
  have hclosed : ∀ make, Fills make → Gives Fills (do
      if (← peek) = code '}' then drop else fail .syntaxError
      return make) := by
    intro make hmake
    refine gives_then fun b => ?_
    split <;> exact gives_then fun _ => gives_pure hmake
  have hliteral : ∀ text, Fills fun name => Slot.literal name text :=
    fun text name c hc => (by cases hc)
  have hreporter : ∀ b : Block Unit, b.Sorted → Fills fun name => Slot.reporter name b :=
    fun b hb name c hc => Option.some.inj hc ▸ hb
  have hcontent : ∀ room, Gives Fills (do
      let key ← string
      let make ←
        if key = "literal" then do
          colon
          let text ← string
          pure fun name => Slot.literal name text
        else if key = "reporter" then do
          colon
          let b ← read room
          pure fun name => Slot.reporter name b
        else fail .typeError
      if (← peek) = code '}' then drop else fail .syntaxError
      return make) := by
    intro room
    refine gives_then fun key => ?_
    split
    · exact gives_then fun _ => gives_then fun text => hclosed _ (hliteral text)
    · split
      · exact gives_then fun _ => (h room).bind fun b hb => hclosed _ (hreporter b hb)
      · exact (gives_fail (P := Fills) _).bind hclosed
  unfold blockFields.slot
  refine gives_then fun b => ?_
  split
  · exact gives_then fun _ => gives_fail _
  · split
    · exact gives_fail _
    · cases room with
      | zero => exact gives_fail _
      | succ room =>
        refine gives_then fun _ => gives_then fun b => ?_
        split
        · exact gives_then fun _ => hcontent room
        · exact hcontent room

/-- Every slot is put in its place among those that have been read. -/
theorem gives_slots (h : ∀ room, Gives Block.Sorted (read room)) (bound room : Nat) :
    Gives (fun slots => Slots.Ascending slots ∧ ∀ c ∈ Slots.blocks slots, c.Sorted)
      (map bound room (blockFields.slot read) [] fun slots name make =>
        Slots.put (make name) slots) := by
  refine gives_map (gives_slot h) ?_ ⟨List.Pairwise.nil, List.forall_mem_nil _⟩ bound room
  rintro slots name make ⟨hslots, hblocks⟩ hmake
  refine ⟨hslots.put _, fun c hc => ?_⟩
  obtain ⟨n, hn⟩ := Slots.mem_blocks.mp hc
  rcases Slots.mem_put hn with heq | hn
  · exact hmake name c (heq ▸ rfl)
  · exact hblocks c (Slots.mem_blocks.mpr ⟨n, hn⟩)

theorem gives_block (bound levels room : Nat) :
    Gives Block.Sorted (block bound levels room) := by
  induction levels generalizing room with
  | zero => exact gives_fail _
  | succ levels ih =>
    have hstart : BlockParts.Sorted ⟨none, none, none⟩ :=
      ⟨fun _ h => (by cases h), fun _ h => (by cases h), fun _ h => (by cases h)⟩
    have hfields : ∀ field ∈ blockFields bound (block bound levels), ∀ room p,
        BlockParts.Sorted p → Gives BlockParts.Sorted (field.read room p) := by
      intro field hfield room p hp
      unfold blockFields at hfield
      simp only [List.mem_cons, List.not_mem_nil, or_false] at hfield
      -- each field changes its own part and leaves the others as they were
      obtain rfl | rfl | rfl := hfield
      · exact gives_then fun t => gives_pure ⟨hp.slots, hp.blocks, hp.children⟩
      · refine (gives_slots ih bound room).bind fun slots hslots => gives_pure ?_
        refine ⟨?_, ?_, hp.children⟩
        · rintro _ ⟨⟩
          exact hslots.1
        · rintro _ ⟨⟩
          exact hslots.2
      · refine (gives_array ih bound room).bind fun children hchildren => gives_pure ?_
        refine ⟨hp.slots, hp.blocks, ?_⟩
        rintro _ ⟨⟩
        exact hchildren
    rw [block]
    refine (gives_record hfields hstart bound room).bind fun p hp => gives_pure ?_
    obtain ⟨t, slots, children⟩ := p
    refine Block.sorted_iff.mpr ⟨?_, List.forall_mem_append.mpr ⟨?_, ?_⟩⟩
    · cases slots with
      | none => exact List.Pairwise.nil
      | some slots => exact hp.slots slots rfl
    · cases slots with
      | none => exact List.forall_mem_nil _
      | some slots => exact hp.blocks slots rfl
    · cases children with
      | none => exact List.forall_mem_nil _
      | some children => exact hp.children children rfl

theorem gives_root (bound room : Nat) :
    Gives (fun r : Root Unit => r.block.Sorted) (root bound room) := by
  unfold root
  refine (gives_record (P := fun p : RootParts => ∀ b, p.block = some b → b.Sorted) ?_
    (fun _ h => (by cases h)) bound room).bind fun p hp => gives_pure ?_
  · intro field hfield room p hp
    simp only [List.mem_cons, List.not_mem_nil, or_false] at hfield
    obtain rfl | rfl | rfl := hfield
    · exact gives_then fun x => gives_pure hp
    · exact gives_then fun y => gives_pure hp
    · refine (gives_block bound _ room).bind fun b hb => gives_pure ?_
      rintro _ ⟨⟩
      exact hb
  · obtain ⟨x, y, b⟩ := p
    -- a missing block is read as one without slots
    cases b with
    | none => exact (by decide : (Block.bare () "").Sorted)
    | some b => exact hp b rfl

/-- What has been read of a snapshot is in order. -/
structure Parts.Ordered (p : Parts) : Prop where
  roots : ∀ roots, p.roots = some roots → ∀ r ∈ roots, r.block.Sorted
  assets : ∀ assets, p.assets = some assets → Ascending assets

theorem gives_snapshot (bound : Nat) : Gives Snapshot.Ordered (reader bound) := by
  unfold reader
  refine (gives_record (P := Parts.Ordered) ?_
    ⟨fun _ h => (by cases h), fun _ h => (by cases h)⟩ bound _).bind fun p hp => gives_pure ?_
  · intro field hfield room p hp
    simp only [List.mem_cons, List.not_mem_nil, or_false] at hfield
    -- the version says nothing of order; the roots and the assets do
    obtain rfl | rfl | rfl := hfield
    · exact gives_then fun version => gives_pure ⟨hp.roots, hp.assets⟩
    · refine (gives_array (gives_root bound) bound room).bind fun roots hroots => gives_pure ?_
      refine ⟨?_, hp.assets⟩
      rintro _ ⟨⟩
      exact hroots
    · refine Gives.bind (P := Ascending) ?_ fun assets hassets => gives_pure ⟨hp.roots, ?_⟩
      · exact gives_map (P := fun _ => True) (fun _ _ _ _ _ => trivial)
          (fun saved name data hsaved _ => Ascending.putNamed hsaved) List.Pairwise.nil bound room
      · rintro _ ⟨⟩
        exact hassets
  · obtain ⟨version, roots, assets⟩ := p
    refine ⟨?_, ?_⟩
    · cases roots with
      | none => exact List.forall_mem_nil _
      | some roots => exact hp.roots roots rfl
    · cases assets with
      | none => exact List.Pairwise.nil
      | some assets => exact hp.assets assets rfl

/-! ### Texts and tokens -/

variable {s : Snapshot}

theorem ordered_of_ofBytes {bytes : List UInt8} (h : ofBytes bytes = .ok s) : s.Ordered := by
  unfold ofBytes at h
  cases hwhole : whole reader bytes with
  | error fault =>
    rw [hwhole] at h
    cases h
  | ok s' =>
    rw [hwhole] at h
    cases h
    exact of_whole gives_snapshot hwhole

/-- **What is read from a text is in order.** -/
theorem ordered_of_ofText {text : String} (h : ofText text = .ok s) : s.Ordered :=
  ordered_of_ofBytes h

/-- **What is read from a share token is in order.** -/
theorem ordered_of_ofShareToken {token : String} (h : ofShareToken token = .ok s) : s.Ordered := by
  unfold ofShareToken at h
  split at h
  · exact ordered_of_ofBytes h
  · cases h

end Snapshot

end Blockwork
