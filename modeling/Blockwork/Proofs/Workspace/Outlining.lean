import Mathlib
import Blockwork.Proofs.Workspace.Desk
import Blockwork.Proofs.Workspace.Display
import Blockwork.Workspace.Outline

/-!
# Reading an outline

An outline has a row for each root and for each block in a container, every block before those in
it (`Workspace.rows`). Reporters have no rows. A row is written as one line, unless its label has a
line feed in it, which can only come from a literal or from the name of an unknown type
(`Block.breaks_iff`): then the rest of the label stands on lines of its own, and these look like the
lines of other roots.

Where no label is broken, an outline tells the blocks apart and their nesting. Labels begin with no
space, so the margin of a line is the number of containers around its block twice, and the trees of
containers can be built again from the margins alone (`Skeleton.ofLevels`).

## Main results

* `Workspace.outline_lines_iff`: the rows are the lines, unless a label is broken.
* `Workspace.outline_torn`: a workspace with one block and two lines.
-/

namespace Blockwork

variable {ι : Type} {r : Registry}

/-! ### Lines with their ends -/

/-- The lines of a text in which each line is followed by a line feed. -/
def Text.endedLines (s : String) : List String :=
  ((s.toList.splitOn '\n').dropLast).map String.ofList

theorem Text.length_endedLines (s : String) : (endedLines s).length = s.toList.count '\n' := by
  have hpieces (cs : List Char) : (cs.splitOn '\n').length = cs.count '\n' + 1 := by
    induction cs with
    | nil => rfl
    | cons c cs ih =>
      rw [List.splitOn_cons_eq_if_modifyHead, List.count_cons]
      split
      · rw [List.length_cons, ih]
      · rw [List.length_modifyHead, ih, Nat.add_zero]
  rw [endedLines, List.length_map, List.length_dropLast, hpieces, Nat.add_sub_cancel]

/-- **Lines that are put together are cut apart again**, if there is no line feed in them. -/
theorem Text.endedLines_join {ls : List String} (h : ∀ l ∈ ls, '\n' ∉ l.toList) :
    endedLines (String.join (ls.map (· ++ "\n"))) = ls := by
  have htext : (String.join (ls.map (· ++ "\n"))).toList
      = ['\n'].intercalate (ls.map String.toList ++ [[]]) := by
    rw [String.toList_join]
    induction ls with
    | nil => rfl
    | cons l ls ih =>
      rw [List.map_cons, List.flatMap_cons, ih (List.forall_mem_cons.mp h).2, List.map_cons,
        String.toList_append]
      cases ls <;> simp [List.intercalate]
  have hcut : (['\n'].intercalate (ls.map String.toList ++ [[]])).splitOn '\n'
      = ls.map String.toList ++ [[]] := by
    refine List.splitOn_intercalate '\n' ?_ (by simp)
    intro cs hcs
    rcases List.mem_append.mp hcs with hcs | hcs
    · obtain ⟨l, hl, rfl⟩ := List.mem_map.mp hcs
      exact h l hl
    · rw [List.mem_singleton.mp hcs]
      exact List.not_mem_nil
  rw [endedLines, htext, hcut, List.dropLast_concat, List.map_map]
  exact List.map_id'' (fun l => String.ofList_toList) ls

/-! ### Rows -/

/-- A row of an outline. -/
structure Row (ι : Type) where
  /-- The place of a root. -/
  place : Option (Int64 × Int64)
  /-- How many containers the block is in. -/
  level : Nat
  block : Block ι

namespace Row

/-- What stands before the label: the place of a root. -/
def head (row : Row ι) : String :=
  match row.place with
  | some (x, y) => s!"({x.toInt}, {y.toInt}) "
  | none => ""

/-- The line of a row. -/
def text (r : Registry) (row : Row ι) : String :=
  String.join (List.replicate row.level "  ") ++ (row.head ++ row.block.label r)

end Row

mutual

/-- The rows of a block and of all blocks in it, at a level. -/
def Block.rows (level : Nat) : Block ι → List (Row ι)
  | .mk i t slots children =>
    ⟨none, level, .mk i t slots children⟩ :: Block.rowsAll (level + 1) children

/-- The rows of blocks at a level. -/
def Block.rowsAll (level : Nat) : List (Block ι) → List (Row ι)
  | [] => []
  | b :: rest => Block.rows level b ++ Block.rowsAll level rest

end

/-- The rows of a root. -/
def Root.rows (root : Root ι) : List (Row ι) :=
  ⟨some (root.x, root.y), 0, root.block⟩ :: Block.rowsAll 1 root.block.children

/-- **The rows of a workspace**: the roots and the blocks in containers, each before those in it. -/
def Workspace.rows (ws : Workspace) : List (Row BlockId) :=
  ws.roots.flatMap Root.rows

theorem Block.outlineAll_eq_map_of {level : Nat} {bs : List (Block ι)}
    (h : ∀ b ∈ bs, b.outline r level = (b.rows level).map (Row.text r)) :
    outlineAll r level bs = (rowsAll level bs).map (Row.text r) := by
  induction bs with
  | nil => rfl
  | cons b rest ih =>
    obtain ⟨hfirst, hothers⟩ := List.forall_mem_cons.mp h
    rw [outlineAll, rowsAll, List.map_append, hfirst, ih hothers]

theorem Block.outline_eq_map (b : Block ι) (level : Nat) :
    b.outline r level = (b.rows level).map (Row.text r) := by
  induction b using Block.induction generalizing level with
  | step b ih =>
    obtain ⟨i, t, slots, children⟩ := b
    have hchildren : outlineAll r (level + 1) children
        = (rowsAll (level + 1) children).map (Row.text r) :=
      outlineAll_eq_map_of fun c hc => ih c (List.mem_append_right _ hc) (level + 1)
    rw [outline, rows, List.map_cons, hchildren, Row.text, Row.head, String.empty_append]

theorem Root.outline_eq_map (root : Root ι) :
    root.outline r = root.rows.map (Row.text r) := by
  have hchildren : Block.outlineAll r 1 root.block.children
      = (Block.rowsAll 1 root.block.children).map (Row.text r) :=
    Block.outlineAll_eq_map_of fun c _ => c.outline_eq_map 1
  have hlevel : String.join (List.replicate 0 "  ") = "" := rfl
  rw [outline, rows, List.map_cons, hchildren, Row.text, Row.head, hlevel, String.empty_append]
  rfl

/-- The outline is the rows, each with the end of a line. -/
theorem Workspace.outline_eq (ws : Workspace) :
    ws.outline = String.join ((ws.rows.map (Row.text ws.registry)).map (· ++ "\n")) := by
  rw [outline, rows, funext Root.outline_eq_map, List.map_flatMap (f := Row.text ws.registry)]

/-! ### Labels that are broken -/

/-- What a part of the label reads like in a block of a kind. -/
def LabelPart.text (r : Registry) (kind : Kind) (slots : List (Slot (Block ι))) :
    LabelPart → String
  | .word text => text
  | .slot name _ =>
    match Slots.get? slots name with
    | some (.literal _ text) => s!"[{text}]"
    | some (.reporter _ b) => s!"({b.label r})"
    | none => s!"[{kind.defaultText name}]"

theorem Block.label_mk (i : ι) (type : String) (slots : List (Slot (Block ι)))
    (children : List (Block ι)) :
    (mk i type slots children).label r =
      match r.kind? type with
      | none => s!"Unknown block type: {type}"
      | some kind => " ".intercalate (kind.label.map (LabelPart.text r kind slots)) := by
  unfold label
  rw [fold_mk]
  cases r.kind? type with
  | none => rfl
  | some kind =>
    dsimp only
    congr 1
    refine List.map_congr_left fun part _ => ?_
    cases part with
    | word text => rfl
    | slot name sort =>
      dsimp only [LabelPart.text]
      rw [Slots.get?_map]
      rcases Slots.get? slots name with _ | ⟨n, text⟩ | ⟨n, b⟩ <;> rfl

/-- **A label that is broken by a line feed**, which is in the name of an unknown type or in a
literal that the label shows. -/
inductive Block.Breaks (r : Registry) : Block ι → Prop
  | type {b : Block ι} : r.kind? b.type = none → '\n' ∈ b.type.toList → Breaks r b
  | literal {b : Block ι} {kind : Kind} {name name' text : String} {sort : SlotSort} :
      r.kind? b.type = some kind → .slot name sort ∈ kind.label →
      Slots.get? b.slots name = some (.literal name' text) → '\n' ∈ text.toList → Breaks r b
  | reporter {b c : Block ι} {kind : Kind} {name name' : String} {sort : SlotSort} :
      r.kind? b.type = some kind → .slot name sort ∈ kind.label →
      Slots.get? b.slots name = some (.reporter name' c) → Breaks r c → Breaks r b

/-- Neither words nor defaults break a label. -/
theorem Kind.not_mem_defaultText (kind : Kind) (name : String) :
    '\n' ∉ (kind.defaultText name).toList := by
  have hall : ∀ entry ∈ kind.definition.defaults, '\n' ∉ entry.2.display.toList := by
    cases kind <;> decide +kernel
  unfold defaultText
  cases hdefault : kind.default? name with
  | none => exact List.not_mem_nil
  | some d => exact hall (name, d) (mem_defaults hdefault)

theorem Kind.not_mem_of_word {kind : Kind} {text : String} (h : .word text ∈ kind.label) :
    '\n' ∉ text.toList := by
  have hall : ∀ kind : Kind, ∀ part ∈ kind.label, part = .word text → '\n' ∉ text.toList := by
    rintro (_ | _) part hpart rfl <;> simp [label, definition, oneText] at hpart <;>
      rcases hpart with rfl | rfl <;> decide
  exact hall kind _ h rfl

theorem mem_toList_intercalate {sep : String} {c : Char} (hsep : c ∉ sep.toList)
    (parts : List String) :
    c ∈ (sep.intercalate parts).toList ↔ ∃ p ∈ parts, c ∈ p.toList := by
  induction parts with
  | nil => simp
  | cons p parts ih =>
    cases parts with
    | nil => simp
    | cons q parts =>
      rw [String.intercalate_cons_cons, String.toList_append, String.toList_append,
        List.mem_append, List.mem_append, ih]
      simp [hsep]

/-- A part of a label is broken by what stands in the slot, as neither words nor defaults are. -/
theorem LabelPart.mem_text {kind : Kind} {part : LabelPart} {slots : List (Slot (Block ι))}
    (hpart : part ∈ kind.label) :
    '\n' ∈ (part.text r kind slots).toList ↔ ∃ name sort, part = .slot name sort ∧
      ((∃ n text, Slots.get? slots name = some (.literal n text) ∧ '\n' ∈ text.toList) ∨
        ∃ n b, Slots.get? slots name = some (.reporter n b) ∧ '\n' ∈ (b.label r).toList) := by
  -- the brackets around a slot have no line feed
  have hbetween (before after inner : String) (hbefore : '\n' ∉ before.toList)
      (hafter : '\n' ∉ after.toList) :
      '\n' ∈ (before ++ inner ++ after).toList ↔ '\n' ∈ inner.toList := by
    simp [hbefore, hafter]
  have hbrackets (inner : String) : '\n' ∈ (s!"[{inner}]").toList ↔ '\n' ∈ inner.toList :=
    hbetween "[" "]" inner (by decide) (by decide)
  have hparentheses (inner : String) : '\n' ∈ (s!"({inner})").toList ↔ '\n' ∈ inner.toList :=
    hbetween "(" ")" inner (by decide) (by decide)
  cases part with
  | word text =>
    refine iff_of_false (Kind.not_mem_of_word hpart) ?_
    rintro ⟨_, _, h, -⟩
    cases h
  | slot name sort =>
    rw [text]
    rcases hslot : Slots.get? slots name with _ | ⟨n, text⟩ | ⟨n, b⟩
    · refine (hbrackets _).trans (iff_of_false (kind.not_mem_defaultText name) ?_)
      simp [hslot]
    · exact (hbrackets _).trans (by simp [hslot])
    · exact (hparentheses _).trans (by simp [hslot])

namespace Block

/-- **What breaks a label**, all the way down the reporters that it shows. -/
theorem breaks_iff (b : Block ι) : b.Breaks r ↔ '\n' ∈ (b.label r).toList := by
  induction b using Block.induction with
  | step b ih =>
    obtain ⟨i, type, slots, children⟩ := b
    -- a reporter that is shown stands in a slot, so it is a part of the block
    have hpart {name n : String} {c : Block ι}
        (hslot : Slots.get? slots name = some (.reporter n c)) :
        c.Breaks r ↔ '\n' ∈ (c.label r).toList :=
      ih c (List.mem_append_left _ (Slots.mem_blocks.mpr ⟨n, List.mem_of_find?_eq_some hslot⟩))
    have hwords : '\n' ∉ "Unknown block type: ".toList := by decide
    have hshown {kind : Kind} {part : LabelPart} (hlabel : part ∈ kind.label)
        (htext : '\n' ∈ (part.text r kind slots).toList) :
        '\n' ∈ (" ".intercalate (kind.label.map (LabelPart.text r kind slots))).toList :=
      (mem_toList_intercalate (by decide) _).mpr ⟨_, List.mem_map_of_mem hlabel, htext⟩
    rw [label_mk]
    constructor
    · intro h
      cases h with
      | type hkind htype =>
        rw [show r.kind? type = _ from hkind]
        exact (String.toList_append ▸ List.mem_append_right _ htype :)
      | literal hkind hlabel hslot htext =>
        rw [show r.kind? type = _ from hkind]
        refine hshown hlabel ((LabelPart.mem_text hlabel).mpr ?_)
        exact ⟨_, _, rfl, .inl ⟨_, _, hslot, htext⟩⟩
      | reporter hkind hlabel hslot hc =>
        rw [show r.kind? type = _ from hkind]
        refine hshown hlabel ((LabelPart.mem_text hlabel).mpr ?_)
        exact ⟨_, _, rfl, .inr ⟨_, _, hslot, (hpart hslot).mp hc⟩⟩
    · intro h
      cases hkind : r.kind? type with
      | none =>
        rw [hkind] at h
        have h : '\n' ∈ ("Unknown block type: " ++ type).toList := h
        rw [String.toList_append, List.mem_append] at h
        exact .type hkind (h.resolve_left hwords)
      | some kind =>
        rw [hkind] at h
        obtain ⟨_, hp, htext⟩ := (mem_toList_intercalate (by decide) _).mp h
        obtain ⟨part, hlabel, rfl⟩ := List.mem_map.mp hp
        obtain ⟨name, sort, rfl, ⟨_, _, hslot, htext⟩ | ⟨_, _, hslot, hc⟩⟩ :=
          (LabelPart.mem_text hlabel).mp htext
        · exact .literal hkind hlabel hslot htext
        · exact .reporter hkind hlabel hslot ((hpart hslot).mpr hc)

/-- A label begins with a word, so with no space. -/
theorem exists_label_eq_cons (b : Block ι) : ∃ c cs, (b.label r).toList = c :: cs ∧ c ≠ ' ' := by
  have hword : ∀ kind : Kind, ∃ text rest, kind.label = .word text :: rest ∧
      ∃ c cs, text.toList = c :: cs ∧ c ≠ ' ' := by
    intro kind
    cases kind <;> exact ⟨_, _, rfl, _, _, rfl, by decide⟩
  obtain ⟨i, type, slots, children⟩ := b
  rw [label_mk]
  cases r.kind? type with
  | none =>
    refine ⟨'U', "nknown block type: ".toList ++ type.toList, ?_, by decide⟩
    exact String.toList_append
  | some kind =>
    obtain ⟨text, rest, hlabel, c, cs, htext, hc⟩ := hword kind
    dsimp only
    rw [hlabel, List.map_cons, LabelPart.text]
    cases rest.map (LabelPart.text r kind slots) with
    | nil => exact ⟨c, cs, by rw [String.intercalate_singleton, htext], hc⟩
    | cons p parts =>
      refine ⟨c, cs ++ (" " ++ " ".intercalate (p :: parts)).toList, ?_, hc⟩
      rw [String.intercalate_cons_cons, String.append_assoc, String.toList_append, htext]
      rfl

end Block

/-! ### Lines of rows -/

namespace Row

/-- A place is in parentheses. -/
theorem head_cases (row : Row ι) : row.head = "" ∨ ∃ inner, row.head = "(" ++ inner := by
  unfold head
  cases row.place with
  | none => exact .inl rfl
  | some place =>
    refine .inr ⟨s!"{place.1.toInt}, {place.2.toInt}) ", ?_⟩
    simp only [String.append_assoc]
    rfl

theorem printable_head (row : Row ι) : Code.Printable row.head := by
  unfold head
  cases row.place with
  | none => exact nofun
  | some place =>
    have hopen : Code.Printable "(" := by simp [Code.Printable]
    have hcomma : Code.Printable ", " := by simp [Code.Printable]
    have hclose : Code.Printable ") " := by simp [Code.Printable]
    exact hopen.append (Code.printable_repr_int _) |>.append hcomma
      |>.append (Code.printable_repr_int _) |>.append hclose

/-- A row is moved in by two spaces at a level, and what it is written behind is no space. -/
theorem exists_text_eq (row : Row ι) : ∃ c cs,
    (row.text r).toList = List.replicate (2 * row.level) ' ' ++ c :: cs ∧ c ≠ ' ' := by
  have hmargin (n : Nat) : (String.join (List.replicate n "  ")).toList
      = List.replicate (2 * n) ' ' := by
    induction n with
    | zero => rfl
    | succ n ih =>
      rw [List.replicate_succ, String.join_cons, String.toList_append, ih, Nat.mul_succ,
        Nat.add_comm, List.replicate_add]
      rfl
  obtain ⟨c, cs, hlabel, hc⟩ := row.block.exists_label_eq_cons (r := r)
  rw [text, String.toList_append, hmargin, String.toList_append, hlabel]
  obtain hhead | ⟨inner, hhead⟩ := row.head_cases
  · rw [hhead]
    exact ⟨c, cs, rfl, hc⟩
  · refine ⟨'(', inner.toList ++ c :: cs, ?_, by decide⟩
    rw [hhead, String.toList_append, List.append_assoc]
    rfl

theorem margin_text (row : Row ι) :
    Fragment.margin (row.text r) = String.ofList (List.replicate (2 * row.level) ' ') := by
  obtain ⟨c, cs, htext, hc⟩ := row.exists_text_eq (r := r)
  rw [Fragment.margin, htext, List.takeWhile_append_of_pos (by simp),
    List.takeWhile_cons_of_neg (by simpa using hc), List.append_nil]

/-- Only the label of a row can break its line. -/
theorem count_text (row : Row ι) :
    (row.text r).toList.count '\n' = (row.block.label r).toList.count '\n' := by
  have hmargin : '\n' ∉ (String.join (List.replicate row.level "  ")).toList := by
    rw [String.toList_join, List.mem_flatMap]
    rintro ⟨s, hs, hmem⟩
    rw [List.eq_of_mem_replicate hs] at hmem
    revert hmem
    decide
  have hhead : '\n' ∉ row.head.toList := fun h => absurd (row.printable_head _ h) (by decide)
  rw [text, String.toList_append, String.toList_append, List.count_append, List.count_append,
    List.count_eq_zero_of_not_mem hmargin, List.count_eq_zero_of_not_mem hhead, Nat.zero_add,
    Nat.zero_add]

end Row

/-! ### Trees from margins -/

/-- The shape of a tree of blocks in containers: of each block no more than the blocks in it. -/
inductive Skeleton where
  | node (children : List Skeleton)

/-- What is left of a block if only containers count. -/
def Block.skeleton : Block ι → Skeleton :=
  fold fun _ _ _ children => .node children

theorem Block.skeleton_mk (i : ι) (type : String) (slots : List (Slot (Block ι)))
    (children : List (Block ι)) :
    (mk i type slots children).skeleton = .node (children.map skeleton) := by
  unfold skeleton
  rw [fold_mk]

namespace Skeleton

/-- Put a row of this level before trees that were found behind it: it takes those at the front
that are further in. -/
def hang (level : Nat) (found : List (Nat × Skeleton)) : List (Nat × Skeleton) :=
  (level, .node ((found.takeWhile (level < ·.1)).map Prod.snd)) ::
    found.dropWhile (level < ·.1)

/-- The trees that rows of these levels are from. -/
def ofLevels (levels : List Nat) : List Skeleton :=
  (levels.foldr hang []).map Prod.snd

/-- A row takes the trees of the next level, up to the first that is not further in than itself. -/
theorem hang_append {level : Nat} (inner : List Skeleton) {found : List (Nat × Skeleton)}
    (h : ∀ p ∈ found.head?, p.1 ≤ level) :
    hang level (inner.map (level + 1, ·) ++ found) = (level, .node inner) :: found := by
  have hinner : ∀ p ∈ inner.map (level + 1, ·), decide (level < p.1) = true := by
    intro p hp
    obtain ⟨s, -, rfl⟩ := List.mem_map.mp hp
    exact decide_eq_true (Nat.lt_succ_self level)
  -- what was found begins with a row that is not further in, if with any
  have hstop : found.takeWhile (level < ·.1) = [] ∧ found.dropWhile (level < ·.1) = found := by
    cases found with
    | nil => exact ⟨rfl, rfl⟩
    | cons p found =>
      have hp : ¬ decide (level < p.1) = true := by
        simpa using h p rfl
      exact ⟨List.takeWhile_cons_of_neg hp, List.dropWhile_cons_of_neg hp⟩
  rw [hang, List.takeWhile_append_of_pos hinner, List.dropWhile_append_of_pos hinner, hstop.1,
    hstop.2, List.append_nil, List.map_map]
  congr 2
  exact congrArg node (List.map_id'' (fun _ => rfl) inner)

/-- Trees at a level are found again from the levels of their rows. -/
theorem foldr_hang_rowsAll_of {bs : List (Block ι)} {level : Nat}
    (hbs : ∀ b ∈ bs, ∀ found : List (Nat × Skeleton), (∀ p ∈ found.head?, p.1 ≤ level) →
      ((b.rows level).map Row.level).foldr hang found = (level, b.skeleton) :: found)
    {found : List (Nat × Skeleton)} (h : ∀ p ∈ found.head?, p.1 ≤ level) :
    ((Block.rowsAll level bs).map Row.level).foldr hang found
      = (bs.map Block.skeleton).map (level, ·) ++ found := by
  induction bs with
  | nil => rfl
  | cons b rest ih =>
    obtain ⟨hfirst, hothers⟩ := List.forall_mem_cons.mp hbs
    rw [Block.rowsAll, List.map_append, List.foldr_append, ih hothers, hfirst]
    · rfl
    · -- in front of what was found stands a tree of the same level, if any
      cases rest with
      | nil => exact h
      | cons c rest =>
        rintro p ⟨⟩
        exact Nat.le_refl level

theorem foldr_hang_rows (b : Block ι) (level : Nat) {found : List (Nat × Skeleton)}
    (h : ∀ p ∈ found.head?, p.1 ≤ level) :
    ((b.rows level).map Row.level).foldr hang found = (level, b.skeleton) :: found := by
  induction b using Block.induction generalizing level found with
  | step b ih =>
    obtain ⟨i, type, slots, children⟩ := b
    -- what was found behind the block is behind its children too, and no further in than these
    have hchildren : ((Block.rowsAll (level + 1) children).map Row.level).foldr hang found
        = (children.map Block.skeleton).map (level + 1, ·) ++ found :=
      foldr_hang_rowsAll_of (fun c hc _ => ih c (List.mem_append_right _ hc) (level + 1))
        fun p hp => Nat.le_succ_of_le (h p hp)
    rw [Block.rows, List.map_cons, List.foldr_cons, Block.skeleton_mk, hchildren, hang_append _ h]

/-- **The trees of a workspace are found again from the levels of its rows.** -/
theorem ofLevels_rows (ws : Workspace) :
    ofLevels (ws.rows.map Row.level) = ws.blocks.map Block.skeleton := by
  -- coordinates are written in the row of a root, and do not change its level
  have hroot (root : Root BlockId) :
      root.rows.map Row.level = (root.block.rows 0).map Row.level := by
    obtain ⟨x, y, ⟨i, type, slots, children⟩⟩ := root
    rw [Root.rows, Block.rows]
    rfl
  have hrows : ws.rows.map Row.level = (Block.rowsAll 0 ws.blocks).map Row.level := by
    unfold Workspace.rows Workspace.blocks
    induction ws.roots with
    | nil => rfl
    | cons root roots ih =>
      rw [List.flatMap_cons, List.map_append, ih, hroot, List.map_cons, Block.rowsAll,
        List.map_append]
  have hfold : ((Block.rowsAll 0 ws.blocks).map Row.level).foldr hang []
      = (ws.blocks.map Block.skeleton).map (0, ·) ++ [] :=
    foldr_hang_rowsAll_of (fun b _ _ => foldr_hang_rows b 0) nofun
  rw [ofLevels, hrows, hfold, List.append_nil, List.map_map]
  exact List.map_id'' (fun _ => rfl) _

end Skeleton

/-! ### The outline of a workspace -/

namespace Workspace

/-- No row has a label that is broken. -/
def Unbroken (ws : Workspace) : Prop :=
  ∀ row ∈ ws.rows, ¬ row.block.Breaks ws.registry

theorem unbroken_iff {ws : Workspace} :
    ws.Unbroken ↔ ∀ row ∈ ws.rows, (row.block.label ws.registry).toList.count '\n' = 0 := by
  unfold Unbroken
  simp only [Block.breaks_iff, List.count_eq_zero]

/-- There is a line for each row, and one more for each line feed in a label. -/
theorem length_endedLines_outline (ws : Workspace) :
    (Text.endedLines ws.outline).length
      = ws.rows.length + (ws.rows.map fun row =>
          (row.block.label ws.registry).toList.count '\n').sum := by
  rw [Text.length_endedLines, outline_eq, String.toList_join]
  induction ws.rows with
  | nil => rfl
  | cons row rows ih =>
    rw [List.map_cons, List.map_cons, List.flatMap_cons, List.count_append, ih,
      String.toList_append, List.count_append, Row.count_text, List.length_cons, List.map_cons,
      List.sum_cons]
    have hend : "\n".toList.count '\n' = 1 := rfl
    omega

/-- **An outline has a line for each row, unless a label is broken.** There are as many lines as
roots and blocks in containers if no label of these has a line feed in it, and only then.

Then the lines are the rows, with nothing between or behind them, each block before those in it. A
line is moved in by two spaces for each container around its block, that of a root begins with its
place, and from the margins alone the trees of containers can be built again. -/
theorem outline_lines_iff (ws : Workspace) :
    ((Text.endedLines ws.outline).length = ws.rows.length ↔ ws.Unbroken) ∧
    (ws.Unbroken →
      Text.endedLines ws.outline = ws.rows.map (Row.text ws.registry) ∧
      ws.outline = String.join ((Text.endedLines ws.outline).map (· ++ "\n")) ∧
      (∀ row ∈ ws.rows, Fragment.margin (row.text ws.registry)
        = String.ofList (List.replicate (2 * row.level) ' ')) ∧
      Skeleton.ofLevels
          ((Text.endedLines ws.outline).map fun line => (Fragment.margin line).length / 2)
        = ws.blocks.map Block.skeleton) := by
  refine ⟨?_, fun hwhole => ?_⟩
  · rw [length_endedLines_outline, Nat.add_eq_left, List.sum_eq_zero_iff, unbroken_iff]
    exact List.forall_mem_map
  · have hlines : Text.endedLines ws.outline = ws.rows.map (Row.text ws.registry) := by
      rw [outline_eq]
      refine Text.endedLines_join fun l hl => ?_
      obtain ⟨row, hrow, rfl⟩ := List.mem_map.mp hl
      rw [← List.count_eq_zero, Row.count_text]
      exact unbroken_iff.mp hwhole row hrow
    have hlevels : (ws.rows.map (Row.text ws.registry)).map (fun line =>
        (Fragment.margin line).length / 2) = ws.rows.map Row.level := by
      rw [List.map_map]
      refine List.map_congr_left fun row _ => ?_
      simp [Row.margin_text]
    refine ⟨hlines, ?_, fun row _ => row.margin_text, ?_⟩
    · rw [hlines, outline_eq]
    · rw [hlines, hlevels, Skeleton.ofLevels_rows]

/-- A loop around one that prints the text of a reporter, and a block of an unknown type. -/
def layered : Workspace where
  registry := .standard
  roots :=
    [⟨60, -60, .mk 1 "repeat" []
      [.mk 2 "forever" []
        [.mk 3 "print"
          [.reporter "input1" (.mk 4 "value" [.literal "input1" " 7"] [])] []],
        .mk 5 "teleport" [] []]⟩]
  assets := []
  nextId := 6

theorem outline_lines_iff_layered :
    layered.Unbroken ∧ (Text.endedLines layered.outline).length = layered.rows.length ∧
      Text.endedLines layered.outline = ["(60, -60) Repeat [3] times", "  Forever do",
        "    Print (Value [ 7])", "  Unknown block type: teleport"] := by
  have hwhole : layered.Unbroken := unbroken_iff.mpr (by decide +kernel)
  obtain ⟨hlength, hlines⟩ := outline_lines_iff layered
  refine ⟨hwhole, hlength.mpr hwhole, (hlines hwhole).1.trans ?_⟩
  decide +kernel

/-- A new block that prints a text of two lines, as a root. -/
def torn : Workspace where
  registry := .standard
  roots := [⟨snapToGrid 0, snapToGrid 0, .mk 1 "print" [.literal "input1" "a\nb"] []⟩]
  assets := []
  nextId := 2

/-- **One block on two lines.** What stands on the second is taken for another root. -/
theorem outline_torn :
    (∃ hand, Desk.Reachable .standard ⟨torn, hand⟩) ∧ torn.rows.length = 1 ∧
      Text.endedLines torn.outline = ["(0, 0) Print [a", "b]"] := by
  refine ⟨?_, rfl, by decide +kernel⟩
  have hnone : Desk.Reachable .standard (.empty .standard) := .refl
  have hprint := hnone.run (.instantiate "print") rfl (.refl _)
  have hroot := hprint.run
    (.addRoot (.mk 1 "print" [.literal "input1" "Hello World!"] []) 0 0) rfl (.refl _)
  have hedit : Desk.Reachable .standard ⟨torn, [] ++ []⟩ :=
    hroot.run (.edit 1 (.setLiteral "input1" "a\nb")) rfl (.refl _)
  exact ⟨_, hedit⟩

end Workspace

end Blockwork
