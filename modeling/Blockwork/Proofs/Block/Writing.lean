import Mathlib
import Blockwork.Proofs.Block.Code
import Blockwork.Proofs.Script.Quoting
import Blockwork.Proofs.Text.Lines

/-!
# The lines of a program

Code is written as lines, and the lines of a body are moved in (`Code.lines`). The program of a
well-formed tree is the lines of its code (`Block.compile_eq`), and that of a workspace is the
declaration of the counter and the lines of all roots (`compileRoots_executable`). Nothing is lost
when the lines of a body are cut apart again, since none of them is empty or has a line feed in it,
whatever the texts of the slots are (`Code.isLine_lines`).
-/

namespace Blockwork

open Text (IsLine joinLines broken)
open Fragment (indentation guardLines loopVariable)

variable {ι ν : Type}

/-- A script's way to head a loop at a depth. -/
def Header.opening (depth : Nat) : Header → String
  | .count n =>
    s!"for (let {loopVariable depth} = 0; {loopVariable depth} < {n}; {loopVariable depth}++)"
  | .endless => "while (true)"

namespace Code

mutual

/-- The lines of code at a depth. -/
def lines (depth : Nat) : Code ν → List String
  | .call _ verb argument => [s!"{verb.function}({Json.quote argument});"]
  | .loop _ header body =>
    s!"{header.opening depth} \x7b" :: ((guardLines header.name).map (indentation ++ ·) ++
      ((linesAll (depth + 1) body).map (indentation ++ ·) ++ ["\x7d"]))

/-- The lines of a list of code at a depth. -/
def linesAll (depth : Nat) : List (Code ν) → List String
  | [] => []
  | c :: cs => lines depth c ++ linesAll depth cs

end

/-! ### What the lines are made of -/

theorem toString_text (s : String) : toString s = s := rfl

/-- A text without control characters. -/
def Printable (s : String) : Prop :=
  ∀ c ∈ s.toList, 0x20 ≤ c.toNat

theorem Printable.append {s t : String} (hs : Printable s) (ht : Printable t) :
    Printable (s ++ t) := by
  intro c hc
  rw [String.toList_append, List.mem_append] at hc
  exact hc.elim (hs c) (ht c)

theorem printable_quote (s : String) : Printable (Json.quote s) := by
  intro c hc
  rw [Json.toList_quote] at hc
  exact Script.blank_le_of_mem_quoteChars hc

theorem printable_repr (n : Nat) : Printable n.repr := by
  intro c hc
  rw [Nat.repr, String.toList_ofList] at hc
  have h := Nat.isDigit_of_mem_toDigits (by decide) (by decide) hc
  simp only [Char.isDigit, Bool.and_eq_true, decide_eq_true_eq, ge_iff_le,
    UInt32.le_iff_toNat_le] at h
  have hlow : 48 ≤ c.toNat := h.1
  omega

theorem printable_repr_int (n : Int) : Printable n.repr := by
  cases n with
  | ofNat m => exact printable_repr m
  | negSucc m =>
    have hminus : Printable "-" := by simp [Printable]
    exact hminus.append (printable_repr m.succ)

theorem printable_opening (depth : Nat) (header : Header) : Printable (header.opening depth) := by
  cases header with
  | endless =>
    change Printable "while (true)"
    simp [Printable]
  | count n =>
    have hi : Printable "i" := by simp [Printable]
    have hfor : Printable "for (let " := by simp [Printable]
    have hzero : Printable " = 0; " := by simp [Printable]
    have hless : Printable " < " := by simp [Printable]
    have hsemicolon : Printable "; " := by simp [Printable]
    have hplus : Printable "++)" := by simp [Printable]
    have hvariable : Printable (loopVariable depth) := hi.append (printable_repr depth)
    exact (((((hfor.append hvariable).append hzero).append hvariable).append hless).append
      (printable_repr_int n)).append hsemicolon |>.append hvariable |>.append hplus

/-- The guard, with its texts put together. -/
theorem guardLines_eq (name : String) :
    guardLines name = ["__loop_guard++;", "if (__loop_guard > 5000) \x7b",
      "  warn(" ++ Json.quote ("Loop guard tripped in " ++ name) ++ ");", "  break;", "\x7d"] := by
  have hlimit : Nat.repr 5000 = "5000" := by rfl
  simp [guardLines, Fragment.guardVariable, Fragment.guardLimit, indentation, toString_text, hlimit]

theorem isLine_literal {s : String} (h : s ≠ "" ∧ ∀ c ∈ s.toList, 0x20 ≤ c.toNat) : IsLine s :=
  ⟨h.1, h.2⟩

theorem isLine_guardLines (name : String) : ∀ l ∈ guardLines name, IsLine l := by
  intro l hl
  rw [guardLines_eq] at hl
  simp only [List.mem_cons, List.not_mem_nil, or_false] at hl
  rcases hl with rfl | rfl | rfl | rfl | rfl
  · exact isLine_literal (by simp)
  · exact isLine_literal (by simp)
  · have hopen : Printable "  warn(" := by simp [Printable]
    have hclose : IsLine ");" := isLine_literal (by simp)
    exact hclose.append (hopen.append (printable_quote _))
  · exact isLine_literal (by simp)
  · exact isLine_literal (by simp)

theorem isLine_indentation {l : String} (h : IsLine l) : IsLine (indentation ++ l) :=
  h.append (by simp [indentation])

theorem isLine_call (verb : Verb) (argument : String) :
    IsLine s!"{verb.function}({Json.quote argument});" := by
  have hfunction : Printable verb.function := by
    cases verb <;> simp [Printable, Verb.function]
  have hopen : Printable "(" := by simp [Printable]
  have hclose : IsLine ");" := isLine_literal (by simp)
  exact hclose.append ((hfunction.append hopen).append (printable_quote argument))

theorem isLine_linesAll {depth : Nat} {cs : List (Code ν)}
    (h : ∀ c ∈ cs, ∀ l ∈ lines depth c, IsLine l) : ∀ l ∈ linesAll depth cs, IsLine l := by
  induction cs with
  | nil =>
    intro l hl
    cases hl
  | cons c cs ih =>
    intro l hl
    rw [linesAll, List.mem_append] at hl
    rcases hl with hl | hl
    · exact h c List.mem_cons_self l hl
    · exact ih (fun d hd => h d (List.mem_cons_of_mem c hd)) l hl

/-- **No line is empty or has a line feed in it.** -/
theorem isLine_lines (depth : Nat) (c : Code ν) : ∀ l ∈ c.lines depth, IsLine l := by
  induction c using Code.induction generalizing depth with
  | call label verb argument =>
    intro l hl
    obtain rfl := List.mem_singleton.mp hl
    exact isLine_call verb argument
  | loop label header body ih =>
    intro l hl
    rw [lines, List.mem_cons, List.mem_append, List.mem_append] at hl
    rcases hl with rfl | hl | hl | hl
    · have hbrace : IsLine " \x7b" := isLine_literal (by simp)
      exact hbrace.append (printable_opening depth header)
    · obtain ⟨m, hm, rfl⟩ := List.mem_map.mp hl
      exact isLine_indentation (isLine_guardLines header.name m hm)
    · obtain ⟨m, hm, rfl⟩ := List.mem_map.mp hl
      exact isLine_indentation (isLine_linesAll (fun c hc => ih c hc (depth + 1)) m hm)
    · obtain rfl := List.mem_singleton.mp hl
      exact isLine_literal (by simp)

theorem lines_ne_nil (depth : Nat) (c : Code ν) : c.lines depth ≠ [] := by
  cases c with
  | call => exact List.cons_ne_nil _ _
  | loop => rw [lines]; exact List.cons_ne_nil _ _

theorem linesAll_eq_nil_iff {depth : Nat} {cs : List (Code ν)} :
    linesAll depth cs = [] ↔ cs = [] := by
  cases cs with
  | nil => simp [linesAll]
  | cons c cs =>
    rw [linesAll, List.append_eq_nil_iff]
    exact ⟨fun h => absurd h.1 (lines_ne_nil depth c), fun h => absurd h (List.cons_ne_nil c cs)⟩

theorem linesAll_append (depth : Nat) (cs ds : List (Code ν)) :
    linesAll depth (cs ++ ds) = linesAll depth cs ++ linesAll depth ds := by
  induction cs with
  | nil => rfl
  | cons c cs ih => rw [List.cons_append, linesAll, linesAll, ih, List.append_assoc]

end Code

/-! ### The program of a tree -/

theorem Fragment.indented_joinLines {ls : List String} (h : ∀ l ∈ ls, IsLine l) :
    Fragment.indented (joinLines ls) = ls.map (indentation ++ ·) := by
  unfold Fragment.indented
  rw [Text.lines_joinLines h]
  refine List.map_congr_left fun l hl => ?_
  exact if_neg (h l hl).ne_empty

/-- One of the two texts of a fragment is made of these lines. -/
structure Fragment.MadeOf (text : Fragment → String) (f : Fragment) (ls : List String) : Prop where
  text_eq : text f = joinLines ls
  /-- Only an empty fragment has no lines. -/
  empty_iff : f.isEmpty = true ↔ ls = []
  isLine : ∀ l ∈ ls, IsLine l

section Fragments

variable {text : Fragment → String} {fs : List Fragment} {lss : List (List String)}

/-- **Fragments in a body**: their lines, moved in. -/
theorem Fragment.flatMap_indented (h : List.Forall₂ (MadeOf text) fs lss) :
    (fs.filter (!·.isEmpty)).flatMap (fun f => indented (text f))
      = lss.flatten.map (indentation ++ ·) := by
  induction h with
  | nil => rfl
  | @cons f ls fs lss hf _ ih =>
    obtain ⟨htext, hempty, hline⟩ := hf
    rw [List.filter_cons, List.flatten_cons, List.map_append]
    by_cases hls : ls = []
    · rw [if_neg (by simp [hempty.mpr hls]), ih, hls]
      rfl
    · rw [if_pos (by simp [mt hempty.mp hls]), List.flatMap_cons, ih, htext,
        indented_joinLines hline]

/-- **Fragments below each other**: their lines in order. -/
theorem Fragment.broken_texts (h : List.Forall₂ (MadeOf text) fs lss) :
    broken ((fs.filter (!·.isEmpty)).map text) = broken lss.flatten := by
  induction h with
  | nil => rfl
  | @cons f ls fs lss hf _ ih =>
    obtain ⟨htext, hempty, -⟩ := hf
    rw [List.filter_cons, List.flatten_cons, Text.broken_append]
    by_cases hls : ls = []
    · rw [if_neg (by simp [hempty.mpr hls]), ih, hls]
      rfl
    · rw [if_pos (by simp [mt hempty.mp hls]), List.map_cons, htext, ← List.singleton_append,
        Text.broken_append, ih, Text.broken_joinLines hls]

end Fragments

/-- The default of a slot is among the defaults of the kind. -/
theorem Kind.mem_defaults {kind : Kind} {name : String} {d : DefaultValue}
    (h : kind.default? name = some d) : (name, d) ∈ kind.definition.defaults := by
  obtain ⟨before, after, hdefaults, -⟩ := List.lookup_eq_some_iff.mp h
  rw [hdefaults]
  exact List.mem_append_right before List.mem_cons_self

namespace Block

theorem compile_mk (r : Registry) (i : ι) (t : String) (slots : List (Slot (Block ι)))
    (children : List (Block ι)) (depth : Nat) :
    (mk i t slots children).compile r depth
      = compileNode r t (slots.map (Slot.map (compile r))) (children.map (compile r)) depth := by
  unfold compile
  rw [fold_mk]

/-- The text that a block is compiled with is the text of the slot, if this is so for the reporters
in its slots. -/
theorem input_eq {r : Registry} {i : ι} {t : String} {slots : List (Slot (Block ι))}
    {children : List (Block ι)} {kind : Kind} {depth : Nat} (hkind : r.kind? t = some kind)
    (h : ∀ c ∈ Slots.blocks slots,
      (compile r c depth).executable = c.slotText r reporterSlot) (name : String) :
    (((slots.map (Slot.map (compile r))).map (Slot.resolve depth)).lookup name).getD
        (kind.defaultText name)
      = (mk i t slots children).slotText r name := by
  rw [slotText_mk, hkind]
  induction slots with
  | nil => rfl
  | cons s rest ih =>
    have hrest : ∀ c ∈ Slots.blocks rest,
        (compile r c depth).executable = c.slotText r reporterSlot := by
      intro c hc
      obtain ⟨n, hn⟩ := Slots.mem_blocks.mp hc
      exact h c (Slots.mem_blocks.mpr ⟨n, List.mem_cons_of_mem s hn⟩)
    -- the slot that is looked up is the first of its name, in both lists
    have hget : Slots.get? (s :: rest) name
        = if s.name = name then some s else Slots.get? rest name := by
      unfold Slots.get?
      rw [List.find?_cons]
      by_cases hs : s.name = name <;> simp [hs]
    rw [hget, List.map_cons, List.map_cons, List.lookup_cons]
    cases s with
    | literal n text =>
      by_cases hn : n = name
      · simp [Slot.map, Slot.resolve, Slot.name, hn]
      · have hne : (name == n) = false := by simpa using fun he : name = n => hn he.symm
        simpa [Slot.map, Slot.resolve, Slot.name, hn, hne] using ih hrest
    | reporter n b =>
      by_cases hn : n = name
      · have hb := h b (by simp)
        simp [Slot.map, Slot.resolve, Slot.name, hn, hb]
      · have hne : (name == n) = false := by simpa using fun he : name = n => hn he.symm
        simpa [Slot.map, Slot.resolve, Slot.name, hn, hne] using ih hrest

/-- Only one kind of block is a reporter. -/
theorem eq_value_of_shape {kind : Kind} (h : kind.shape = .reporter) : kind = .value := by
  cases kind with
  | value => rfl
  | _ => cases h

theorem kind?_of_shape? {r : Registry} {b : Block ι} {s : Shape} (h : b.shape? r = some s) :
    ∃ kind, r.kind? b.type = some kind ∧ kind.shape = s := by
  unfold shape? Registry.shape? at h
  cases hk : r.kind? b.type with
  | none =>
    rw [hk] at h
    cases h
  | some kind =>
    rw [hk] at h
    exact ⟨kind, rfl, Option.some.inj h⟩

theorem shape?_of_kind? {r : Registry} {b : Block ι} {k : Kind}
    (h : r.kind? b.type = some k) : b.shape? r = some k.shape := by
  unfold shape? Registry.shape?
  rw [h]
  rfl

/-- **A reporter** is compiled to the text of its slot. -/
theorem compile_reporter {r : Registry} {b : Block ι} (hb : b.WellFormed r)
    (hshape : b.shape? r = some .reporter) (depth : Nat) :
    (b.compile r depth).executable = b.slotText r reporterSlot := by
  induction b using Block.induction with
  | step b ih =>
    obtain ⟨kind, hkind, hvalue⟩ := kind?_of_shape? hshape
    obtain rfl := eq_value_of_shape hvalue
    obtain ⟨i, t, slots, children⟩ := b
    have hkind' : r.kind? t = some .value := hkind
    have hslots : ∀ c ∈ Slots.blocks slots,
        (compile r c depth).executable = c.slotText r reporterSlot := by
      intro c hc
      have hpart : c ∈ (mk i t slots children).parts := List.mem_append_left _ hc
      exact ih c hpart (hb.part hpart) (hb.obeys.slot_shape c hc)
    rw [compile_mk, compileNode, hkind']
    exact input_eq hkind' hslots reporterSlot

/-- **A block of a known type** is compiled with the texts of its slots. -/
theorem compile_known {r : Registry} {i : ι} {t : String} {slots : List (Slot (Block ι))}
    {children : List (Block ι)} {kind : Kind} (hb : (mk i t slots children).WellFormed r)
    (hkind : r.kind? t = some kind) (depth : Nat) :
    (mk i t slots children).compile r depth
      = kind.write ((mk i t slots children).slotText r)
        (((children.map (compile r)).map (· (depth + 1))).filter (!·.isEmpty)) depth := by
  have hslots : ∀ c ∈ Slots.blocks slots,
      (compile r c depth).executable = c.slotText r reporterSlot := fun c hc =>
    compile_reporter (hb.part (List.mem_append_left _ hc)) (hb.obeys.slot_shape c hc) depth
  rw [compile_mk, compileNode, hkind, ← funext (input_eq hkind hslots)]

/-- What compiling a block that is no reporter gives: the lines of its code. -/
def Written (r : Registry) (depth : Nat) (b : Block ι) : Prop :=
  (b.compile r depth).executable = joinLines (Code.linesAll depth (b.code r)) ∧
    (b.compile r depth).isEmpty = (b.code r).isEmpty

theorem Written.madeOf {r : Registry} {depth : Nat} {b : Block ι} (h : Written r depth b) :
    Fragment.MadeOf (·.executable) (b.compile r depth) (Code.linesAll depth (b.code r)) := by
  obtain ⟨htext, hempty⟩ := h
  refine ⟨htext, ?_, Code.isLine_linesAll fun c _ => Code.isLine_lines depth c⟩
  rw [hempty, Code.linesAll_eq_nil_iff, List.isEmpty_iff]

/-- The lines of blocks, one after the other. -/
theorem linesAll_codeAll (r : Registry) (depth : Nat) (bs : List (Block ι)) :
    Code.linesAll depth (codeAll r bs)
      = (bs.map fun b => Code.linesAll depth (b.code r)).flatten := by
  induction bs with
  | nil => rfl
  | cons b rest ih => rw [codeAll, Code.linesAll_append, ih, List.map_cons, List.flatten_cons]

theorem madeOf_executables {r : Registry} {depth : Nat} {bs : List (Block ι)}
    (h : ∀ c ∈ bs, Written r depth c) :
    List.Forall₂ (Fragment.MadeOf (·.executable)) (bs.map (compile r · depth))
      (bs.map fun b => Code.linesAll depth (b.code r)) := by
  rw [List.forall₂_map_left_iff, List.forall₂_map_right_iff, List.forall₂_same]
  exact fun b hb => (h b hb).madeOf

/-- The lines of a body are those of the children, moved in. -/
theorem indented_children {r : Registry} {depth : Nat} {bs : List (Block ι)}
    (h : ∀ c ∈ bs, Written r depth c) :
    (((bs.map (compile r)).map (· depth)).filter (!·.isEmpty)).flatMap
        (Fragment.indented ·.executable)
      = (Code.linesAll depth (codeAll r bs)).map (indentation ++ ·) := by
  rw [List.map_map, linesAll_codeAll]
  exact Fragment.flatMap_indented (madeOf_executables h)

theorem written_call {verb : Verb} {argument : String} {label : ι} {depth : Nat}
    {f : Fragment} (h : f.executable = s!"{verb.function}({Json.quote argument});") :
    f.executable = joinLines (Code.linesAll depth [Code.call label verb argument]) ∧
      f.isEmpty = false := by
  have hline := Code.isLine_call verb argument
  refine ⟨?_, ?_⟩
  · rw [h]
    simp [Code.linesAll, Code.lines, joinLines]
  · unfold Fragment.isEmpty
    rw [h, beq_eq_false_iff_ne.mpr hline.ne_empty, Bool.false_and]

theorem repeatLoop_eq (n : Int) (children : List Fragment) (depth : Nat) :
    Fragment.repeatLoop n children depth
      = Fragment.loop (Header.opening depth (.count n)) (Header.count n).name children :=
  rfl

theorem foreverLoop_eq (children : List Fragment) (depth : Nat) :
    Fragment.foreverLoop children
      = Fragment.loop (Header.opening depth .endless) Header.endless.name children :=
  rfl

theorem written_loop (header : Header) {children : List Fragment} {body : List (Code ι)} {label : ι}
    {depth : Nat} (h : children.flatMap (Fragment.indented ·.executable)
      = (Code.linesAll (depth + 1) body).map (indentation ++ ·)) :
    (Fragment.loop (header.opening depth) header.name children).executable
        = joinLines (Code.linesAll depth [Code.loop label header body]) ∧
      (Fragment.loop (header.opening depth) header.name children).isEmpty = false := by
  have htext : (Fragment.loop (header.opening depth) header.name children).executable
      = joinLines (Code.lines depth (Code.loop label header body)) := by
    unfold Fragment.loop
    dsimp only
    rw [h, Code.lines]
  refine ⟨?_, ?_⟩
  · rw [htext, Code.linesAll, Code.linesAll, List.append_nil]
  · -- a loop has lines, so it is not the empty text
    have hne : joinLines (Code.lines depth (Code.loop label header body)) ≠ "" := by
      intro he
      have hlines := Text.lines_joinLines (Code.isLine_lines depth (Code.loop label header body))
      rw [he] at hlines
      exact Code.lines_ne_nil depth (Code.loop label header body) hlines.symm
    unfold Fragment.isEmpty
    rw [htext, beq_eq_false_iff_ne.mpr hne, Bool.false_and]

/-- **A command or a container** is compiled to the lines of its code, and a block of an unknown
type to nothing. -/
theorem compile_eq {r : Registry} {b : Block ι} (hb : b.WellFormed r)
    (hshape : b.shape? r ≠ some .reporter) (depth : Nat) : Written r depth b := by
  induction b using Block.induction generalizing depth with
  | step b ih =>
    obtain ⟨i, t, slots, children⟩ := b
    -- the code of the children is one level further in
    have hwritten : ∀ c ∈ children, Written r (depth + 1) c := fun c hc =>
      ih c (List.mem_append_right _ hc) (hb.child hc) (hb.obeys.child_shape c hc) (depth + 1)
    have hchildren := indented_children hwritten
    unfold Written
    rw [code]
    rcases hkind : r.kind? t with _ | kind
    · rw [compile_mk, compileNode, hkind]
      exact ⟨rfl, rfl⟩
    rw [compile_known hb hkind]
    cases kind with
    | print => exact written_call rfl
    | alert => exact written_call rfl
    | confirm => exact written_call rfl
    | prompt => exact written_call rfl
    | addSprite => exact written_call rfl
    | «repeat» =>
      simp only [Kind.write, Kind.code, repeatLoop_eq]
      exact written_loop _ hchildren
    | forever =>
      simp only [Kind.write, Kind.code, foreverLoop_eq _ depth]
      exact written_loop _ hchildren
    | value => exact absurd (shape?_of_kind? (k := .value) hkind) hshape

end Block

/-- **The program of a workspace** declares the counter and goes on with the lines of the roots. -/
theorem compileRoots_executable {r : Registry} {bs : List (Block ι)}
    (h : ∀ b ∈ bs, b.WellFormed r ∧ b.shape? r ≠ some .reporter) :
    broken [(compileRoots r bs).executable]
      = broken (Fragment.prelude :: Code.linesAll 0 (Block.codeAll r bs)) := by
  have hwritten : ∀ b ∈ bs, Block.Written r 0 b := by
    intro b hb
    obtain ⟨hwellFormed, hshape⟩ := h b hb
    exact Block.compile_eq hwellFormed hshape 0
  have hroots := Fragment.broken_texts (Block.madeOf_executables hwritten)
  unfold compileRoots
  rw [Text.broken_joinLines (List.cons_ne_nil _ _), Text.broken_cons, Text.broken_cons, hroots,
    Block.linesAll_codeAll]

end Blockwork
