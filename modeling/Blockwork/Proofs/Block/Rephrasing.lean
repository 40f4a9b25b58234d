import Mathlib
import Blockwork.Proofs.Block.Writing
import Blockwork.Proofs.Text.Trimming

/-!
# Trees in other words

What a block is compiled to depends on its type, on the text that each of its slots stands for, and
on those fragments of its children that are not empty (`Block.compile_congr`). Identifiers are not
among these, and one text can be put in a slot in several ways.

`Block.Rephrased` relates a tree to those that say the same in other words. The words may be others
at every block on its own: its identifier, what an unfilled slot is filled with, the blank
characters around a literal, a literal in the place of a reporter, children of unknown types. All
such trees are compiled to the same fragments (`Block.compile_of_rephrased`).

A literal is trimmed when it is compiled, and a default or the text of a reporter is not. So it has
to be seen that there is nothing to trim (`Kind.trim_default`, `Block.trim_slotText`).
-/

namespace Blockwork

open Text (SameInside sameInside_iff trim trim_trim)

variable {ι κ α β : Type} {r : Registry}

/-! ### Trees that say the same -/

/-- Lists whose members are related one by one, where some of either list may be left out. -/
inductive Matched (R : α → β → Prop) (skip : α → Prop) (skip' : β → Prop) : List α → List β → Prop
  | nil : Matched R skip skip' [] []
  | both {a : α} {b : β} {as : List α} {bs : List β} :
      R a b → Matched R skip skip' as bs → Matched R skip skip' (a :: as) (b :: bs)
  | left {a : α} {as : List α} {bs : List β} :
      skip a → Matched R skip skip' as bs → Matched R skip skip' (a :: as) bs
  | right {b : β} {as : List α} {bs : List β} :
      skip' b → Matched R skip skip' as bs → Matched R skip skip' as (b :: bs)

/-- The registry does not know the type of the block. -/
def Block.Unknown (r : Registry) (b : Block ι) : Prop :=
  r.kind? b.type = none

mutual

/-- **Trees that say the same in other words.** -/
inductive Block.Rephrased (r : Registry) : Block ι → Block κ → Prop
  | mk {i : ι} {j : κ} {type : String} {slots : List (Slot (Block ι))}
      {slots' : List (Slot (Block κ))} {children : List (Block ι)} {children' : List (Block κ)} :
      (∀ name, Slot.Rephrased r type name (Slots.get? slots name) (Slots.get? slots' name)) →
      Matched (Block.Rephrased r) (Block.Unknown r) (Block.Unknown r) children children' →
      Block.Rephrased r (.mk i type slots children) (.mk j type slots' children')

/-- What may stand in the slot of this name for what stands there, in a block of this type. -/
inductive Slot.Rephrased (r : Registry) :
    (type name : String) → Option (Slot (Block ι)) → Option (Slot (Block κ)) → Prop
  | unfilled {type name : String} : Slot.Rephrased r type name none none
  | default {type name text : String} {kind : Kind} {d : DefaultValue} :
      r.kind? type = some kind → kind.default? name = some d → SameInside d.display text →
      Slot.Rephrased r type name none (some (.literal name text))
  | literal {type name text text' : String} : SameInside text text' →
      Slot.Rephrased r type name (some (.literal name text)) (some (.literal name text'))
  | reporter {type name : String} {b : Block ι} {b' : Block κ} : Block.Rephrased r b b' →
      Slot.Rephrased r type name (some (.reporter name b)) (some (.reporter name b'))
  /-- For a reporter its text, compiled at any depth. -/
  | text {type name text : String} {b : Block ι} (depth : Nat) :
      SameInside (b.compile r depth).executable text →
      Slot.Rephrased r type name (some (.reporter name b)) (some (.literal name text))

end

/-! ### What a block is compiled from -/

/-- The text that a filled slot of a block at a depth stands for. -/
def Slot.textAt (r : Registry) (depth : Nat) : Slot (Block ι) → String
  | .literal _ text => trim text
  | .reporter _ b => (b.compile r depth).executable

/-- The text that a slot stands for in a block of a kind, filled or not. -/
def Kind.input (r : Registry) (kind : Kind) (depth : Nat) (slots : List (Slot (Block ι)))
    (name : String) : String :=
  ((Slots.get? slots name).map (Slot.textAt r depth)).getD (kind.defaultText name)

theorem lookup_resolve (slots : List (Slot (Block ι))) (depth : Nat) (name : String) :
    ((slots.map (Slot.map (Block.compile r))).map (Slot.resolve depth)).lookup name
      = (Slots.get? slots name).map (Slot.textAt r depth) := by
  induction slots with
  | nil => rfl
  | cons s rest ih =>
    have hresolve : (s.map (Block.compile r)).resolve depth = (s.name, s.textAt r depth) := by
      cases s <;> rfl
    unfold Slots.get? at ih ⊢
    rw [List.map_cons, List.map_cons, hresolve, List.lookup_cons, List.find?_cons]
    by_cases h : s.name = name
    · simp [h]
    · have hne : (name == s.name) = false := by simpa using fun he : name = s.name => h he.symm
      simpa [h, hne] using ih

namespace Block

theorem compile_of_kind? {type : String} {kind : Kind} (h : r.kind? type = some kind) (i : ι)
    (slots : List (Slot (Block ι))) (children : List (Block ι)) (depth : Nat) :
    (mk i type slots children).compile r depth
      = kind.write (kind.input r depth slots)
        ((children.map (compile r · (depth + 1))).filter (!·.isEmpty)) depth := by
  rw [compile_mk, compileNode, h]
  simp only [lookup_resolve]
  rw [List.map_map]
  rfl

theorem Unknown.compile {b : Block ι} (h : b.Unknown r) (depth : Nat) :
    b.compile r depth = .empty := by
  obtain ⟨i, type, slots, children⟩ := b
  have hkind : r.kind? type = none := h
  rw [compile_mk, compileNode, hkind]

/-- **What counts for the fragment of a block**: its type, the texts of its slots, and those
fragments of its children that are not empty. -/
theorem compile_congr {i : ι} {j : κ} {type : String} {slots : List (Slot (Block ι))}
    {slots' : List (Slot (Block κ))} {children : List (Block ι)} {children' : List (Block κ)}
    {depth : Nat}
    (hslots : ∀ kind, r.kind? type = some kind → ∀ name,
      kind.input r depth slots' name = kind.input r depth slots name)
    (hchildren : (children'.map (compile r · (depth + 1))).filter (!·.isEmpty)
      = (children.map (compile r · (depth + 1))).filter (!·.isEmpty)) :
    (mk j type slots' children').compile r depth = (mk i type slots children).compile r depth := by
  cases hkind : r.kind? type with
  | none =>
    have hunknown : (mk j type slots' children').Unknown r := hkind
    have hunknown' : (mk i type slots children).Unknown r := hkind
    rw [hunknown.compile, hunknown'.compile]
  | some kind =>
    rw [compile_of_kind? hkind, compile_of_kind? hkind, hchildren,
      funext (hslots kind hkind)]

/-- Children that are matched leave the same fragments, since those of unknown types leave none. -/
theorem filter_compile_of_matched {R : Block ι → Block κ → Prop} {bs : List (Block ι)}
    {bs' : List (Block κ)} {depth : Nat} (h : Matched R (Unknown r) (Unknown r) bs bs')
    (hR : ∀ b ∈ bs, ∀ b', R b b' → b'.compile r depth = b.compile r depth) :
    (bs'.map (compile r · depth)).filter (!·.isEmpty)
      = (bs.map (compile r · depth)).filter (!·.isEmpty) := by
  have hempty : ¬ (!Fragment.empty.isEmpty) = true := by decide
  induction h with
  | nil => rfl
  | both hb _ ih =>
    obtain ⟨hfirst, hothers⟩ := List.forall_mem_cons.mp hR
    rw [List.map_cons, List.map_cons, hfirst _ hb, List.filter_cons, List.filter_cons, ih hothers]
  | left hskip _ ih =>
    rw [List.map_cons, hskip.compile, List.filter_cons, if_neg hempty]
    exact ih (List.forall_mem_cons.mp hR).2
  | right hskip _ ih =>
    rw [List.map_cons, hskip.compile, List.filter_cons, if_neg hempty]
    exact ih hR

end Block

/-! ### Texts with nothing to trim -/

/-- There are no blank characters around a default. -/
theorem Kind.trim_default {kind : Kind} {name : String} {d : DefaultValue}
    (h : kind.default? name = some d) : trim d.display = d.display := by
  have hall : ∀ entry ∈ kind.definition.defaults, trim entry.2.display = entry.2.display := by
    cases kind <;> decide +kernel
  exact hall (name, d) (mem_defaults h)

theorem Kind.trim_defaultText (kind : Kind) (name : String) :
    trim (kind.defaultText name) = kind.defaultText name := by
  unfold defaultText
  cases hdefault : kind.default? name with
  | none => rfl
  | some d => exact trim_default hdefault

namespace Block

/-- There are no blank characters around the text of a reporter. -/
theorem trim_slotText {b : Block ι} (hb : b.WellFormed r) (hshape : b.shape? r = some .reporter) :
    trim (b.slotText r reporterSlot) = b.slotText r reporterSlot := by
  induction b using Block.induction with
  | step b ih =>
    obtain ⟨kind, hkind, hvalue⟩ := kind?_of_shape? hshape
    obtain rfl := eq_value_of_shape hvalue
    obtain ⟨i, type, slots, children⟩ := b
    have hkind' : r.kind? type = some .value := hkind
    rw [slotText_mk, hkind']
    rcases hslot : Slots.get? slots reporterSlot with _ | ⟨name, text⟩ | ⟨name, c⟩
    · exact Kind.trim_defaultText .value reporterSlot
    · exact trim_trim text
    · -- a reporter in the slot of a reporter
      have hc : c ∈ Slots.blocks slots :=
        Slots.mem_blocks.mpr ⟨name, List.mem_of_find?_eq_some hslot⟩
      have hpart : c ∈ (mk i type slots children).parts := List.mem_append_left _ hc
      exact ih c hpart (hb.part hpart) (hb.obeys.slot_shape c hc)

/-! ### Related trees -/

/-- A slot stands for the same text in both blocks, if its reporter does in both. -/
theorem input_of_rephrased {i : ι} {type : String} {kind : Kind} {slots : List (Slot (Block ι))}
    {slots' : List (Slot (Block κ))} {children : List (Block ι)} {depth : Nat} {name : String}
    (hb : (mk i type slots children).WellFormed r) (hkind : r.kind? type = some kind)
    (h : Slot.Rephrased r type name (Slots.get? slots name) (Slots.get? slots' name))
    (ih : ∀ c ∈ Slots.blocks slots, ∀ c' : Block κ, Rephrased r c c' →
      c'.compile r depth = c.compile r depth) :
    kind.input r depth slots' name = kind.input r depth slots name := by
  unfold Kind.input
  have hmem {c : Block ι} (hslot : Slots.get? slots name = some (.reporter name c)) :
      c ∈ Slots.blocks slots :=
    Slots.mem_blocks.mpr ⟨name, List.mem_of_find?_eq_some hslot⟩
  generalize hslot : Slots.get? slots name = slot at h
  generalize Slots.get? slots' name = slot' at h
  cases h with
  | unfilled => rfl
  | @default _ _ text kind' d hkind' hdefault hinside =>
    obtain rfl := Option.some.inj (hkind.symm.trans hkind')
    have hdisplay : kind.defaultText name = d.display := by
      unfold Kind.defaultText
      rw [hdefault]
      rfl
    change trim text = kind.defaultText name
    rw [← sameInside_iff.mp hinside, hdisplay, Kind.trim_default hdefault]
  | literal hinside => exact (sameInside_iff.mp hinside).symm
  | reporter hc =>
    change (compile r _ depth).executable = (compile r _ depth).executable
    rw [ih _ (hmem hslot) _ hc]
  | @text _ _ text c depth' hinside =>
    -- whatever depth the text was compiled at
    have hc := hmem hslot
    have hwell : c.WellFormed r := hb.part (List.mem_append_left _ hc)
    have hshape : c.shape? r = some .reporter := hb.obeys.slot_shape c hc
    rw [compile_reporter hwell hshape] at hinside
    change trim text = (compile r c depth).executable
    rw [← sameInside_iff.mp hinside, trim_slotText hwell hshape, compile_reporter hwell hshape]

/-- **Trees that say the same are compiled to the same.** A tree obeys the rules of placement. At
every level of it, or at some, let there be other identifiers; let slots that hold nothing be filled
with the literals of their defaults, and let reporters give way to literals of the texts that they
are compiled to; let there be more or fewer blank characters around literals, and more or fewer
children of unknown types. Then the two fragments of the tree are what they were, at any depth. -/
theorem compile_of_rephrased {b : Block ι} {b' : Block κ} (hb : b.WellFormed r)
    (h : Rephrased r b b') (depth : Nat) : b'.compile r depth = b.compile r depth := by
  induction b using Block.induction generalizing b' depth with
  | step b ih =>
    cases h with
    | @mk i _ type slots _ children _ hslots hchildren =>
      have hpart {c : Block ι} (hc : c ∈ Slots.blocks slots ∨ c ∈ children) :
          c ∈ (mk i type slots children).parts :=
        List.mem_append.mpr hc
      refine compile_congr (fun kind hkind name => ?_) ?_
      · refine input_of_rephrased hb hkind (hslots name) fun c hc c' hcc' => ?_
        exact ih c (hpart (.inl hc)) (hb.part (hpart (.inl hc))) hcc' depth
      · refine filter_compile_of_matched hchildren fun c hc c' hcc' => ?_
        exact ih c (hpart (.inr hc)) (hb.part (hpart (.inr hc))) hcc' (depth + 1)

/-- A loop with nothing in its slot, around a block of an unknown type and one that prints the text
of a reporter in a reporter. -/
def wordy : Block Nat :=
  .mk 1 "repeat" []
    [.mk 2 "teleport" [] [],
      .mk 3 "print"
        [.reporter "input1" (.mk 4 "value"
          [.reporter "input1" (.mk 5 "value" [.literal "input1" " 7 "] [])] [])] []]

/-- The same in other words. -/
def terse : Block Unit :=
  .mk () "repeat" [.literal "input1" "\t3"]
    [.mk () "print" [.literal "input1" "7  "] [], .mk () "siren" [.literal "input1" "!"] []]

theorem rephrased_terse : Rephrased .standard wordy terse := by
  have hother {β : Type} {name : String} (h : ¬ "input1" = name) (s : Slot β)
      (hs : s.name = "input1") : Slots.get? [s] name = none := by
    simp [Slots.get?, hs, h]
  refine .mk (fun name => ?_) (.left rfl (.both (.mk (fun name => ?_) .nil) (.right rfl .nil)))
  · by_cases h : "input1" = name
    · subst h
      have hkind : Registry.standard.kind? "repeat" = some Kind.repeat := rfl
      exact .default hkind rfl (sameInside_iff.mpr (by decide +kernel))
    · rw [hother h _ rfl]
      exact .unfilled
  · by_cases h : "input1" = name
    · subst h
      exact .text 0 (sameInside_iff.mpr (by decide +kernel))
    · rw [hother h _ rfl, hother h _ rfl]
      exact .unfilled

theorem compile_of_rephrased_terse : wordy.WellFormed .standard ∧
    Rephrased .standard wordy terse ∧ ∀ depth,
      terse.compile .standard depth = wordy.compile .standard depth :=
  have hwell : wordy.WellFormed .standard := by decide +kernel
  ⟨hwell, rephrased_terse, compile_of_rephrased hwell rephrased_terse⟩

end Block

end Blockwork
