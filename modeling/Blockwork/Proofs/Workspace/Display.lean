import Mathlib
import Blockwork.Proofs.Block.Writing

/-!
# What is shown is what runs

The text that a workspace shows and the program that it runs are put together side by side, each
from its own half of the fragments, and in each the lines of a body are cut apart and moved in again
at every level. They differ by the guard of each loop and by the declaration of the counter.

`Fragment.unguarded?` takes these out of a program, by looking at its lines only: a line is the
header of a loop by the word that it begins with, wherever it is moved in, and the five lines behind
it have to be the guard as it stands below this header. What is left of the program of a well placed
workspace is the text that is shown (`Workspace.unguarded_executable`).

This is not so where sprites are drawn, since these are shown by a sentence and not by a call.

## Main results

* `Fragment.withoutGuards?_append`, `Fragment.withoutGuards?_indented`: guards are taken out of
  lines part by part, and at any level.
* `Block.exists_shows`: what a block shows is what it runs without the guards.
-/

namespace Blockwork

open Text (IsLine joinLines broken)
open Fragment (indentation guardLines loopVariable)

variable {ι ν : Type}

/-! ### Taking out the guards -/

namespace Fragment

/-- The blank characters that a line begins with. -/
def margin (line : String) : String :=
  String.ofList (line.toList.takeWhile (· = ' '))

/-- What the guard calls the loop that a line opens, if it opens one. -/
def loopName? (line : String) : Option String :=
  let text := line.toList.dropWhile (· = ' ')
  if "for (".toList.isPrefixOf text then some "repeat"
  else if "while (".toList.isPrefixOf text then some "forever"
  else none

/-- The guard as it stands below the header of a loop. -/
def guardBelow (header name : String) : List String :=
  (guardLines name).map fun line => margin header ++ (indentation ++ line)

/-- The lines without the five lines of the guard behind each header of a loop. There is no answer
if some header has no guard behind it. -/
def withoutGuards? : List String → Option (List String)
  | [] => some []
  | line :: rest =>
    match loopName? line with
    | none => (withoutGuards? rest).map (line :: ·)
    | some name =>
      match rest with
      | l₁ :: l₂ :: l₃ :: l₄ :: l₅ :: rest =>
        if [l₁, l₂, l₃, l₄, l₅] = guardBelow line name then
          (withoutGuards? rest).map (line :: ·)
        else none
      | _ => none

/-- A program without its first line, which declares the counter, and without all guards. -/
def unguarded? (executable : String) : Option String :=
  match Text.lines executable with
  | [] => none
  | first :: rest => if first = prelude then (withoutGuards? rest).map joinLines else none

/-- **Guards are taken out part by part**, since no part ends inside a guard. -/
theorem withoutGuards?_append {ls ms : List String} (h : withoutGuards? ls = some ms)
    (rest : List String) :
    withoutGuards? (ls ++ rest) = (withoutGuards? rest).map (ms ++ ·) := by
  fun_induction withoutGuards? ls generalizing ms with
  | case1 =>
    obtain rfl := Option.some.inj h
    simp
  | case2 line ls hname ih =>
    obtain ⟨ms', hms', rfl⟩ := Option.map_eq_some_iff.mp h
    rw [List.cons_append, withoutGuards?, hname]
    dsimp only
    rw [ih hms', Option.map_map]
    rfl
  | case3 line name hname l₁ l₂ l₃ l₄ l₅ ls hguard ih =>
    obtain ⟨ms', hms', rfl⟩ := Option.map_eq_some_iff.mp h
    simp only [List.cons_append]
    rw [withoutGuards?, hname]
    dsimp only
    rw [if_pos hguard, ih hms', Option.map_map]
    rfl
  | case4 => cases h
  | case5 => cases h

/-- Nothing is put in and nothing changes its place. -/
theorem sublist_of_withoutGuards? {ls ms : List String} (h : withoutGuards? ls = some ms) :
    ms.Sublist ls := by
  fun_induction withoutGuards? ls generalizing ms with
  | case1 =>
    obtain rfl := Option.some.inj h
    exact .refl []
  | case2 line ls hname ih =>
    obtain ⟨ms', hms', rfl⟩ := Option.map_eq_some_iff.mp h
    exact (ih hms').cons_cons line
  | case3 line name hname l₁ l₂ l₃ l₄ l₅ ls hguard ih =>
    obtain ⟨ms', hms', rfl⟩ := Option.map_eq_some_iff.mp h
    have hskip : ls.Sublist ([l₁, l₂, l₃, l₄, l₅] ++ ls) := List.sublist_append_right _ _
    exact ((ih hms').trans hskip).cons_cons line
  | case4 => cases h
  | case5 => cases h

/-! ### At any level

Lines are moved in once for every loop around them. Neither what a line opens nor whether a guard
stands below it depends on that. -/

theorem loopName?_indentation (line : String) :
    loopName? (indentation ++ line) = loopName? line := by
  have hdrop : (indentation ++ line).toList.dropWhile (· = ' ')
      = line.toList.dropWhile (· = ' ') := by
    rw [String.toList_append]
    rfl
  unfold loopName?
  rw [hdrop]

theorem margin_indentation (line : String) :
    margin (indentation ++ line) = indentation ++ margin line := by
  unfold margin
  rw [String.toList_append, ← String.ofList_toList (s := indentation), ← String.ofList_append]
  rfl

theorem guardBelow_indentation (header name : String) :
    guardBelow (indentation ++ header) name
      = (guardBelow header name).map (indentation ++ ·) := by
  unfold guardBelow
  rw [margin_indentation, List.map_map]
  refine List.map_congr_left fun line _ => ?_
  exact String.append_assoc ..

/-- **Guards are taken out at any level** alike. -/
theorem withoutGuards?_indented {ls ms : List String} (h : withoutGuards? ls = some ms) :
    withoutGuards? (ls.map (indentation ++ ·)) = some (ms.map (indentation ++ ·)) := by
  fun_induction withoutGuards? ls generalizing ms with
  | case1 =>
    obtain rfl := Option.some.inj h
    rfl
  | case2 line ls hname ih =>
    obtain ⟨ms', hms', rfl⟩ := Option.map_eq_some_iff.mp h
    rw [List.map_cons, withoutGuards?, loopName?_indentation, hname]
    dsimp only
    rw [ih hms']
    rfl
  | case3 line name hname l₁ l₂ l₃ l₄ l₅ ls hguard ih =>
    obtain ⟨ms', hms', rfl⟩ := Option.map_eq_some_iff.mp h
    -- the guard has been moved in together with the header
    have hmoved : [indentation ++ l₁, indentation ++ l₂, indentation ++ l₃, indentation ++ l₄,
        indentation ++ l₅] = guardBelow (indentation ++ line) name := by
      rw [guardBelow_indentation, ← hguard]
      rfl
    simp only [List.map_cons]
    rw [withoutGuards?, loopName?_indentation, hname]
    dsimp only
    rw [if_pos hmoved, ih hms']
    rfl
  | case4 => cases h
  | case5 => cases h

end Fragment

/-! ### The lines of code -/

open Fragment

/-- How the header of a loop begins. -/
def Header.beginning : Header → String
  | .count _ => "for (let "
  | .endless => "while (true)"

theorem Header.exists_opening (depth : Nat) (header : Header) :
    ∃ rest, (s!"{header.opening depth} \x7b").toList = header.beginning.toList ++ rest := by
  cases header with
  | count n =>
    apply Exists.intro
    unfold opening beginning
    simp only [Code.toString_text, String.toList_append, List.append_assoc]
    rfl
  | endless => exact ⟨_, String.toList_append⟩

theorem Fragment.loopName?_opening (depth : Nat) (header : Header) :
    loopName? s!"{header.opening depth} \x7b" = some header.name := by
  obtain ⟨rest, hrest⟩ := header.exists_opening depth
  unfold loopName?
  rw [hrest]
  cases header <;> (rw [Header.beginning]; rfl)

theorem Fragment.guardBelow_opening (depth : Nat) (header : Header) (name : String) :
    guardBelow s!"{header.opening depth} \x7b" name
      = (guardLines name).map (indentation ++ ·) := by
  have hmargin : margin s!"{header.opening depth} \x7b" = "" := by
    obtain ⟨rest, hrest⟩ := header.exists_opening depth
    unfold margin
    rw [hrest]
    cases header <;> (rw [Header.beginning]; rfl)
  unfold guardBelow
  rw [hmargin]
  exact List.map_congr_left fun line _ => String.empty_append

/-- A call opens no loop, whatever its argument is. -/
theorem Fragment.loopName?_call (verb : Verb) (argument : String) :
    loopName? s!"{verb.function}({Json.quote argument});" = none := by
  have hcall : (s!"{verb.function}({Json.quote argument});").toList
      = verb.function.toList ++ ('(' :: ((Json.quote argument).toList ++ ");".toList)) := by
    simp [Code.toString_text]
  unfold loopName?
  rw [hcall]
  cases verb <;> rfl

/-- **The guard of a loop** is taken out, and its header stays. -/
theorem Fragment.withoutGuards?_opening {depth : Nat} {header : Header} (rest : List String) :
    withoutGuards? (s!"{header.opening depth} \x7b" ::
        ((guardLines header.name).map (indentation ++ ·) ++ rest))
      = (withoutGuards? rest).map (s!"{header.opening depth} \x7b" :: ·) := by
  have hguard := guardBelow_opening depth header header.name
  rw [Code.guardLines_eq] at hguard ⊢
  simp only [List.map_cons, List.map_nil, List.cons_append, List.nil_append] at hguard ⊢
  rw [withoutGuards?, loopName?_opening]
  dsimp only
  rw [if_pos hguard.symm]

/-- The lines of a loop without any guard, from those of its body. -/
theorem Fragment.withoutGuards?_loop {depth : Nat} {label : ν} {header : Header}
    {body : List (Code ν)} {ms : List String}
    (h : withoutGuards? (Code.linesAll (depth + 1) body) = some ms) :
    withoutGuards? (Code.linesAll depth [.loop label header body])
      = some (s!"{header.opening depth} \x7b" :: (ms.map (indentation ++ ·) ++ ["\x7d"])) := by
  have hclose : withoutGuards? ["\x7d"] = some ["\x7d"] := rfl
  rw [Code.linesAll, Code.linesAll, List.append_nil, Code.lines, withoutGuards?_opening,
    withoutGuards?_append (withoutGuards?_indented h), hclose]
  rfl

/-! ### The two texts of a block -/

theorem Registry.typeName_of_kind? {r : Registry} {t : String} {kind : Kind}
    (h : r.kind? t = some kind) : kind.typeName = t := by
  unfold kind? at h
  have hfound := List.find?_some h
  exact of_decide_eq_true hfound

namespace Block

variable {r : Registry} {depth : Nat}

/-- What a block shows are these lines, and they are the lines of its code without the guards. -/
structure Shows (r : Registry) (depth : Nat) (b : Block ι) (ms : List String) : Prop where
  left : withoutGuards? (Code.linesAll depth (b.code r)) = some ms
  madeOf : Fragment.MadeOf (·.display) (b.compile r depth) ms

/-- It is enough to know the lines that are shown, since only an empty block shows none. -/
theorem Shows.of_display {b : Block ι} {ms : List String} (hb : b.WellFormed r)
    (hshape : b.shape? r ≠ some .reporter)
    (hleft : withoutGuards? (Code.linesAll depth (b.code r)) = some ms)
    (hdisplay : (b.compile r depth).display = joinLines ms) (hempty : ms = [] ↔ b.code r = []) :
    Shows r depth b ms := by
  obtain ⟨-, hsame⟩ := compile_eq hb hshape depth
  refine ⟨hleft, hdisplay, ?_, ?_⟩
  · rw [hsame, List.isEmpty_iff, hempty]
  · intro l hl
    have hlines := Code.isLine_linesAll fun c (_ : c ∈ b.code r) => Code.isLine_lines depth c
    exact hlines l ((sublist_of_withoutGuards? hleft).subset hl)

/-- A call is shown as it runs. -/
theorem shows_call {b : Block ι} {label : ι} {verb : Verb} {argument : String}
    (hb : b.WellFormed r) (hshape : b.shape? r ≠ some .reporter)
    (hcode : b.code r = [.call label verb argument])
    (hsame : (b.compile r depth).display = (b.compile r depth).executable) :
    Shows r depth b [s!"{verb.function}({Json.quote argument});"] := by
  have hlines : Code.linesAll depth (b.code r) = [s!"{verb.function}({Json.quote argument});"] := by
    rw [hcode]
    rfl
  refine .of_display hb hshape ?_ ?_ (by simp [hcode])
  · rw [hlines, withoutGuards?, loopName?_call]
    rfl
  · rw [hsame, (compile_eq hb hshape depth).1, hlines]

theorem exists_shows_all {bs : List (Block ι)} (h : ∀ b ∈ bs, ∃ ms, Shows r depth b ms) :
    ∃ mss, List.Forall₂ (Fragment.MadeOf (·.display)) (bs.map (compile r · depth)) mss ∧
      withoutGuards? (Code.linesAll depth (codeAll r bs)) = some mss.flatten := by
  induction bs with
  | nil => exact ⟨[], .nil, rfl⟩
  | cons b rest ih =>
    obtain ⟨ms, hleft, hmadeOf⟩ := h b List.mem_cons_self
    obtain ⟨mss, hmadeOfAll, hleftAll⟩ := ih fun c hc => h c (List.mem_cons_of_mem b hc)
    refine ⟨ms :: mss, .cons hmadeOf hmadeOfAll, ?_⟩
    rw [codeAll, Code.linesAll_append, withoutGuards?_append hleft, hleftAll]
    rfl

/-- A loop is shown as its header around what is shown of its body. -/
theorem exists_shows_loop {b : Block ι} {children : List (Block ι)} {label : ι} (header : Header)
    (hb : b.WellFormed r) (hshape : b.shape? r ≠ some .reporter)
    (hcode : b.code r = [.loop label header (codeAll r children)])
    (hcompile : b.compile r depth = Fragment.loop (header.opening depth) header.name
      (((children.map (compile r)).map (· (depth + 1))).filter (!·.isEmpty)))
    (h : ∀ c ∈ children, ∃ ms, Shows r (depth + 1) c ms) : ∃ ms, Shows r depth b ms := by
  obtain ⟨mss, hmadeOf, hleft⟩ := exists_shows_all h
  -- the body is indented once more inside the braces
  refine ⟨s!"{header.opening depth} \x7b" :: (mss.flatten.map (indentation ++ ·) ++ ["\x7d"]),
    .of_display hb hshape ?_ ?_ (by simp [hcode])⟩
  · rw [hcode]
    exact withoutGuards?_loop hleft
  · rw [hcompile]
    unfold Fragment.loop
    dsimp only
    rw [List.map_map]
    exact congrArg (fun ls => joinLines (_ :: (ls ++ ["\x7d"])))
      (Fragment.flatMap_indented hmadeOf)

/-- **What a block shows is what it runs**, without the guards. -/
theorem exists_shows {b : Block ι} (hb : b.WellFormed r) (hshape : b.shape? r ≠ some .reporter)
    (hsprite : ∀ c ∈ b.subtrees, c.type ≠ Kind.addSprite.typeName) (depth : Nat) :
    ∃ ms, Shows r depth b ms := by
  induction b using Block.induction generalizing depth with
  | step b ih =>
    obtain ⟨i, t, slots, children⟩ := b
    have hchildren : ∀ c ∈ children, ∃ ms, Shows r (depth + 1) c ms := by
      intro c hc
      have hpart : c ∈ (mk i t slots children).parts := List.mem_append_right _ hc
      refine ih c hpart (hb.child hc) (hb.obeys.child_shape c hc) ?_ (depth + 1)
      intro d hd
      exact hsprite d (mem_subtrees.mpr (Or.inr ⟨c, hpart, hd⟩))
    rcases hkind : r.kind? t with _ | kind
    · have hcode : (mk i t slots children).code r = [] := by
        rw [code, hkind]
      refine ⟨[], .of_display hb hshape ?_ ?_ (by simp [hcode])⟩
      · rw [hcode]
        rfl
      · rw [compile_mk, compileNode, hkind]
        rfl
    have hcode : (mk i t slots children).code r
        = kind.code i ((mk i t slots children).slotText r) (codeAll r children) := by
      rw [code, hkind]
    -- the text for display and the code come from one kind, so the cases are those of the kind
    have hcompile := compile_known hb hkind depth
    cases kind with
    | print => exact ⟨_, shows_call hb hshape hcode (by rw [hcompile]; rfl)⟩
    | alert => exact ⟨_, shows_call hb hshape hcode (by rw [hcompile]; rfl)⟩
    | confirm => exact ⟨_, shows_call hb hshape hcode (by rw [hcompile]; rfl)⟩
    | prompt => exact ⟨_, shows_call hb hshape hcode (by rw [hcompile]; rfl)⟩
    | «repeat» => exact exists_shows_loop (.count _) hb hshape hcode hcompile hchildren
    | forever => exact exists_shows_loop .endless hb hshape hcode hcompile hchildren
    | addSprite =>
      exact absurd (Registry.typeName_of_kind? hkind) (hsprite _ (self_mem_subtrees _)).symm
    | value => exact absurd (shape?_of_kind? (k := .value) hkind) hshape

end Block

/-! ### The two texts of a workspace -/

theorem isLine_prelude : IsLine Fragment.prelude := by
  have hprelude : Fragment.prelude = "let __loop_guard = 0;" := by
    simp [prelude, guardVariable, Code.toString_text]
  rw [hprelude]
  exact Code.isLine_literal (by simp)

theorem compileRoots_executable_eq {r : Registry} {bs : List (Block ι)}
    (h : ∀ b ∈ bs, b.WellFormed r ∧ b.shape? r ≠ some .reporter) :
    (compileRoots r bs).executable
      = joinLines (Fragment.prelude :: Code.linesAll 0 (Block.codeAll r bs)) := by
  have hbroken := compileRoots_executable h
  rw [← Text.broken_joinLines (List.cons_ne_nil _ _)] at hbroken
  simpa [joinLines] using Text.joinLines_congr hbroken

/-- **What a workspace shows is what it runs.** Without the declaration of the counter and the five
lines of the guard behind each header of a loop, its program is the text that it shows. -/
theorem Workspace.unguarded_executable {ws : Workspace} (h : ws.WellPlaced)
    (hsprite : ∀ b ∈ ws.blocks, ∀ c ∈ b.subtrees, c.type ≠ Kind.addSprite.typeName) :
    Fragment.unguarded? ws.compile.executable = some ws.compile.display := by
  have hroots : ∀ b ∈ ws.blocks, ∃ ms, Block.Shows ws.registry 0 b ms := fun b hb =>
    Block.exists_shows (h.wellFormed b hb) (h.root_shape b hb) (hsprite b hb) 0
  obtain ⟨mss, hmadeOf, hleft⟩ := Block.exists_shows_all hroots
  have hdisplay : ws.compile.display = joinLines mss.flatten :=
    Text.joinLines_congr (Fragment.broken_texts hmadeOf)
  have hexecutable : ws.compile.executable = _ :=
    compileRoots_executable_eq fun b hb => ⟨h.wellFormed b hb, h.root_shape b hb⟩
  have hlines := Code.isLine_linesAll fun c (_ : c ∈ Block.codeAll ws.registry ws.blocks) =>
    Code.isLine_lines 0 c
  unfold Fragment.unguarded?
  rw [hexecutable, Text.lines_joinLines (List.forall_mem_cons.mpr ⟨isLine_prelude, hlines⟩)]
  dsimp only
  rw [if_pos rfl, hleft, hdisplay]
  rfl

/-- Loops in each other, around a call whose text would open a loop, were it not quoted. -/
def Workspace.nestedLoops : Workspace :=
  ⟨.standard,
    [⟨0, 0, .mk 1 "repeat" [.reporter "input1" (.mk 2 "value" [.literal "input1" " -7 times"] [])]
      [.bare 3 "teleport",
        .mk 4 "forever" []
          [.mk 5 "print" [.literal "input1" "\");\nwhile (true) \x7b"] [], .bare 6 "repeat"]]⟩,
      ⟨40, 0, .bare 7 "alert"⟩],
    [], 8⟩

theorem Workspace.unguarded_executable_nested :
    nestedLoops.WellPlaced ∧
      (∀ b ∈ nestedLoops.blocks, ∀ c ∈ b.subtrees, c.type ≠ Kind.addSprite.typeName) ∧
      Fragment.unguarded? nestedLoops.compile.executable = some nestedLoops.compile.display := by
  have hplaced : nestedLoops.WellPlaced := by decide
  have hsprite : ∀ b ∈ nestedLoops.blocks, ∀ c ∈ b.subtrees,
      c.type ≠ Kind.addSprite.typeName := by decide
  exact ⟨hplaced, hsprite, unguarded_executable hplaced hsprite⟩

end Blockwork
