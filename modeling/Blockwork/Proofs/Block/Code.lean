import Mathlib
import Blockwork.Block.Compile
import Blockwork.Proofs.Block.Tree

/-!
# What a tree of blocks does

Between a tree and its program stands its *code*: the calls that its commands make and the loops of
its containers, with the texts of all slots resolved. Blocks of unknown types have no code, and
reporters are only in the texts. The program is the code written down, the run of the program is a
run of the code, and the meaning of the tree can be read off the code, so that each of the three is
compared with the code alone.

Code carries a label at each call and each loop: the identifier of its block, or the places of its
tokens in a program.
-/

namespace Blockwork

variable {ι ν μ : Type}

/-- What a command asks of the host. -/
inductive Verb where
  | print | alert | confirm | prompt | drawSprite
deriving DecidableEq

/-- The name of the function in a script. -/
def Verb.function : Verb → String
  | .print => "print"
  | .alert => "alert"
  | .confirm => "confirm"
  | .prompt => "prompt"
  | .drawSprite => "draw_sprite"

/-- How often a loop is taken. -/
inductive Header where
  | count (n : Int)
  | endless
deriving DecidableEq

/-- The count is one that a text can stand for. -/
def Header.Fits : Header → Prop
  | .count n => n.natAbs ≤ countLimit
  | .endless => True

theorem Header.Fits.natAbs_lt {n : Int} (h : (count n).Fits) : n.natAbs < 2 ^ 64 :=
  Nat.lt_of_le_of_lt h (by decide)

/-- What the warning of the guard calls the loop. -/
def Header.name : Header → String
  | .count _ => "repeat"
  | .endless => "forever"

/-- The calls and loops of a tree. -/
inductive Code (ν : Type) where
  | call (label : ν) (verb : Verb) (argument : String)
  | loop (label : ν) (header : Header) (body : List (Code ν))

namespace Code

/-- **Induction over code.** -/
theorem induction {motive : Code ν → Prop}
    (call : ∀ label verb argument, motive (.call label verb argument))
    (loop : ∀ label header body, (∀ c ∈ body, motive c) → motive (.loop label header body)) :
    ∀ c : Code ν, motive c
  | .call label verb argument => call label verb argument
  | .loop label header body => loop label header body fun c _ => induction call loop c

mutual

/-- Other labels on the same code. -/
def map (f : ν → μ) : Code ν → Code μ
  | .call l verb argument => .call (f l) verb argument
  | .loop l header body => .loop (f l) header (mapAll f body)

/-- Other labels on a list of code. -/
def mapAll (f : ν → μ) : List (Code ν) → List (Code μ)
  | [] => []
  | c :: cs => map f c :: mapAll f cs

end

mutual

/-- How deep the loops are nested, counting the code itself. -/
def height : Code ν → Nat
  | .call .. => 1
  | .loop _ _ body => 1 + heightAll body

/-- The greatest height. -/
def heightAll : List (Code ν) → Nat
  | [] => 0
  | c :: cs => max (height c) (heightAll cs)

end

mutual

/-- The labels of the loops, each before those inside it. -/
def loops : Code ν → List ν
  | .call .. => []
  | .loop l _ body => l :: loopsAll body

/-- The labels of the loops in a list of code. -/
def loopsAll : List (Code ν) → List ν
  | [] => []
  | c :: cs => loops c ++ loopsAll cs

end

mutual

/-- The headers of the loops. -/
def headers : Code ν → List Header
  | .call .. => []
  | .loop _ header body => header :: headersAll body

/-- The headers of the loops in a list of code. -/
def headersAll : List (Code ν) → List Header
  | [] => []
  | c :: cs => headers c ++ headersAll cs

end

theorem heightAll_le {cs : List (Code ν)} {n : Nat} :
    heightAll cs ≤ n ↔ ∀ c ∈ cs, c.height ≤ n := by
  induction cs with
  | nil => simp [heightAll]
  | cons c cs ih => rw [heightAll, max_le_iff, ih, List.forall_mem_cons]

theorem height_loop_le {l : ν} {header : Header} {body : List (Code ν)} {n : Nat} :
    (loop l header body).height ≤ n + 1 ↔ ∀ c ∈ body, c.height ≤ n := by
  rw [height, ← heightAll_le]
  omega

theorem loopsAll_append (cs ds : List (Code ν)) :
    loopsAll (cs ++ ds) = loopsAll cs ++ loopsAll ds := by
  induction cs with
  | nil => rfl
  | cons c cs ih => rw [List.cons_append, loopsAll, loopsAll, ih, List.append_assoc]

end Code

namespace Code

theorem headersAll_append (cs ds : List (Code ν)) :
    headersAll (cs ++ ds) = headersAll cs ++ headersAll ds := by
  induction cs with
  | nil => rfl
  | cons c cs ih => rw [List.cons_append, headersAll, headersAll, ih, List.append_assoc]

theorem mem_headersAll {cs : List (Code ν)} {header : Header} :
    header ∈ headersAll cs ↔ ∃ c ∈ cs, header ∈ c.headers := by
  induction cs with
  | nil => simp [headersAll]
  | cons c cs ih => rw [headersAll, List.mem_append, ih, List.exists_mem_cons_iff]

theorem headersAll_mapAll_of {f : ν → μ} {cs : List (Code ν)}
    (h : ∀ c ∈ cs, (c.map f).headers = c.headers) : headersAll (mapAll f cs) = headersAll cs := by
  induction cs with
  | nil => rfl
  | cons c cs ih =>
    rw [mapAll, headersAll, headersAll, h c List.mem_cons_self,
      ih fun d hd => h d (List.mem_cons_of_mem c hd)]

theorem headers_map (f : ν → μ) (c : Code ν) : (c.map f).headers = c.headers := by
  induction c using Code.induction with
  | call => rfl
  | loop label header body ih => rw [map, headers, headers, headersAll_mapAll_of ih]

theorem headersAll_mapAll (f : ν → μ) (cs : List (Code ν)) :
    headersAll (mapAll f cs) = headersAll cs :=
  headersAll_mapAll_of fun c _ => headers_map f c

end Code

/-! ### The texts of slots -/

/-- The slot of a reporter. -/
def reporterSlot : String := "input1"

/-- **The text of a slot**: that of the reporter in it, or the literal without the blank characters
around it, or the default. -/
def Block.slotText (r : Registry) : Block ι → String → String :=
  fold fun _ type slots _ name =>
    match Slots.get? slots name with
    | some (.literal _ text) => Text.trim text
    | some (.reporter _ inner) => inner reporterSlot
    | none => ((r.kind? type).map (·.defaultText name)).getD ""

theorem Slots.get?_map {β γ : Type} (f : β → γ) (slots : List (Slot β)) (name : String) :
    Slots.get? (slots.map (Slot.map f)) name = (Slots.get? slots name).map (Slot.map f) := by
  unfold Slots.get?
  rw [List.find?_map]
  congr 2
  funext s
  cases s <;> rfl

theorem Block.slotText_mk (r : Registry) (i : ι) (t : String) (slots : List (Slot (Block ι)))
    (children : List (Block ι)) (name : String) :
    (Block.mk i t slots children).slotText r name =
      match Slots.get? slots name with
      | some (.literal _ text) => Text.trim text
      | some (.reporter _ inner) => inner.slotText r reporterSlot
      | none => ((r.kind? t).map (·.defaultText name)).getD "" := by
  unfold Block.slotText
  rw [Block.fold_mk, Slots.get?_map]
  rcases Slots.get? slots name with _ | ⟨n, text⟩ | ⟨n, b⟩ <;> rfl

/-! ### The code of a tree -/

/-- The code of a block of this kind, given the text of each slot and the code of the children. -/
def Kind.code (kind : Kind) (label : ν) (input : String → String) (body : List (Code ν)) :
    List (Code ν) :=
  match kind with
  | .print => [.call label .print (input "input1")]
  | .alert => [.call label .alert (input "input1")]
  | .confirm => [.call label .confirm (input "input1")]
  | .prompt => [.call label .prompt (input "input1")]
  | .value => []
  | .repeat =>
    [.loop label (.count (repeatCount (input "input1") (kind.defaultText "input1"))) body]
  | .forever => [.loop label .endless body]
  | .addSprite => [.call label .drawSprite (input "imageinput1")]

mutual

/-- The code of a block. -/
def Block.code (r : Registry) : Block ι → List (Code ι)
  | .mk i t slots children =>
    match r.kind? t with
    | none => []
    | some kind =>
      kind.code i ((Block.mk i t slots children).slotText r) (Block.codeAll r children)

/-- The code of blocks, one after the other. -/
def Block.codeAll (r : Registry) : List (Block ι) → List (Code ι)
  | [] => []
  | b :: rest => Block.code r b ++ Block.codeAll r rest

end

theorem Block.codeAll_eq (r : Registry) (bs : List (Block ι)) :
    Block.codeAll r bs = bs.flatMap (Block.code r) := by
  induction bs with
  | nil => rfl
  | cons b rest ih => rw [Block.codeAll, ih, List.flatMap_cons]

theorem Block.height_codeAll_le_of {r : Registry} {bs : List (Block ι)} {n : Nat}
    (h : ∀ b ∈ bs, ∀ c ∈ b.code r, c.height ≤ n) : ∀ c ∈ Block.codeAll r bs, c.height ≤ n := by
  rw [Block.codeAll_eq]
  intro c hc
  obtain ⟨b, hb, hcb⟩ := List.mem_flatMap.mp hc
  exact h b hb c hcb

/-- Code is not higher than its tree. -/
theorem Block.height_code_le (r : Registry) (b : Block ι) : ∀ c ∈ b.code r, c.height ≤ b.height := by
  induction b using Block.induction with
  | step b ih =>
    obtain ⟨i, t, slots, children⟩ := b
    have hbody : ∀ l header,
        (Code.loop l header (Block.codeAll r children)).height
          ≤ (Block.mk i t slots children).height := by
      intro l header
      -- the body is made of the children, and these are lower than the block
      obtain ⟨n, hn⟩ := Nat.exists_eq_succ_of_ne_zero
        (Block.mk i t slots children).height_pos.ne'
      rw [hn, Nat.succ_eq_add_one, Code.height_loop_le]
      refine Block.height_codeAll_le_of fun p hp c hc => ?_
      have hpart : p ∈ (Block.mk i t slots children).parts := List.mem_append_right _ hp
      have hlow := Block.height_lt_of_mem_parts hpart
      have hcode := ih p hpart c hc
      omega
    have hcall : 1 ≤ (Block.mk i t slots children).height := Block.height_pos _
    intro c hc
    rw [Block.code] at hc
    cases hk : r.kind? t with
    | none =>
      rw [hk] at hc
      cases hc
    | some kind =>
      rw [hk] at hc
      cases kind
      all_goals simp only [Kind.code, List.not_mem_nil, List.mem_singleton] at hc
      all_goals subst hc
      -- a value gives no code; the other kinds give a call or a loop
      all_goals first | exact hcall | exact hbody _ _

theorem Block.height_codeAll_le (r : Registry) {bs : List (Block ι)} {n : Nat}
    (h : ∀ b ∈ bs, b.height ≤ n) : ∀ c ∈ Block.codeAll r bs, c.height ≤ n :=
  Block.height_codeAll_le_of fun b hb c hc => (Block.height_code_le r b c hc).trans (h b hb)

/-! ### Counts -/

theorem natAbs_readCount?_le {text : String} {n : Int} (h : readCount? text = some n) :
    n.natAbs ≤ countLimit := by
  unfold readCount? at h
  have hmin : ∀ a : Nat, min a countLimit ≤ countLimit := fun a => Nat.min_le_right a countLimit
  split at h
  rename_i negative rest _
  dsimp only at h
  split at h
  · cases h
  · obtain rfl := Option.some.inj h
    cases negative with
    | false => exact hmin _
    | true =>
      rw [if_pos rfl, Int.natAbs_neg]
      exact hmin _

theorem natAbs_repeatCount_le (text fallback : String) :
    (repeatCount text fallback).natAbs ≤ countLimit := by
  unfold repeatCount
  cases h : (readCount? text).or (readCount? fallback) with
  | none => exact Nat.zero_le _
  | some n =>
    rcases Option.or_eq_some_iff.mp h with h | ⟨-, h⟩
    · exact natAbs_readCount?_le h
    · exact natAbs_readCount?_le h

theorem Block.headers_code_fit_of {r : Registry} {bs : List (Block ι)}
    (h : ∀ b ∈ bs, ∀ header ∈ Code.headersAll (b.code r), header.Fits) :
    ∀ header ∈ Code.headersAll (Block.codeAll r bs), header.Fits := by
  induction bs with
  | nil => exact fun header hmem => absurd hmem List.not_mem_nil
  | cons b rest ih =>
    rw [Block.codeAll, Code.headersAll_append]
    exact List.forall_mem_append.mpr
      ⟨h b List.mem_cons_self, ih fun c hc => h c (List.mem_cons_of_mem b hc)⟩

/-- The counts of a tree are ones that texts stand for. -/
theorem Block.headers_code_fit (r : Registry) (b : Block ι) :
    ∀ header ∈ Code.headersAll (b.code r), header.Fits := by
  induction b using Block.induction with
  | step b ih =>
    obtain ⟨i, t, slots, children⟩ := b
    have hchildren := Block.headers_code_fit_of fun c hc => ih c (List.mem_append_right _ hc)
    rw [Block.code]
    cases r.kind? t with
    | none => exact fun header hmem => absurd hmem List.not_mem_nil
    | some kind =>
      cases kind with
      | «repeat» =>
        -- the only header that is made of a text
        have hheader : Header.Fits (.count (repeatCount
            ((Block.mk i t slots children).slotText r "input1")
            (Kind.defaultText .repeat "input1"))) := natAbs_repeatCount_le _ _
        exact List.forall_mem_append.mpr
          ⟨List.forall_mem_cons.mpr ⟨hheader, hchildren⟩, List.forall_mem_nil _⟩
      | forever =>
        exact List.forall_mem_append.mpr
          ⟨List.forall_mem_cons.mpr ⟨trivial, hchildren⟩, List.forall_mem_nil _⟩
      | _ => exact fun header hmem => absurd hmem List.not_mem_nil

theorem Block.headers_codeAll_fit (r : Registry) (bs : List (Block ι)) :
    ∀ header ∈ Code.headersAll (Block.codeAll r bs), header.Fits :=
  Block.headers_code_fit_of fun b _ => Block.headers_code_fit r b

end Blockwork
