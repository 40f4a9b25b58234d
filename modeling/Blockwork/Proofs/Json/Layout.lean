import Mathlib
import Blockwork.Json.Reading
import Blockwork.Json.Value
import Blockwork.Proofs.Text.Bytes

/-!
# Layouts of JSON texts

The texts of a value differ only in the blank characters between their tokens: there are none, or
each element has a line of its own. A `Layout` says which blank bytes stand where, `Value.bytes` is
the text of a value in a layout, and the two texts that are written are those of the layouts
`Layout.dense` and `Layout.lines` (`Value.utf8_compact`, `Value.utf8_indented`). What is proved of
the reader for all layouts therefore holds for both.
-/

namespace Blockwork.Json

open Text (utf8 utf8_cons utf8_append)

/-- Which blank bytes stand between the tokens of a text. -/
structure Layout where
  /-- Before each element, and before the closing byte, which is at the level outside. -/
  gap : (level : Nat) → List UInt8
  /-- Between the colon of a member and its value. -/
  space : List UInt8
  blank_gap : ∀ level, ∀ b ∈ gap level, isBlankByte b = true
  blank_space : ∀ b ∈ space, isBlankByte b = true

namespace Layout

/-- Behind the first element or the opening byte, up to the closing byte of the level outside. -/
def after (L : Layout) (level : Nat) (closing : UInt8) : List (List UInt8) → List UInt8
  | [] => L.gap level ++ [closing]
  | item :: items => code ',' :: (L.gap (level + 1) ++ (item ++ after L level closing items))

/-- What stands behind the opening byte of a container at a level. -/
def content (L : Layout) (level : Nat) (closing : UInt8) : List (List UInt8) → List UInt8
  | [] => [closing]
  | item :: items => L.gap (level + 1) ++ (item ++ L.after level closing items)

/-- A member of an object. -/
def member (L : Layout) (key : String) (value : List UInt8) : List UInt8 :=
  utf8 (quoteChars key.toList) ++ code ':' :: (L.space ++ value)

/-- No blanks at all. -/
def dense : Layout where
  gap _ := []
  space := []
  blank_gap _ _ h := absurd h List.not_mem_nil
  blank_space _ h := absurd h List.not_mem_nil

theorem blank_newLine (level : Nat) : ∀ b ∈ utf8 (Value.newLine level), isBlankByte b = true := by
  intro b hb
  obtain ⟨c, hc, hb⟩ := List.mem_flatMap.mp hb
  rcases List.mem_cons.mp hc with rfl | hc
  · obtain rfl := List.mem_singleton.mp hb
    rfl
  · obtain rfl := List.eq_of_mem_replicate hc
    obtain rfl := List.mem_singleton.mp hb
    rfl

/-- A line for each element, moved in by two blanks for each level. -/
def lines : Layout where
  gap level := utf8 (Value.newLine level)
  space := [code ' ']
  blank_gap := blank_newLine
  blank_space _ h := by
    obtain rfl := List.mem_singleton.mp h
    rfl

/-- Each element takes a byte behind the first one, and so does the closing byte. -/
theorem length_lt_length_after (L : Layout) (level : Nat) (closing : UInt8)
    (items : List (List UInt8)) : items.length < (L.after level closing items).length := by
  induction items with
  | nil => rw [after, List.length_append]; simp
  | cons item items ih => simp only [after, List.length_cons, List.length_append]; omega

theorem length_le_length_content (L : Layout) (level : Nat) (closing : UInt8)
    (items : List (List UInt8)) : items.length ≤ (L.content level closing items).length := by
  cases items with
  | nil => exact Nat.zero_le _
  | cons item items =>
    have h := L.length_lt_length_after level closing items
    simp only [content, List.length_cons, List.length_append]
    omega

theorem length_le_length_after (L : Layout) (level : Nat) (closing : UInt8)
    {items : List (List UInt8)} {item : List UInt8} (h : item ∈ items) :
    item.length ≤ (L.after level closing items).length := by
  induction items with
  | nil => cases h
  | cons first items ih =>
    simp only [after, List.length_cons, List.length_append]
    rcases List.mem_cons.mp h with rfl | h
    · omega
    · have := ih h
      omega

/-- An element is no longer than the content. -/
theorem length_le_of_mem (L : Layout) (level : Nat) (closing : UInt8)
    {items : List (List UInt8)} {item : List UInt8} (h : item ∈ items) :
    item.length ≤ (L.content level closing items).length := by
  cases items with
  | nil => cases h
  | cons first items =>
    simp only [content, List.length_append]
    rcases List.mem_cons.mp h with rfl | h
    · omega
    · have := L.length_le_length_after level closing h
      omega

theorem length_le_length_member (L : Layout) (key : String) (value : List UInt8) :
    value.length ≤ (L.member key value).length := by
  simp only [member, List.length_append, List.length_cons]
  omega

end Layout

namespace Value

mutual

/-- The bytes of a value at a level. -/
def bytes (L : Layout) (level : Nat) : Value → List UInt8
  | integer n => utf8 (toString n).toList
  | text s => utf8 (quoteChars s.toList)
  | array vs => code '[' :: L.content level (code ']') (bytesAll L (level + 1) vs)
  | object ms => code '{' :: L.content level (code '}') (bytesOfMembers L (level + 1) ms)

def bytesAll (L : Layout) (level : Nat) : List Value → List (List UInt8)
  | [] => []
  | v :: vs => bytes L level v :: bytesAll L level vs

def bytesOfMembers (L : Layout) (level : Nat) : List (String × Value) → List (List UInt8)
  | [] => []
  | (key, v) :: ms => L.member key (bytes L level v) :: bytesOfMembers L level ms

end

theorem bytesAll_eq (L : Layout) (level : Nat) (vs : List Value) :
    bytesAll L level vs = vs.map (bytes L level) := by
  induction vs with
  | nil => rfl
  | cons v vs ih => rw [bytesAll, ih, List.map_cons]

theorem bytesOfMembers_eq (L : Layout) (level : Nat) (ms : List (String × Value)) :
    bytesOfMembers L level ms = ms.map fun m => L.member m.1 (bytes L level m.2) := by
  induction ms with
  | nil => rfl
  | cons m ms ih => rw [bytesOfMembers, ih, List.map_cons]

/-! ### Lengths

A container is longer than what is in it, and has more bytes than elements. -/

section Lengths

variable (L : Layout) (level : Nat)

theorem length_lt_array (vs : List Value) : vs.length < ((array vs).bytes L level).length := by
  have h := L.length_le_length_content level (code ']') (bytesAll L (level + 1) vs)
  rw [bytesAll_eq, List.length_map, ← bytesAll_eq] at h
  exact Nat.lt_succ_of_le h

theorem length_lt_object (ms : List (String × Value)) :
    ms.length < ((object ms).bytes L level).length := by
  have h := L.length_le_length_content level (code '\x7d') (bytesOfMembers L (level + 1) ms)
  rw [bytesOfMembers_eq, List.length_map, ← bytesOfMembers_eq] at h
  exact Nat.lt_succ_of_le h

theorem length_lt_of_mem_array {vs : List Value} {v : Value} (h : v ∈ vs) :
    (v.bytes L (level + 1)).length < ((array vs).bytes L level).length := by
  have hmem : v.bytes L (level + 1) ∈ bytesAll L (level + 1) vs := by
    rw [bytesAll_eq]
    exact List.mem_map_of_mem h
  exact Nat.lt_succ_of_le (L.length_le_of_mem level _ hmem)

theorem length_lt_of_mem_object {ms : List (String × Value)} {m : String × Value} (h : m ∈ ms) :
    (m.2.bytes L (level + 1)).length < ((object ms).bytes L level).length := by
  have hmem : L.member m.1 (m.2.bytes L (level + 1)) ∈ bytesOfMembers L (level + 1) ms := by
    rw [bytesOfMembers_eq]
    exact List.mem_map_of_mem h
  exact Nat.lt_succ_of_le ((L.length_le_length_member _ _).trans (L.length_le_of_mem level _ hmem))

end Lengths

/-! ### The text without blanks -/

/-- **Induction over values.** -/
theorem induction {motive : Value → Prop} (integer : ∀ n, motive (.integer n))
    (text : ∀ s, motive (.text s)) (array : ∀ vs, (∀ v ∈ vs, motive v) → motive (.array vs))
    (object : ∀ ms : List (String × Value), (∀ m ∈ ms, motive m.2) → motive (.object ms)) :
    ∀ v : Value, motive v
  | .integer n => integer n
  | .text s => text s
  | .array vs => array vs fun v _ => induction integer text array object v
  | .object ms => object ms fun m hm =>
    have : sizeOf m.2 < sizeOf ms := by
      have := List.sizeOf_lt_of_mem hm
      obtain ⟨key, v⟩ := m
      rw [Prod.mk.sizeOf_spec] at this
      change sizeOf v < sizeOf ms
      omega
    induction integer text array object m.2

theorem utf8_compactElements {level : Nat} {v : Value} {vs : List Value}
    (h : ∀ w ∈ v :: vs, utf8 w.compact = w.bytes .dense (level + 1)) :
    utf8 (compactElements (v :: vs)) ++ [code ']']
      = Layout.dense.content level (code ']') (bytesAll .dense (level + 1) (v :: vs)) := by
  induction vs generalizing v with
  | nil => rw [compactElements, h v List.mem_cons_self]; rfl
  | cons w vs ih =>
    have hrest := ih fun u hu => h u (List.mem_cons_of_mem v hu)
    rw [compactElements, utf8_append, utf8_cons, h v List.mem_cons_self, List.append_assoc,
      List.append_assoc, hrest]
    · rfl
    · exact List.cons_ne_nil w vs

theorem utf8_compactMembers {level : Nat} {m : String × Value} {ms : List (String × Value)}
    (h : ∀ n ∈ m :: ms, utf8 n.2.compact = n.2.bytes .dense (level + 1)) :
    utf8 (compactMembers (m :: ms)) ++ [code '\x7d']
      = Layout.dense.content level (code '\x7d') (bytesOfMembers .dense (level + 1) (m :: ms)) := by
  induction ms generalizing m with
  | nil =>
    obtain ⟨key, v⟩ := m
    rw [compactMembers, utf8_append, utf8_cons, h (key, v) List.mem_cons_self]
    rfl
  | cons n ms ih =>
    obtain ⟨key, v⟩ := m
    -- the induction is over the members behind the first: a comma stands in front of these only
    have hrest := ih fun u hu => h u (List.mem_cons_of_mem _ hu)
    rw [compactMembers, utf8_append, utf8_cons, utf8_append, utf8_cons,
      h (key, v) List.mem_cons_self]
    · rw [bytesOfMembers, Layout.content, Layout.member]
      simp only [List.append_assoc, hrest]
      rfl
    · exact List.cons_ne_nil n ms

/-- **The text without blanks** is that of the dense layout. -/
theorem utf8_compact (v : Value) (level : Nat) : utf8 v.compact = v.bytes .dense level := by
  induction v using Value.induction generalizing level with
  | integer n => rfl
  | text s => rfl
  | array vs ih =>
    cases vs with
    | nil => rfl
    | cons v vs =>
      rw [compact, utf8_cons, utf8_append, bytes]
      exact congrArg (code '[' :: ·) (utf8_compactElements fun w hw => ih w hw (level + 1))
  | object ms ih =>
    cases ms with
    | nil => rfl
    | cons m ms =>
      rw [compact, utf8_cons, utf8_append, bytes]
      exact congrArg (code '\x7b' :: ·) (utf8_compactMembers fun w hw => ih w hw (level + 1))

/-! ### The text with lines -/

theorem utf8_indentedElements {level : Nat} {v : Value} {vs : List Value}
    (h : ∀ w ∈ v :: vs, utf8 (w.indented (level + 1)) = w.bytes .lines (level + 1)) :
    utf8 (indentedElements (level + 1) (v :: vs)) ++ (utf8 (newLine level) ++ [code ']'])
      = Layout.lines.content level (code ']') (bytesAll .lines (level + 1) (v :: vs)) := by
  induction vs generalizing v with
  | nil =>
    rw [indentedElements, utf8_append, h v List.mem_cons_self, List.append_assoc]
    rfl
  | cons w vs ih =>
    have hrest := ih fun u hu => h u (List.mem_cons_of_mem v hu)
    rw [indentedElements, utf8_append, utf8_append, utf8_cons, h v List.mem_cons_self,
      List.append_assoc, List.append_assoc, List.append_assoc, hrest]
    · rfl
    · exact List.cons_ne_nil w vs

theorem utf8_indentedMembers {level : Nat} {m : String × Value} {ms : List (String × Value)}
    (h : ∀ n ∈ m :: ms, utf8 (n.2.indented (level + 1)) = n.2.bytes .lines (level + 1)) :
    utf8 (indentedMembers (level + 1) (m :: ms)) ++ (utf8 (newLine level) ++ [code '\x7d'])
      = Layout.lines.content level (code '\x7d') (bytesOfMembers .lines (level + 1) (m :: ms)) := by
  induction ms generalizing m with
  | nil =>
    obtain ⟨key, v⟩ := m
    rw [indentedMembers, utf8_append, utf8_append, utf8_cons, utf8_cons,
      h (key, v) List.mem_cons_self, bytesOfMembers, Layout.content, Layout.member]
    simp only [List.append_assoc]
    rfl
  | cons n ms ih =>
    obtain ⟨key, v⟩ := m
    have hrest := ih fun u hu => h u (List.mem_cons_of_mem _ hu)
    rw [indentedMembers, utf8_append, utf8_append, utf8_cons, utf8_cons, utf8_append, utf8_cons,
      h (key, v) List.mem_cons_self]
    · rw [bytesOfMembers, Layout.content, Layout.member]
      simp only [List.append_assoc, hrest]
      rfl
    · exact List.cons_ne_nil n ms

/-- **The text with lines** is that of the layout of lines. -/
theorem utf8_indented (v : Value) (level : Nat) :
    utf8 (v.indented level) = v.bytes .lines level := by
  induction v using Value.induction generalizing level with
  | integer n => rfl
  | text s => rfl
  | array vs ih =>
    cases vs with
    | nil => rfl
    | cons v vs =>
      rw [indented, utf8_cons, utf8_append, utf8_append, List.append_assoc, bytes]
      exact congrArg (code '[' :: ·) (utf8_indentedElements fun w hw => ih w hw (level + 1))
  | object ms ih =>
    cases ms with
    | nil => rfl
    | cons m ms =>
      rw [indented, utf8_cons, utf8_append, utf8_append, List.append_assoc, bytes]
      exact congrArg (code '\x7b' :: ·) (utf8_indentedMembers fun w hw => ih w hw (level + 1))

end Value

end Blockwork.Json
