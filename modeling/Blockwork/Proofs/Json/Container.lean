import Mathlib
import Blockwork.Proofs.Json.Layout
import Blockwork.Proofs.Json.Token

/-!
# Written arrays and objects are read back

An array is read back element by element (`reads_array`). The members of an object are read one
after the other, each changing what has been made of those before it; `TakesAll` is a chain of such
changes. From it come the laws of objects with arbitrary keys (`reads_map`) and of records
(`reads_record`).

The loops of the reader are bounded, and the bound suffices because an element takes at least one
byte (`Layout.length_le_length_content`).
-/

namespace Blockwork.Json.Reader

open Text (utf8 utf8_append utf8_cons)

variable {α β : Type} {L : Layout} {level : Nat}

/-! ### Between elements -/

/-- The closing byte of a container. -/
def Closes (closing : UInt8) : Prop :=
  closing = code ']' ∨ closing = code '\x7d'

theorem Closes.not_blank {closing : UInt8} (h : Closes closing) : isBlankByte closing = false := by
  rcases h with rfl | rfl <;> rfl

theorem Closes.ne_comma {closing : UInt8} (h : Closes closing) : closing ≠ code ',' := by
  rcases h with rfl | rfl <;> decide

/-- A value ends at a blank or where the container goes on or ends. -/
theorem ended_append {blanks : List UInt8} (hblanks : ∀ b ∈ blanks, isBlankByte b = true)
    {b : UInt8} (hb : b = code ',' ∨ Closes b) (rest : List UInt8) :
    Ended (blanks ++ b :: rest) := by
  intro c hc
  cases blanks with
  | nil =>
    obtain rfl := Option.some.inj hc
    exact Or.inr hb
  | cons d blanks =>
    obtain rfl := Option.some.inj hc
    exact Or.inl (hblanks _ List.mem_cons_self)

theorem ended_after {closing : UInt8} (h : Closes closing) (items : List (List UInt8))
    (rest : List UInt8) : Ended (L.after level closing items ++ rest) := by
  cases items with
  | nil =>
    rw [Layout.after, List.append_assoc]
    exact ended_append (L.blank_gap level) (Or.inr h) rest
  | cons item items =>
    intro b hb
    obtain rfl := Option.some.inj hb
    exact Or.inr (Or.inl rfl)

theorem Begins.ne {item : List UInt8} (h : Begins item) {closing : UInt8} (hc : Closes closing) :
    ∃ b bs, item = b :: bs ∧ isBlankByte b = false ∧ b ≠ closing := by
  obtain ⟨b, bs, rfl, hb, hbracket, hbrace⟩ := h
  rcases hc with rfl | rfl
  · exact ⟨b, bs, rfl, hb, hbracket⟩
  · exact ⟨b, bs, rfl, hb, hbrace⟩

theorem another_first {closing : UInt8} (hc : Closes closing) {blanks item : List UInt8}
    (hblanks : ∀ b ∈ blanks, isBlankByte b = true) (hitem : Begins item) (rest : List UInt8) :
    another closing true (blanks ++ (item ++ rest)) = .ok (true, item ++ rest) := by
  obtain ⟨b, bs, rfl, hb, hne⟩ := hitem.ne hc
  unfold another
  rw [List.cons_append, bind_ok (peek_ok hblanks hb _), if_neg hne]
  rfl

theorem another_next {closing : UInt8} (hc : Closes closing) {blanks item : List UInt8}
    (hblanks : ∀ b ∈ blanks, isBlankByte b = true) (hitem : Begins item) (rest : List UInt8) :
    another closing false (code ',' :: (blanks ++ (item ++ rest))) = .ok (true, item ++ rest) := by
  obtain ⟨b, bs, rfl, hb, hne⟩ := hitem.ne hc
  unfold another
  rw [bind_ok (peek_here rfl _), if_neg hc.ne_comma.symm, if_neg (by decide), if_pos rfl,
    bind_ok (drop_ok _ _), List.cons_append, bind_ok (peek_ok hblanks hb _), if_neg hne]
  rfl

theorem another_closing {closing : UInt8} (hc : Closes closing) (first : Bool)
    {blanks : List UInt8} (hblanks : ∀ b ∈ blanks, isBlankByte b = true) (rest : List UInt8) :
    another closing first (blanks ++ closing :: rest) = .ok (false, closing :: rest) := by
  unfold another
  rw [bind_ok (peek_ok hblanks hc.not_blank _), if_pos rfl]
  rfl

theorem another_nothing {closing : UInt8} (hc : Closes closing) (rest : List UInt8) :
    another closing true (closing :: rest) = .ok (false, closing :: rest) :=
  another_closing hc true (fun _ h => absurd h List.not_mem_nil) rest

/-! ### Arrays -/

theorem elements_after {element : Reader α} {vs : List Value} {as : List α}
    (h : List.Forall₂ (fun v a => Reads element (v.bytes L (level + 1)) a) vs as) {bound : Nat}
    (hbound : vs.length < bound) (rest : List UInt8) :
    elements element bound false
      (L.after level (code ']') (Value.bytesAll L (level + 1) vs) ++ rest) = .ok (as, rest) := by
  have hc : Closes (code ']') := Or.inl rfl
  induction h generalizing bound with
  | nil =>
    obtain ⟨bound, rfl⟩ := Nat.exists_eq_succ_of_ne_zero (Nat.ne_zero_of_lt hbound)
    rw [Value.bytesAll, Layout.after, List.append_assoc, List.singleton_append]
    unfold elements
    rw [bind_ok (another_closing hc false (L.blank_gap level) _), if_neg Bool.false_ne_true]
    rfl
  | @cons v a vs as hv _ ih =>
    obtain ⟨bound, rfl⟩ := Nat.exists_eq_succ_of_ne_zero (Nat.ne_zero_of_lt hbound)
    have hrest := ih (Nat.lt_of_succ_lt_succ hbound)
    rw [Value.bytesAll, Layout.after, List.cons_append, List.append_assoc, List.append_assoc]
    unfold elements
    rw [bind_ok (another_next hc (L.blank_gap _) hv.begins _), if_pos rfl,
      bind_ok (hv.here (ended_after hc _ rest)), bind_ok hrest]
    rfl

/-- **An array is read back.** -/
theorem reads_array {inner : Nat → Reader α} {room bound : Nat} {vs : List Value} {as : List α}
    (h : List.Forall₂ (fun v a => Reads (inner room) (v.bytes L (level + 1)) a) vs as)
    (hbound : vs.length < bound) :
    Reads (array bound (room + 1) inner) ((Value.array vs).bytes L level) as where
  begins := ⟨_, _, rfl, rfl, by decide, by decide⟩
  eq_ok blanks rest hblanks hrest := by
    have hc : Closes (code ']') := Or.inl rfl
    have helements : elements (inner room) bound true
        (L.content level (code ']') (Value.bytesAll L (level + 1) vs) ++ rest)
          = .ok (as, rest) := by
      obtain ⟨bound, rfl⟩ := Nat.exists_eq_succ_of_ne_zero (Nat.ne_zero_of_lt hbound)
      -- an empty array is closed at once; otherwise each element but the first has a comma in front
      cases h with
      | nil =>
        unfold elements
        rw [Value.bytesAll, Layout.content, List.singleton_append,
          bind_ok (another_nothing hc rest), if_neg Bool.false_ne_true]
        rfl
      | @cons v a vs as hv hvs =>
        rw [Value.bytesAll, Layout.content, List.append_assoc, List.append_assoc]
        unfold elements
        rw [bind_ok (another_first hc (L.blank_gap _) hv.begins _), if_pos rfl,
          bind_ok (hv.here (ended_after hc _ rest)),
          bind_ok (elements_after hvs (Nat.lt_of_succ_lt_succ hbound) rest)]
        rfl
    unfold array
    rw [Value.bytes, List.cons_append, bind_ok (peek_ok hblanks rfl _), if_pos rfl]
    dsimp only
    rw [bind_ok (drop_ok _ _)]
    exact helements

/-! ### Objects -/

/-- Reading the value of a member changes what has been made of the members before it. -/
def Takes (L : Layout) (level : Nat) (member : β → String → Reader β) (b : β) (m : String × Value)
    (b' : β) : Prop :=
  ∀ rest, Ended rest →
    member b m.1 (code ':' :: (L.space ++ (m.2.bytes L level ++ rest))) = .ok (b', rest)

/-- What the members make, one after the other. -/
inductive TakesAll (L : Layout) (level : Nat) (member : β → String → Reader β) :
    β → List (String × Value) → β → Prop
  | nil (b : β) : TakesAll L level member b [] b
  | cons {b b' b'' : β} {m : String × Value} {ms : List (String × Value)} :
    Takes L level member b m b' → TakesAll L level member b' ms b'' →
      TakesAll L level member b (m :: ms) b''

theorem TakesAll.append {member : β → String → Reader β} {b b' b'' : β}
    {ms ns : List (String × Value)} (h : TakesAll L level member b ms b')
    (h' : TakesAll L level member b' ns b'') : TakesAll L level member b (ms ++ ns) b'' := by
  induction h with
  | nil => exact h'
  | cons hm _ ih => exact .cons hm (ih h')

theorem member_append (key : String) (value rest : List UInt8) :
    L.member key value ++ rest = code '"' :: (utf8 (key.toList.flatMap escape) ++
      code '"' :: (code ':' :: (L.space ++ (value ++ rest)))) := by
  rw [Layout.member, quoteChars, utf8_cons, utf8_append]
  simp only [List.append_assoc, List.cons_append]
  rfl

theorem begins_member (key : String) (value : List UInt8) : Begins (L.member key value) := by
  have h := member_append (L := L) key value []
  rw [List.append_nil] at h
  exact ⟨_, _, h, rfl, by decide, by decide⟩

/-- A member and those behind it. -/
theorem members_cons {member : β → String → Reader β} {b b' b'' : β} {m : String × Value}
    {first : Bool} {bound : Nat} {s rest tail : List UInt8}
    (hanother : another (code '\x7d') first s
      = .ok (true, L.member m.1 (m.2.bytes L level) ++ tail))
    (hm : Takes L level member b m b') (htail : Ended tail)
    (hrest : members member bound false b' tail = .ok (b'', rest)) :
    members member (bound + 1) first b s = .ok (b'', rest) := by
  unfold members
  rw [bind_ok hanother, if_pos rfl, member_append, bind_ok (peek_here rfl _), if_pos rfl,
    bind_ok (drop_ok _ _), bind_ok (stringRest_ok _ _), bind_ok (hm tail htail)]
  exact hrest

theorem members_nil {member : β → String → Reader β} {b : β} {first : Bool} {bound : Nat}
    {s rest : List UInt8}
    (hanother : another (code '\x7d') first s = .ok (false, code '\x7d' :: rest)) :
    members member (bound + 1) first b s = .ok (b, rest) := by
  unfold members
  rw [bind_ok hanother, if_neg Bool.false_ne_true]
  rfl

theorem members_after {member : β → String → Reader β} {b b' : β} {ms : List (String × Value)}
    (h : TakesAll L (level + 1) member b ms b') {bound : Nat} (hbound : ms.length < bound)
    (rest : List UInt8) :
    members member bound false b
      (L.after level (code '\x7d') (Value.bytesOfMembers L (level + 1) ms) ++ rest)
      = .ok (b', rest) := by
  have hc : Closes (code '\x7d') := Or.inr rfl
  induction h generalizing bound with
  | nil =>
    obtain ⟨bound, rfl⟩ := Nat.exists_eq_succ_of_ne_zero (Nat.ne_zero_of_lt hbound)
    rw [Value.bytesOfMembers, Layout.after, List.append_assoc, List.singleton_append]
    exact members_nil (another_closing hc false (L.blank_gap level) rest)
  | @cons b b' b'' m ms hm _ ih =>
    obtain ⟨bound, rfl⟩ := Nat.exists_eq_succ_of_ne_zero (Nat.ne_zero_of_lt hbound)
    rw [Value.bytesOfMembers, Layout.after, List.cons_append, List.append_assoc,
      List.append_assoc]
    exact members_cons (another_next hc (L.blank_gap _) (begins_member m.1 _) _) hm
      (ended_after hc _ rest) (ih (Nat.lt_of_succ_lt_succ hbound))

/-- The members of an object, up to its end. -/
theorem members_content {member : β → String → Reader β} {b b' : β} {ms : List (String × Value)}
    (h : TakesAll L (level + 1) member b ms b') {bound : Nat} (hbound : ms.length < bound)
    (rest : List UInt8) :
    members member bound true b
      (L.content level (code '\x7d') (Value.bytesOfMembers L (level + 1) ms) ++ rest)
      = .ok (b', rest) := by
  have hc : Closes (code '\x7d') := Or.inr rfl
  obtain ⟨bound, rfl⟩ := Nat.exists_eq_succ_of_ne_zero (Nat.ne_zero_of_lt hbound)
  cases h with
  | nil => exact members_nil (another_nothing hc rest)
  | @cons b b' b'' m ms hm hms =>
    rw [Value.bytesOfMembers, Layout.content, List.append_assoc, List.append_assoc]
    exact members_cons (another_first hc (L.blank_gap _) (begins_member m.1 _) _) hm
      (ended_after hc _ rest) (members_after hms (Nat.lt_of_succ_lt_succ hbound) rest)

theorem colon_ok (rest : List UInt8) : colon (code ':' :: rest) = .ok ((), rest) := by
  unfold colon
  rw [bind_ok (peek_here rfl rest), if_pos rfl]
  rfl

/-! #### With arbitrary keys -/

theorem takesAll_put {inner : Reader α} {put : β → String → α → β} {ms : List (String × Value)}
    {as : List (String × α)}
    (h : List.Forall₂ (fun m a => m.1 = a.1 ∧ Reads inner (m.2.bytes L level) a.2) ms as) (b : β) :
    TakesAll L level (fun b key => do colon; return put b key (← inner)) b ms
      (as.foldl (fun b a => put b a.1 a.2) b) := by
  induction h generalizing b with
  | nil => exact .nil b
  | @cons m a ms as hm _ ih =>
    refine .cons (fun rest hrest => ?_) (ih _)
    rw [bind_ok (colon_ok _), bind_ok (hm.2.eq_ok L.space rest L.blank_space hrest), hm.1]
    rfl

/-- **An object with arbitrary keys is read back**: all its members are put, the first one first. -/
theorem reads_map {inner : Nat → Reader α} {room bound : Nat} {put : β → String → α → β}
    {ms : List (String × Value)} {as : List (String × α)}
    (h : List.Forall₂ (fun m a => m.1 = a.1 ∧ Reads (inner room) (m.2.bytes L (level + 1)) a.2)
      ms as)
    (hbound : ms.length < bound) (empty : β) :
    Reads (map bound (room + 1) inner empty put) ((Value.object ms).bytes L level)
      (as.foldl (fun b a => put b a.1 a.2) empty) where
  begins := ⟨_, _, rfl, rfl, by decide, by decide⟩
  eq_ok blanks rest hblanks hrest := by
    unfold map
    rw [Value.bytes, List.cons_append, bind_ok (peek_ok hblanks rfl _), if_pos rfl]
    dsimp only
    rw [bind_ok (drop_ok _ _)]
    exact members_content (takesAll_put h empty) hbound rest

/-! #### Records -/

/-- A field of a record takes its value, unless it has one. -/
theorem takes_field {bound room : Nat} {fields : List (RecordField β)} {field : RecordField β}
    {b b' : β} {key : String} {v : Value} (hfind : fields.find? (·.key = key) = some field)
    (hset : field.isSet b = false) (hread : Reads (field.read room b) (v.bytes L level) b') :
    Takes L level (fieldValue bound room fields) b (key, v) b' := by
  intro rest hrest
  unfold fieldValue
  rw [hfind]
  dsimp only
  rw [hset, if_neg Bool.false_ne_true, bind_ok (colon_ok _)]
  exact hread.eq_ok L.space rest L.blank_space hrest

/-- **A record is read back** from the members of an object, if these leave no field open that has
no default. -/
theorem reads_record {bound room : Nat} {fields : List (RecordField β)} {start b : β}
    {ms : List (String × Value)}
    (h : TakesAll L (level + 1) (fieldValue bound room fields) start ms b)
    (hbound : ms.length < bound) (hset : (fields.all fun f => f.hasDefault || f.isSet b) = true) :
    Reads (record bound (room + 1) fields start) ((Value.object ms).bytes L level) b where
  begins := ⟨_, _, rfl, rfl, by decide, by decide⟩
  eq_ok blanks rest hblanks hrest := by
    unfold record
    rw [Value.bytes, List.cons_append, bind_ok (peek_ok hblanks rfl _)]
    dsimp only
    rw [if_pos rfl, bind_ok (drop_ok _ _), bind_ok (members_content h hbound rest), if_pos hset]
    rfl

/-! ### Whole texts -/

/-- A value with nothing behind it. -/
theorem whole_ok {value : Nat → Reader α} {bytes : List UInt8} {a : α}
    (h : Reads (value (bytes.length + 1)) bytes a) : whole value bytes = .ok a := by
  have hended : Ended [] := fun _ hb => absurd hb (Option.not_mem_none _)
  have hread := h.here hended
  rw [List.append_nil] at hread
  unfold whole
  change (value (bytes.length + 1) bytes >>= _) = _
  rw [hread]
  rfl

end Blockwork.Json.Reader
