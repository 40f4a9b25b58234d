import Mathlib
import Blockwork.Proofs.Block.Sorted
import Blockwork.Proofs.Json.Container
import Blockwork.Proofs.Snapshot.Reloading
import Blockwork.Snapshot.Reading

/-!
# Encodings of snapshots lose nothing

A snapshot is written as JSON in one of two layouts, or as a share token, and is read back from each
as it was (`Snapshot.encodings_lossless`). The reader takes the members of an object in the order in
which they are written, and those that were left out because they are empty come back by default. A
reporter in a slot takes three levels of nesting, so the limit of the reader leaves room for every
height that a block may have (`Snapshot.height_room`).

Slots and assets are lists here that stand for maps. The lists of a snapshot are in the order of
their names (`Snapshot.Ordered`), which is the order in which they are written and read.
-/

namespace Blockwork

open Json Json.Reader

variable {ι β : Type}

/-! ### Order of names -/

/-- The slots of every block and the assets are in the order of their names, and no two of them have
one name: the lists are those of maps. -/
structure Snapshot.Ordered (s : Snapshot) : Prop where
  slots : ∀ r ∈ s.roots, r.block.Sorted
  assets : Snapshot.Ascending s.assets

namespace Snapshot

theorem putNamed_of_forall_lt {name : String} {value : β} {pairs : List (String × β)}
    (h : ∀ p ∈ pairs, p.1 < name) : putNamed name value pairs = pairs ++ [(name, value)] := by
  induction pairs with
  | nil => rfl
  | cons p rest ih =>
    obtain ⟨hp, hrest⟩ := List.forall_mem_cons.mp h
    rw [putNamed, if_pos hp, ih hrest, List.cons_append]

/-- Pairs that are put in their order come out as they were. -/
theorem foldl_putNamed {pairs : List (String × β)} (front : List (String × β))
    (h : Ascending (front ++ pairs)) :
    pairs.foldl (fun pairs p => putNamed p.1 p.2 pairs) front = front ++ pairs := by
  induction pairs generalizing front with
  | nil => rw [List.append_nil]; rfl
  | cons p rest ih =>
    have hlt : ∀ q ∈ front, q.1 < p.1 :=
      fun q hq => (List.pairwise_append.mp h).2.2 q hq p List.mem_cons_self
    rw [List.foldl_cons, putNamed_of_forall_lt hlt, ih, List.append_assoc, List.singleton_append]
    rwa [List.append_assoc]

end Snapshot

/-! ### Blocks -/

/-- What is in the slot, for a slot of any name. -/
def Slot.renamed : Slot β → String → Slot β
  | .literal _ text, name => .literal name text
  | .reporter _ b, name => .reporter name b

theorem Slot.renamed_name (s : Slot β) : s.renamed s.name = s := by
  cases s <;> rfl

/-- The members of a block in JSON. -/
def Block.members (t : String) (slots : List (Slot (Block ι))) (children : List (Block ι)) :
    List (String × Value) :=
  ("type", .text t) ::
    ((if slots.isEmpty then [] else
      [("slots", .object (slots.map fun s => (s.map toJson).toMember))]) ++
      (if children.isEmpty then [] else [("children", .array (children.map toJson))]))

theorem Block.toJson_mk (i : ι) (t : String) (slots : List (Slot (Block ι)))
    (children : List (Block ι)) :
    (Block.mk i t slots children).toJson = .object (members t slots children) := by
  rw [toJson, fold_mk, List.isEmpty_map, List.isEmpty_map, List.map_map]
  rfl

namespace Snapshot

variable {L : Layout} {level bound room : Nat}

/-- What is in a slot is read back. -/
theorem reads_slot {block : Nat → Reader (Block Unit)} {s : Slot (Block Unit)}
    (h : ∀ b, s.block? = some b → Reads (block room) (b.toJson.bytes L (level + 1)) b) :
    Reads (blockFields.slot block (room + 1)) ((s.map Block.toJson).toMember.2.bytes L level)
      s.renamed := by
  -- a slot is an object with one member, whose key says what the value is
  obtain ⟨key, v, hobject⟩ : ∃ key v, (s.map Block.toJson).toMember.2 = .object [(key, v)] := by
    cases s <;> exact ⟨_, _, rfl⟩
  rw [hobject]
  refine ⟨⟨_, _, rfl, rfl, by decide, by decide⟩, fun blanks rest hblanks hrest => ?_⟩
  have hclose : Ended (L.gap level ++ code '\x7d' :: rest) :=
    ended_append (L.blank_gap level) (Or.inr (Or.inr rfl)) rest
  have hbytes : (Value.object [(key, v)]).bytes L level ++ rest
      = code '\x7b' :: (L.gap (level + 1) ++ code '"' :: (Text.utf8 (key.toList.flatMap escape) ++
        code '"' :: (code ':' :: (L.space ++ (v.bytes L (level + 1) ++
          (L.gap level ++ code '\x7d' :: rest)))))) := by
    rw [Value.bytes, Value.bytesOfMembers, Value.bytesOfMembers, Layout.content, Layout.after,
      List.cons_append, List.append_assoc, List.append_assoc, member_append, List.append_assoc]
    rfl
  unfold blockFields.slot
  rw [hbytes, bind_ok (peek_ok hblanks rfl _), if_neg (by decide), if_neg (by decide)]
  dsimp only
  rw [bind_ok (drop_ok _ _), bind_ok (peek_ok (L.blank_gap (level + 1)) rfl _), if_neg (by decide),
    bind_ok (string_here key _)]
  cases s with
  | literal name text =>
    obtain ⟨rfl, rfl⟩ : key = "literal" ∧ v = .text text := by
      simpa [Slot.map, Slot.toMember, eq_comm] using hobject
    rw [if_pos rfl, bind_ok (colon_ok _),
      bind_ok ((reads_string L (level + 1) text).eq_ok L.space _ L.blank_space hclose), pure_bind,
      bind_ok (peek_ok (L.blank_gap level) rfl rest)]
    rfl
  | reporter name b =>
    obtain ⟨rfl, rfl⟩ : key = "reporter" ∧ v = b.toJson := by
      simpa [Slot.map, Slot.toMember, eq_comm] using hobject
    rw [if_neg (by decide), if_pos rfl, bind_ok (colon_ok _),
      bind_ok ((h b rfl).eq_ok L.space _ L.blank_space hclose), pure_bind,
      bind_ok (peek_ok (L.blank_gap level) rfl rest)]
    rfl

/-- What has been read of a block at its end. -/
def partsOf : Block Unit → BlockParts
  | .mk _ type slots children =>
    ⟨some type, if slots.isEmpty then none else some slots,
      if children.isEmpty then none else some children⟩

theorem reads_slots {block : Nat → Reader (Block Unit)} {slots : List (Slot (Block Unit))}
    (hsorted : slots.Pairwise fun s t => s.name < t.name)
    (hblocks : ∀ b ∈ Slots.blocks slots, Reads (block room) (b.toJson.bytes L (level + 2)) b)
    (hbound : slots.length < bound) :
    Reads (map bound (room + 2) (blockFields.slot block) []
        fun slots name make => Slots.put (make name) slots)
      ((Value.object (slots.map fun s => (s.map Block.toJson).toMember)).bytes L level) slots := by
  have hmembers : List.Forall₂ (fun m (a : String × (String → Slot (Block Unit))) =>
      m.1 = a.1 ∧ Reads (blockFields.slot block (room + 1)) (m.2.bytes L (level + 1)) a.2)
      (slots.map fun s => (s.map Block.toJson).toMember)
      (slots.map fun s => (s.name, s.renamed)) := by
    rw [List.forall₂_map_left_iff, List.forall₂_map_right_iff, List.forall₂_same]
    intro s hs
    refine ⟨by cases s <;> rfl, reads_slot fun b hb => hblocks b ?_⟩
    exact List.mem_filterMap.mpr ⟨s, hs, hb⟩
  have hread : Reads (map bound (room + 2) (blockFields.slot block) []
        fun slots name make => Slots.put (make name) slots)
      ((Value.object (slots.map fun s => (s.map Block.toJson).toMember)).bytes L level)
      ((slots.map fun s => (s.name, s.renamed)).foldl
        (fun slots p => Slots.put (p.2 p.1) slots) []) :=
    reads_map hmembers (by rwa [List.length_map]) []
  -- the names ascend, so each slot is put behind those that are there
  have hput : (slots.map fun s => (s.name, s.renamed)).foldl
      (fun slots p => Slots.put (p.2 p.1) slots) [] = slots := by
    simp only [List.foldl_map, Slot.renamed_name]
    exact Slots.foldl_put [] hsorted
  rwa [hput] at hread

theorem length_reporter_lt (L : Layout) (level : Nat) {slots : List (Slot (Block Unit))}
    {b : Block Unit} (h : b ∈ Slots.blocks slots) :
    (b.toJson.bytes L (level + 2)).length
      < ((Value.object (slots.map fun s => (s.map Block.toJson).toMember)).bytes L
          level).length := by
  obtain ⟨n, hn⟩ := Slots.mem_blocks.mp h
  have hinner : ("reporter", b.toJson) ∈ [("reporter", b.toJson)] := List.mem_cons_self
  have houter : (n, Value.object [("reporter", b.toJson)])
      ∈ slots.map fun s => (s.map Block.toJson).toMember := List.mem_map.mpr ⟨_, hn, rfl⟩
  exact (Value.length_lt_of_mem_object L (level + 1) hinner).trans
    (Value.length_lt_of_mem_object L level houter)

/-- The members of a block are read back, given how its slots and its children are. -/
theorem takesAll_members {block : Nat → Reader (Block Unit)} (t : String)
    {slots : List (Slot (Block Unit))} {children : List (Block Unit)}
    (hslots : slots ≠ [] → Reads (map bound (room + 2) (blockFields.slot block) []
        fun slots name make => Slots.put (make name) slots)
      ((Value.object (slots.map fun s => (s.map Block.toJson).toMember)).bytes L level) slots)
    (hchildren : children ≠ [] → Reads (array bound (room + 2) block)
      ((Value.array (children.map Block.toJson)).bytes L level) children) :
    TakesAll L level (fieldValue bound (room + 2) (blockFields bound block)) ⟨none, none, none⟩
      (Block.members t slots children) (partsOf (.mk () t slots children)) := by
  have htype : Takes L level (fieldValue bound (room + 2) (blockFields bound block))
      ⟨none, none, none⟩ ("type", .text t) ⟨some t, none, none⟩ :=
    takes_field rfl rfl ((reads_string L level t).pure_bind _)
  have hslotsTaken : TakesAll L level (fieldValue bound (room + 2) (blockFields bound block))
      ⟨some t, none, none⟩
      (if slots.isEmpty then [] else
        [("slots", .object (slots.map fun s => (s.map Block.toJson).toMember))])
      ⟨some t, if slots.isEmpty then none else some slots, none⟩ := by
    split
    · exact .nil _
    · next hne =>
      have hread := hslots (mt List.isEmpty_iff.mpr hne)
      exact .cons (takes_field rfl rfl (hread.pure_bind _)) (.nil _)
  have hchildrenTaken : ∀ slots, TakesAll L level
      (fieldValue bound (room + 2) (blockFields bound block)) ⟨some t, slots, none⟩
      (if children.isEmpty then [] else [("children", .array (children.map Block.toJson))])
      ⟨some t, slots, if children.isEmpty then none else some children⟩ := by
    intro slots
    split
    · exact .nil _
    · next hne =>
      have hread := hchildren (mt List.isEmpty_iff.mpr hne)
      exact .cons (takes_field rfl rfl (hread.pure_bind _)) (.nil _)
  exact .cons htype (hslotsTaken.append (hchildrenTaken _))

/-- **A block is read back**, with any room that is three times its height. -/
theorem reads_block (b : Block Unit) {levels : Nat} (hsorted : b.Sorted)
    (hlevels : b.height ≤ levels) (hroom : 3 * b.height ≤ room)
    (hbound : (b.toJson.bytes L level).length ≤ bound) :
    Reads (Snapshot.block bound levels room) (b.toJson.bytes L level) b := by
  induction b using Block.induction generalizing levels room level with
  | step b ih =>
    obtain ⟨i, t, slots, children⟩ := b
    obtain ⟨hslots, hparts⟩ := Block.sorted_iff.mp hsorted
    have hpos := (Block.mk i t slots children).height_pos
    obtain ⟨levels, rfl⟩ := Nat.exists_eq_succ_of_ne_zero (by omega : levels ≠ 0)
    obtain ⟨room, rfl⟩ := Nat.exists_eq_add_of_le' (by omega : 3 ≤ room)
    have hpart : ∀ p ∈ (Block.mk i t slots children).parts,
        p.height ≤ levels ∧ 3 * p.height ≤ room := by
      intro p hp
      have := Block.height_lt_of_mem_parts hp
      omega
    rw [Block.toJson_mk] at hbound ⊢
    -- the bytes of a member are fewer than those of the block
    have hmember : ∀ m ∈ Block.members t slots children,
        (m.2.bytes L (level + 1)).length < bound :=
      fun m hm => (Value.length_lt_of_mem_object L level hm).trans_le hbound
    have htaken : TakesAll L (level + 1)
        (fieldValue bound (room + 2) (blockFields bound (Snapshot.block bound levels)))
        ⟨none, none, none⟩ (Block.members t slots children)
        (partsOf (.mk () t slots children)) := by
      refine takesAll_members t (fun hne => ?_) (fun hne => ?_)
      · have hlt := hmember ("slots", .object (slots.map fun s => (s.map Block.toJson).toMember))
          (by simp [Block.members, hne])
        have hcount := Value.length_lt_object L (level + 1)
          (slots.map fun s => (s.map Block.toJson).toMember)
        rw [List.length_map] at hcount
        refine reads_slots hslots (fun b hb => ?_) (hcount.trans hlt)
        have hb' : b ∈ (Block.mk i t slots children).parts := List.mem_append_left _ hb
        have hshort := length_reporter_lt L (level + 1) hb
        exact ih b hb' (hparts b hb') (hpart b hb').1 (hpart b hb').2 (hshort.trans hlt).le
      · have hlt := hmember ("children", .array (children.map Block.toJson))
          (by simp [Block.members, hne])
        have hcount := Value.length_lt_array L (level + 1) (children.map Block.toJson)
        refine reads_array ?_ (hcount.trans hlt)
        rw [List.forall₂_map_left_iff, List.forall₂_same]
        intro b hb
        have hb' : b ∈ (Block.mk i t slots children).parts := List.mem_append_right _ hb
        have hmem : b.toJson ∈ children.map Block.toJson := List.mem_map_of_mem hb
        have hshort := Value.length_lt_of_mem_array L (level + 1) hmem
        have hroom := (hpart b hb').2
        exact ih b hb' (hparts b hb') (hpart b hb').1 (by omega) (hshort.trans hlt).le
    have hcount : (Block.members t slots children).length < bound :=
      (Value.length_lt_object L level _).trans_le hbound
    have hvalue : Block.mk i t slots children
        = (fun p : BlockParts =>
            Block.mk () (p.type.getD "") (p.slots.getD []) (p.children.getD []))
          (partsOf (.mk () t slots children)) := by
      cases slots <;> cases children <;> rfl
    rw [hvalue]
    exact (reads_record htaken hcount rfl).pure_bind _

/-! ### Roots and snapshots -/

/-- A coordinate is an integer of 64 bits. -/
theorem reads_coordinate (x : Int64) :
    Reads coordinate ((Value.integer x.toInt).bytes L level) x := by
  have hmin := Int64.le_toInt x
  have hmax := Int64.toInt_lt x
  have hleast : Int64.minValue.toInt = -2 ^ 63 := by decide
  have hgreatest : Int64.maxValue.toInt = 2 ^ 63 - 1 := by decide
  have hlimit : 2 ^ 63 ≤ significandLimit := by decide
  have hread : Reads (integer Int64.minValue.toInt Int64.maxValue.toInt)
      ((Value.integer x.toInt).bytes L level) x.toInt :=
    reads_integer L level (by omega) (by omega) (by omega) (by omega)
  have hvalue := hread.pure_bind Int64.ofInt
  rwa [Int64.ofInt_toInt] at hvalue

theorem reads_root {r : Root Unit} (hsorted : r.block.Sorted)
    (hheight : r.block.height ≤ containerLimit + 1) (hroom : 3 * r.block.height ≤ room)
    (hbound : (r.toJson.bytes L level).length ≤ bound) :
    Reads (root bound (room + 1)) (r.toJson.bytes L level) r := by
  obtain ⟨x, y, b⟩ := r
  have hmem : ("block", b.toJson) ∈ [("x", Value.integer x.toInt), ("y", .integer y.toInt),
    ("block", b.toJson)] := by simp
  -- the bytes of a member are among those of the object, so the bound is enough for it
  have hshort := (Value.length_lt_of_mem_object L level hmem).trans_le hbound
  have hblock : Reads (block bound (containerLimit + 1) room) (b.toJson.bytes L (level + 1)) b :=
    reads_block b hsorted hheight hroom hshort.le
  have hcount := (Value.length_lt_object L level _).trans_le hbound
  unfold root
  refine Reads.pure_bind (a := (⟨some x, some y, some b⟩ : RootParts))
    (reads_record ?_ hcount rfl) _
  refine .cons (takes_field rfl rfl ((reads_coordinate x).pure_bind _)) ?_
  refine .cons (takes_field rfl rfl ((reads_coordinate y).pure_bind _)) ?_
  exact .cons (takes_field rfl rfl (hblock.pure_bind _)) (.nil _)

theorem reads_version (version : UInt32) (p : Parts) :
    Reads (do
        return { p with version := some (UInt32.ofNat (← integer 0 (UInt32.size - 1)).toNat) })
      ((Value.integer version.toNat).bytes L level) { p with version := some version } := by
  have hlt := version.toNat_lt
  have hsize : (UInt32.size : Int) = 2 ^ 32 := by decide
  have hmin : Int64.minValue.toInt = -2 ^ 63 := by decide
  have hlimit : 2 ^ 32 ≤ significandLimit := by decide
  have hread : Reads (integer 0 (UInt32.size - 1)) ((Value.integer version.toNat).bytes L level)
      version.toNat :=
    reads_integer L level (by omega) (by omega) (by omega) (by omega)
  have hvalue := hread.pure_bind fun n => { p with version := some (UInt32.ofNat n.toNat) }
  rwa [Int.toNat_natCast, UInt32.ofNat_toNat] at hvalue

theorem reads_assets {assets : List (String × String)} (hordered : Ascending assets)
    (hbound : assets.length < bound) :
    Reads (map bound (room + 1) (fun _ => string) [] fun saved name data =>
        putNamed name data saved)
      ((Value.object (assets.map fun (name, data) => (name, .text data))).bytes L level)
      assets := by
  have hmembers : List.Forall₂ (fun m (a : String × String) =>
      m.1 = a.1 ∧ Reads string (m.2.bytes L (level + 1)) a.2)
      (assets.map fun (name, data) => (name, Value.text data)) assets := by
    rw [List.forall₂_map_left_iff, List.forall₂_same]
    exact fun a _ => ⟨rfl, reads_string L (level + 1) a.2⟩
  have hread : Reads (map bound (room + 1) (fun _ => string) [] fun saved name data =>
        putNamed name data saved)
      ((Value.object (assets.map fun (name, data) => (name, .text data))).bytes L level)
      (assets.foldl (fun saved a => putNamed a.1 a.2 saved) []) :=
    reads_map hmembers (by rwa [List.length_map]) []
  rwa [foldl_putNamed [] hordered] at hread

/-- The heights that blocks may have are within the limits of the reader. Of the containers that it
allows inside each other, three stand around each block, and a block takes at most three. -/
theorem height_room {n : Nat} (h : n ≤ heightLimit) : n ≤ containerLimit + 1 ∧ 3 * n ≤ 124 := by
  unfold heightLimit at h
  unfold containerLimit
  omega

/-- **The bytes of a snapshot are read as the snapshot**, in any layout. -/
theorem reads_snapshot {s : Snapshot} (hordered : s.Ordered)
    (hheight : ∀ r ∈ s.roots, r.block.height ≤ heightLimit)
    (hbound : (s.toJson.bytes L level).length ≤ bound) :
    Reads (reader bound) (s.toJson.bytes L level) s := by
  obtain ⟨version, roots, assets⟩ := s
  -- the bound on turns is the length of the bytes, and every value is shorter than these
  have hcount := (Value.length_lt_object L level _).trans_le hbound
  have hroots : Reads (array bound 126 (root bound))
      ((Value.array (roots.map Root.toJson)).bytes L (level + 1)) roots := by
    have hshort := (Value.length_lt_of_mem_object L level
      (List.mem_cons_of_mem _ List.mem_cons_self)).trans_le hbound
    refine reads_array ?_ ((Value.length_lt_array L (level + 1) _).trans hshort)
    rw [List.forall₂_map_left_iff, List.forall₂_same]
    intro r hr
    have hmem : r.toJson ∈ roots.map Root.toJson := List.mem_map_of_mem hr
    obtain ⟨hlevels, hroom⟩ := height_room (hheight r hr)
    exact reads_root (hordered.slots r hr) hlevels hroom
      ((Value.length_lt_of_mem_array L (level + 1) hmem).trans hshort).le
  have hassets : Reads (map bound 126 (fun _ => string) [] fun saved name data =>
        putNamed name data saved)
      ((Value.object (assets.map fun (name, data) => (name, .text data))).bytes L (level + 1))
      assets := by
    have hshort := (Value.length_lt_of_mem_object L level
      (List.mem_cons_of_mem _ (List.mem_cons_of_mem _ List.mem_cons_self))).trans_le hbound
    have hlength := (Value.length_lt_object L (level + 1) _).trans hshort
    rw [List.length_map] at hlength
    exact reads_assets hordered.assets hlength
  unfold reader
  refine Reads.pure_bind (a := (⟨some version, some roots, some assets⟩ : Parts))
    (reads_record ?_ hcount rfl) _
  refine .cons (takes_field rfl rfl (reads_version version _)) ?_
  refine .cons (takes_field rfl rfl (hroots.pure_bind _)) ?_
  exact .cons (takes_field rfl rfl (hassets.pure_bind _)) (.nil _)

/-- A JSON text of a snapshot gives the snapshot, in any layout. -/
theorem ofBytes_bytes {s : Snapshot} (hordered : s.Ordered)
    (hheight : ∀ r ∈ s.roots, r.block.height ≤ heightLimit) (L : Layout) :
    ofBytes (s.toJson.bytes L 0) = .ok s := by
  unfold ofBytes
  rw [whole_ok (reads_snapshot hordered hheight (Nat.le_succ _))]
  rfl

end Snapshot

/-! ### Share tokens -/

/-- Trimming cuts the blank characters around others. -/
theorem Text.trimChars_blank {front cs back : List Char} (hfront : ∀ c ∈ front, isBlank c = true)
    (hcs : ∀ c ∈ cs, isBlank c = false) (hback : ∀ c ∈ back, isBlank c = true) :
    trimChars (front ++ (cs ++ back)) = cs := by
  have hdrop : ∀ ds : List Char, (∀ c ∈ ds, isBlank c = false) → ds.dropWhile isBlank = ds := by
    intro ds hds
    cases ds with
    | nil => rfl
    | cons d ds => exact List.dropWhile_cons_of_neg (by simp [hds d List.mem_cons_self])
  have hback' : ∀ c ∈ back.reverse, isBlank c = true := fun c hc => hback c (List.mem_reverse.mp hc)
  unfold trimChars trimBack trimFront
  rw [List.dropWhile_append_of_pos hfront]
  cases cs with
  | nil =>
    rw [List.nil_append, List.dropWhile_eq_nil_iff.mpr hback]
    rfl
  | cons c cs =>
    have hc : ¬ isBlank c = true := by simp [hcs c List.mem_cons_self]
    rw [List.cons_append, List.dropWhile_cons_of_neg hc, ← List.cons_append, List.reverse_append,
      List.dropWhile_append_of_pos hback',
      hdrop _ fun d hd => hcs d (List.mem_reverse.mp hd), List.reverse_reverse]

/-- A symbol for links is a letter, a digit, a hyphen or an underscore, and so it is not blank. -/
theorem Base64.symbol_link {n : Nat} (h : n < 64) :
    ((symbol .link n).isAlphanum = true ∨ symbol .link n = '-' ∨ symbol .link n = '_') ∧
      Text.isBlank (symbol .link n) = false := by
  have hall : ∀ m : Fin 64, ((symbol .link m).isAlphanum = true ∨ symbol .link m = '-' ∨
      symbol .link m = '_') ∧ Text.isBlank (symbol .link m) = false := by decide
  exact hall ⟨n, h⟩

theorem Base64.mem_encode_link {bytes : List UInt8} {c : Char}
    (h : c ∈ (encode .link bytes).toList) : ∃ n < 64, symbol .link n = c := by
  unfold encode at h
  rw [String.toList_ofList, encodeChars_eq] at h
  rcases List.mem_append.mp h with h | h
  · obtain ⟨n, hn, rfl⟩ := List.mem_map.mp h
    exact ⟨n, symbols_lt bytes n hn, rfl⟩
  · cases h

namespace Snapshot

/-- **Encodings of snapshots lose nothing.** A snapshot is read back from its JSON text and from its
share token, also with blank characters around the token, which has only characters that may stand
in a link. -/
theorem encodings_lossless {s : Snapshot} (hordered : s.Ordered)
    (hheight : ∀ r ∈ s.roots, r.block.height ≤ heightLimit) :
    ofText s.pretty = .ok s ∧
      (∀ front back : List Char, (∀ c ∈ front, Text.isBlank c = true) →
        (∀ c ∈ back, Text.isBlank c = true) →
        ofShareToken (String.ofList (front ++ (s.shareToken.toList ++ back))) = .ok s) ∧
      ∀ c ∈ s.shareToken.toList, c.isAlphanum = true ∨ c = '-' ∨ c = '_' := by
  refine ⟨?_, fun front back hfront hback => ?_, fun c hc => ?_⟩
  · unfold ofText pretty
    rw [Text.toList_toUTF8, String.toList_ofList, Value.utf8_indented]
    exact ofBytes_bytes hordered hheight .lines
  · -- no character of a token is blank, so trimming takes the blanks around it and no more
    have hplain : ∀ c ∈ s.shareToken.toList, Text.isBlank c = false := by
      intro c hc
      obtain ⟨n, hn, rfl⟩ := Base64.mem_encode_link hc
      exact (Base64.symbol_link hn).2
    have htrim : Text.trim (String.ofList (front ++ (s.shareToken.toList ++ back)))
        = s.shareToken := by
      unfold Text.trim
      rw [String.toList_ofList, Text.trimChars_blank hfront hplain hback, String.ofList_toList]
    have hdecode : Base64.decode .link s.shareToken.toUTF8.toList
        = .ok (s.toJson.bytes .dense 0) := by
      rw [Base64.decode_text_eq_ok, shareToken, compact, Text.toList_toUTF8, String.toList_ofList,
        Value.utf8_compact s.toJson 0]
    unfold ofShareToken
    rw [htrim, hdecode]
    exact ofBytes_bytes hordered hheight .dense
  · obtain ⟨n, hn, rfl⟩ := Base64.mem_encode_link hc
    exact (Base64.symbol_link hn).1

/-- A snapshot with texts that are escaped, a reporter inside another, and an extreme place. -/
def escaped : Snapshot where
  version := 4294967295
  roots := [⟨Int64.minValue, 40, .mk () "no \"type\"" [.literal "\\" "a\tb\n\x01", .reporter "é"
    (.mk () "value" [.reporter "input1" (.bare () "🦀")] [])] [.bare () ""]⟩]
  assets := [("cat", "AAEC"), ("猫\r", "")]

theorem encodings_lossless_escaped :
    escaped.Ordered ∧ (∀ r ∈ escaped.roots, r.block.height ≤ heightLimit) ∧
      ofText escaped.pretty = .ok escaped ∧
      ofShareToken (String.ofList (['\u00a0', '\n'] ++ (escaped.shareToken.toList ++ ['\u2003'])))
        = .ok escaped := by
  have hordered : escaped.Ordered := ⟨by decide, by unfold Ascending; decide⟩
  have hheight : ∀ r ∈ escaped.roots, r.block.height ≤ heightLimit := by decide
  have hfront : ∀ c ∈ ['\u00a0', '\n'], Text.isBlank c = true := by simp [Text.isBlank]
  have hback : ∀ c ∈ ['\u2003'], Text.isBlank c = true := by simp [Text.isBlank]
  have hlossless := encodings_lossless hordered hheight
  exact ⟨hordered, hheight, hlossless.1, hlossless.2.1 _ _ hfront hback⟩

end Snapshot

end Blockwork
