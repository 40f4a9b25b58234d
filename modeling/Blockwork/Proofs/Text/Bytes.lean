import Mathlib

/-!
# The bytes of a text

Texts that are saved are read byte by byte, so what is said of them is said of lists of bytes.
`Text.utf8` is the UTF-8 form of a list of characters as such a list; the conversions of the library
are equal to it (`Text.toList_toUTF8`, `Text.fromUTF8?_utf8`). Where all characters are ASCII, it
has one byte for each (`Text.utf8_ascii`), and no byte of another character looks like one of these
(`Text.exists_utf8EncodeChar`).
-/

namespace Blockwork.Text

/-- The UTF-8 form of characters. -/
def utf8 (cs : List Char) : List UInt8 :=
  cs.flatMap String.utf8EncodeChar

@[simp] theorem utf8_nil : utf8 [] = [] := rfl

@[simp] theorem utf8_append (cs ds : List Char) : utf8 (cs ++ ds) = utf8 cs ++ utf8 ds :=
  List.flatMap_append

theorem utf8_cons (c : Char) (cs : List Char) :
    utf8 (c :: cs) = String.utf8EncodeChar c ++ utf8 cs := rfl

/-! ### Conversions of the library -/

theorem byteArray_toList_loop (bytes : ByteArray) (i : Nat) (front : List UInt8) :
    ByteArray.toList.loop bytes i front = front.reverse ++ bytes.data.toList.drop i := by
  induction i, front using ByteArray.toList.loop.induct bytes with
  | case1 i front hlt ih =>
    have hi : i < bytes.data.toList.length := by simpa using hlt
    have hget : bytes.get! i = bytes.data.toList[i] := by
      rw [ByteArray.get!, Array.getElem_toList]
      exact getElem!_pos bytes.data i (by simpa using hlt)
    rw [ByteArray.toList.loop, if_pos hlt, ih, hget, List.reverse_cons, List.append_assoc,
      List.singleton_append, ← List.drop_eq_getElem_cons hi]
  | case2 i front hge =>
    have hi : bytes.data.toList.length ≤ i := by simpa using hge
    rw [ByteArray.toList.loop, if_neg hge, List.drop_eq_nil_of_le hi, List.append_nil]

theorem byteArray_toList (bytes : ByteArray) : bytes.toList = bytes.data.toList := by
  rw [ByteArray.toList, byteArray_toList_loop]
  rfl

theorem toByteArray_utf8 (cs : List Char) : (⟨(utf8 cs).toArray⟩ : ByteArray) = cs.utf8Encode := by
  apply ByteArray.ext
  apply Array.toList_inj.mp
  unfold List.utf8Encode
  rw [List.toList_data_toByteArray]
  rfl

/-- **The bytes of a text** are the UTF-8 form of its characters. -/
theorem toList_toUTF8 (s : String) : s.toUTF8.toList = utf8 s.toList := by
  rw [byteArray_toList, String.toUTF8, ← String.utf8Encode_toList, ← toByteArray_utf8]

/-- **The text of bytes** that are the UTF-8 form of characters has these characters. -/
theorem fromUTF8?_utf8 (cs : List Char) :
    String.fromUTF8? ⟨(utf8 cs).toArray⟩ = some (String.ofList cs) := by
  have hvalid : (⟨(utf8 cs).toArray⟩ : ByteArray).IsValidUTF8 := ⟨cs, toByteArray_utf8 cs⟩
  unfold String.fromUTF8?
  rw [dif_pos hvalid]
  congr 1
  apply String.toByteArray_inj.mp
  rw [String.toByteArray_ofList]
  exact toByteArray_utf8 cs

/-- Characters are known by their bytes. -/
theorem utf8_injective : Function.Injective utf8 := by
  intro cs ds h
  have hsome : some (String.ofList cs) = some (String.ofList ds) := by
    rw [← fromUTF8?_utf8, ← fromUTF8?_utf8, h]
  exact String.ofList_injective (Option.some.inj hsome)

/-! ### ASCII -/

/-- The byte of an ASCII character. -/
def asciiByte (c : Char) : UInt8 :=
  UInt8.ofNat c.toNat

theorem utf8EncodeChar_ascii {c : Char} (h : c.toNat < 128) :
    String.utf8EncodeChar c = [asciiByte c] := by
  have hle : c.val.toNat ≤ 127 := Nat.le_of_lt_succ h
  unfold String.utf8EncodeChar
  exact if_pos hle

/-- **ASCII characters** have one byte each. -/
theorem utf8_ascii {cs : List Char} (h : ∀ c ∈ cs, c.toNat < 128) : utf8 cs = cs.map asciiByte := by
  induction cs with
  | nil => rfl
  | cons c cs ih =>
    obtain ⟨hc, hcs⟩ := List.forall_mem_cons.mp h
    rw [utf8_cons, utf8EncodeChar_ascii hc, ih hcs, List.singleton_append, List.map_cons]

/-- No byte of another character is that of an ASCII character. -/
theorem toNat_of_mem_utf8EncodeChar {c : Char} {b : UInt8} (hc : 128 ≤ c.toNat)
    (hb : b ∈ String.utf8EncodeChar c) : 128 ≤ b.toNat := by
  have hval : ¬ c.val.toNat ≤ 127 := Nat.not_le_of_lt hc
  unfold String.utf8EncodeChar at hb
  dsimp only at hb
  rw [if_neg hval] at hb
  -- two, three or four bytes
  split_ifs at hb
  all_goals
    simp only [List.mem_cons, List.not_mem_nil, or_false] at hb
    rcases hb with rfl | rfl | rfl | rfl <;> rw [UInt8.toNat_ofNat'] <;> omega

/-- The first byte tells ASCII characters apart, from each other and from all others. -/
theorem exists_utf8EncodeChar (c : Char) : ∃ b bs, String.utf8EncodeChar c = b :: bs ∧
    (b.toNat = c.toNat ∧ bs = [] ∨ 128 ≤ c.toNat ∧ 128 ≤ b.toNat) := by
  by_cases hc : c.toNat < 128
  · refine ⟨_, _, utf8EncodeChar_ascii hc, .inl ⟨?_, rfl⟩⟩
    exact UInt8.toNat_ofNat_of_lt (Nat.lt_trans hc (by decide))
  · have hgreat : 128 ≤ c.toNat := Nat.le_of_not_lt hc
    rcases hbytes : String.utf8EncodeChar c with _ | ⟨b, bs⟩
    · exact absurd hbytes String.utf8EncodeChar_ne_nil
    · refine ⟨b, bs, rfl, .inr ⟨hgreat, toNat_of_mem_utf8EncodeChar hgreat ?_⟩⟩
      rw [hbytes]
      exact List.mem_cons_self

end Blockwork.Text
