import Mathlib
import Blockwork.Proofs.Computation
import Blockwork.Proofs.Text.Bytes
import Blockwork.Text.Base64

/-!
# Base64 is lossless

An encoding is a sequence of symbols, given by their numbers, and some padding
(`Base64.encodeChars_eq`). Decoding reads the numbers back (`Base64.readSymbols_written`), and the
bytes from these (`Base64.bytesOfSymbols_symbols`). Each of the two steps takes nothing but what
encoding writes (`Base64.written_of_readSymbols`, `Base64.symbols_bytesOfSymbols`), so that
`Base64.decode_eq_ok` holds in both directions: a text is decoded to some bytes if and only if it is
what they are encoded as.
-/

namespace Blockwork.Base64

open Text (asciiByte utf8)

variable {v : Variant}

/-! ### Symbols -/

/-- The byte of a symbol. -/
def symbolByte (v : Variant) (n : Nat) : UInt8 :=
  asciiByte (symbol v n)

theorem symbol_lt {n : Nat} (h : n < 64) : (symbol v n).toNat < 128 := by
  have hall : ∀ m : Fin 64, (symbol v m).toNat < 128 := by
    cases v <;> decide
  exact hall ⟨n, h⟩

theorem value?_symbolByte {n : Nat} (h : n < 64) : value? v (symbolByte v n) = some n := by
  have hall : ∀ m : Fin 64, value? v (symbolByte v m) = some m.val := by
    cases v <;> decide
  exact hall ⟨n, h⟩

theorem symbolByte_ne_pad {n : Nat} (h : n < 64) : symbolByte v n ≠ pad := by
  have hall : ∀ m : Fin 64, symbolByte v m ≠ pad := by
    cases v <;> decide
  exact hall ⟨n, h⟩

/-- A byte that has a number is the byte of the symbol of that number. -/
theorem value?_eq_some {byte : UInt8} {n : Nat} (h : value? v byte = some n) :
    n < 64 ∧ byte = symbolByte v n := by
  have hall : ∀ m : Fin 256, ∀ k ∈ value? v (UInt8.ofNat m),
      k < 64 ∧ UInt8.ofNat m = symbolByte v k := by
    cases v <;> decide +kernel
  have hbyte : UInt8.ofNat byte.toNat = byte := UInt8.ofNat_toNat
  have := hall ⟨byte.toNat, byte.toNat_lt⟩ n
  simp only [hbyte] at this
  exact this h

/-! ### What encoding writes -/

/-- The numbers of the symbols of bytes. -/
def symbols : List UInt8 → List Nat
  | [] => []
  | [a] =>
    let n := a.toNat * 16
    [n / 64, n % 64]
  | [a, b] =>
    let n := (a.toNat * 256 + b.toNat) * 4
    [n / 4096, n / 64 % 64, n % 64]
  | a :: b :: c :: rest =>
    let n := (a.toNat * 256 + b.toNat) * 256 + c.toNat
    n / 262144 :: n / 4096 % 64 :: n / 64 % 64 :: n % 64 :: symbols rest

/-- How much the last quad lacks after this many symbols. -/
def lack (length : Nat) : Nat :=
  (4 - length % 4) % 4

theorem encodeChars_eq (v : Variant) (bytes : List UInt8) :
    encodeChars v bytes
      = (symbols bytes).map (symbol v) ++ padding v (lack (symbols bytes).length) := by
  fun_induction symbols bytes with
  | case1 => cases v <;> rfl
  | case2 a n => rfl
  | case3 a b n => rfl
  | case4 a b c rest n ih =>
    have hlack : lack (symbols rest).length = lack ((symbols rest).length + 1 + 1 + 1 + 1) := by
      unfold lack
      omega
    rw [encodeChars, ih, hlack]
    rfl

theorem symbols_lt (bytes : List UInt8) : ∀ n ∈ symbols bytes, n < 64 := by
  fun_induction symbols bytes with
  | case1 => exact List.forall_mem_nil _
  | case2 a n =>
    have ha := a.toNat_lt
    simp only [List.forall_mem_cons]
    exact ⟨by omega, by omega, List.forall_mem_nil _⟩
  | case3 a b n =>
    have ha := a.toNat_lt
    have hb := b.toNat_lt
    simp only [List.forall_mem_cons]
    exact ⟨by omega, by omega, by omega, List.forall_mem_nil _⟩
  | case4 a b c rest n ih =>
    have ha := a.toNat_lt
    have hb := b.toNat_lt
    have hc := c.toNat_lt
    simp only [List.forall_mem_cons]
    exact ⟨by omega, by omega, by omega, by omega, ih⟩

/-- No byte leaves a quad with a single symbol. -/
theorem length_symbols (bytes : List UInt8) : (symbols bytes).length % 4 ≠ 1 := by
  fun_induction symbols bytes with
  | case1 => decide
  | case2 a n => exact Nat.succ_ne_self 1
  | case3 a b n => exact (Nat.lt_succ_self 2 |>.trans' (Nat.lt_succ_self 1)).ne'
  | case4 a b c rest n ih =>
    simp only [List.length_cons]
    omega

theorem ofNat_eq_of_toNat {n : Nat} {a : UInt8} (h : n = a.toNat) : UInt8.ofNat n = a := by
  rw [h, UInt8.ofNat_toNat]

/-- **The symbols of bytes stand for the bytes.** -/
theorem bytesOfSymbols_symbols (bytes : List UInt8) :
    bytesOfSymbols (symbols bytes) = (bytes, true) := by
  fun_induction symbols bytes with
  | case1 => rfl
  | case2 a n =>
    have ha := a.toNat_lt
    -- a group is one number: the symbols are its digits to the base 64, the bytes to the base 256
    have hsum : n / 64 * 64 + n % 64 = n := by omega
    rw [bytesOfSymbols]
    simp only [hsum, Prod.mk.injEq, List.cons.injEq, and_true, beq_iff_eq]
    exact ⟨ofNat_eq_of_toNat (by omega), by omega⟩
  | case3 a b n =>
    have ha := a.toNat_lt
    have hb := b.toNat_lt
    have hsum : (n / 4096 * 64 + n / 64 % 64) * 64 + n % 64 = n := by omega
    rw [bytesOfSymbols]
    simp only [hsum, Prod.mk.injEq, List.cons.injEq, and_true, beq_iff_eq]
    exact ⟨⟨ofNat_eq_of_toNat (by omega), ofNat_eq_of_toNat (by omega)⟩, by omega⟩
  | case4 a b c rest n ih =>
    have ha := a.toNat_lt
    have hb := b.toNat_lt
    have hc := c.toNat_lt
    have hsum : ((n / 262144 * 64 + n / 4096 % 64) * 64 + n / 64 % 64) * 64 + n % 64 = n := by
      omega
    rw [bytesOfSymbols, ih]
    simp only [hsum, Prod.mk.injEq, List.cons.injEq, and_true]
    exact ⟨ofNat_eq_of_toNat (by omega), ofNat_eq_of_toNat (by omega),
      ofNat_eq_of_toNat (by omega)⟩

/-- **Symbols that stand for bytes** are the symbols of these. -/
theorem symbols_bytesOfSymbols {ns : List Nat} (hlt : ∀ n ∈ ns, n < 64)
    (hlength : ns.length % 4 ≠ 1) (h : (bytesOfSymbols ns).2 = true) :
    symbols (bytesOfSymbols ns).1 = ns := by
  have hbyte : ∀ {m : Nat}, m < 256 → (UInt8.ofNat m).toNat = m := fun hm =>
    UInt8.toNat_ofNat_of_lt hm
  fun_induction bytesOfSymbols ns with
  | case1 a b c d rest n bytes clean hrest ih =>
    simp only [List.forall_mem_cons] at hlt
    obtain ⟨ha, hb, hc, hd, hlt⟩ := hlt
    rw [hrest] at ih
    have htail : symbols bytes = rest := by
      refine ih hlt ?_ h
      simp only [List.length_cons] at hlength
      omega
    dsimp only
    rw [symbols, htail, hbyte (by omega), hbyte (by omega), hbyte (by omega)]
    have hsum : (n / 65536 * 256 + n / 256 % 256) * 256 + n % 256 = n := by omega
    simp only [hsum, List.cons.injEq, and_true]
    exact ⟨by omega, by omega, by omega, by omega⟩
  | case2 a b c n =>
    simp only [List.forall_mem_cons] at hlt
    obtain ⟨ha, hb, hc, -⟩ := hlt
    -- the bits that belong to no byte are zero, so no digit is lost
    have hclean : n % 4 = 0 := beq_iff_eq.mp h
    dsimp only
    rw [symbols, hbyte (by omega), hbyte (by omega)]
    have hsum : (n / 1024 * 256 + n / 4 % 256) * 4 = n := by omega
    simp only [hsum, List.cons.injEq, and_true]
    exact ⟨by omega, by omega, by omega⟩
  | case3 a b n =>
    simp only [List.forall_mem_cons] at hlt
    obtain ⟨ha, hb, -⟩ := hlt
    have hclean : n % 16 = 0 := beq_iff_eq.mp h
    dsimp only
    rw [symbols, hbyte (by omega)]
    have hsum : n / 16 * 16 = n := by omega
    simp only [hsum, List.cons.injEq, and_true]
    exact ⟨by omega, by omega⟩
  | case4 ns hfour hthree htwo =>
    -- one symbol alone is excluded, and the other lengths have been treated
    match ns, hfour, hthree, htwo, hlength with
    | [], _, _, _, _ => rfl
    | [a], _, _, _, hlength => exact absurd rfl hlength
    | [a, b], _, _, htwo, _ => exact absurd rfl (htwo a b)
    | [a, b, c], _, hthree, _, _ => exact absurd rfl (hthree a b c)
    | a :: b :: c :: d :: rest, hfour, _, _, _ => exact absurd rfl (hfour a b c d rest)

/-! ### Reading symbols -/

/-- The text of some symbols with this much padding. -/
def written (v : Variant) (ns : List Nat) (pads : Nat) : List UInt8 :=
  ns.map (symbolByte v) ++ List.replicate pads pad

/-- Padding from an offset on stays in the second half of a quad. -/
def PadsFrom (offset pads : Nat) : Prop :=
  ∀ i < pads, 2 ≤ (offset + i) % 4

theorem PadsFrom.zero (offset : Nat) : PadsFrom offset 0 :=
  fun _ hi => absurd hi (Nat.not_lt_zero _)

theorem padsFrom_succ {offset pads : Nat} :
    PadsFrom offset (pads + 1) ↔ 2 ≤ offset % 4 ∧ PadsFrom (offset + 1) pads := by
  unfold PadsFrom
  rw [Nat.forall_lt_succ_left, Nat.add_zero]
  simp only [Nat.add_assoc, Nat.add_comm 1]

/-- Where the padding of a text begins, if it has some. -/
def padStart (offset pads : Nat) : Option Nat :=
  if pads = 0 then none else some offset

/-- Padding is read to its end; it begins where it has begun. -/
theorem readSymbols_pads {offset pads : Nat} {padded : Option Nat} (h : PadsFrom offset pads) :
    readSymbols v offset padded (List.replicate pads pad)
      = .ok ([], if pads = 0 then padded else some (padded.getD offset)) := by
  induction pads generalizing offset padded with
  | zero => rfl
  | succ pads ih =>
    obtain ⟨hfirst, hrest⟩ := padsFrom_succ.mp h
    unfold readSymbols
    rw [List.replicate_succ]
    dsimp only
    rw [if_pos rfl, if_neg (Nat.not_lt.mpr hfirst), ih hrest, if_neg (Nat.succ_ne_zero pads),
      Option.getD_some, ite_self]

/-- **What has been written is read**: the numbers, and where the padding begins. -/
theorem readSymbols_written {offset pads : Nat} {ns : List Nat} (hlt : ∀ n ∈ ns, n < 64)
    (hpads : PadsFrom (offset + ns.length) pads) :
    readSymbols v offset none (written v ns pads)
      = .ok (ns, padStart (offset + ns.length) pads) := by
  induction ns generalizing offset with
  | nil => exact readSymbols_pads hpads
  | cons n ns ih =>
    obtain ⟨hn, hlt⟩ := List.forall_mem_cons.mp hlt
    -- the padding is counted from the beginning, so its place stays as the offset goes on
    have hoffset : offset + (n :: ns).length = offset + 1 + ns.length := by
      rw [List.length_cons]
      omega
    rw [hoffset] at hpads ⊢
    change readSymbols v offset none (symbolByte v n :: written v ns pads) = _
    rw [readSymbols, if_neg (symbolByte_ne_pad hn)]
    dsimp only
    rw [value?_symbolByte hn]
    dsimp only
    rw [ih hlt hpads]
    rfl

/-- Once padding has begun, there is nothing else. -/
theorem pads_of_readSymbols {offset start : Nat} {text : List UInt8} {ns : List Nat}
    {padded : Option Nat} (h : readSymbols v offset (some start) text = .ok (ns, padded)) :
    ns = [] ∧ padded = some start ∧
      ∃ pads, text = List.replicate pads pad ∧ PadsFrom offset pads := by
  induction text generalizing offset with
  | nil =>
    cases h
    exact ⟨rfl, rfl, 0, rfl, .zero offset⟩
  | cons byte rest ih =>
    rw [readSymbols] at h
    split at h
    · next hpad =>
      split at h
      · cases h
      · next hfirst =>
        obtain ⟨hns, hstart, pads, rfl, hpads⟩ := ih h
        refine ⟨hns, hstart, pads + 1, ?_, padsFrom_succ.mpr ⟨Nat.not_lt.mp hfirst, hpads⟩⟩
        rw [hpad, List.replicate_succ]
    · cases h

/-- **Nothing is read but what has been written.** -/
theorem written_of_readSymbols {offset : Nat} {text : List UInt8} {ns : List Nat}
    {padded : Option Nat} (h : readSymbols v offset none text = .ok (ns, padded)) :
    (∀ n ∈ ns, n < 64) ∧ ∃ pads, text = written v ns pads ∧
      PadsFrom (offset + ns.length) pads ∧ padded = padStart (offset + ns.length) pads := by
  induction text generalizing offset ns with
  | nil =>
    cases h
    exact ⟨List.forall_mem_nil _, 0, rfl, .zero _, rfl⟩
  | cons byte rest ih =>
    rw [readSymbols] at h
    split at h
    · next hpad =>
      split at h
      · cases h
      · next hfirst =>
        -- the padding begins here, so there are no symbols
        obtain ⟨rfl, rfl, pads, rfl, hpads⟩ := pads_of_readSymbols h
        refine ⟨List.forall_mem_nil _, pads + 1, ?_, ?_, rfl⟩
        · rw [hpad]
          rfl
        · exact padsFrom_succ.mpr ⟨Nat.not_lt.mp hfirst, hpads⟩
    · dsimp only at h
      split at h
      · cases h
      · next n hvalue =>
        obtain ⟨hn, rfl⟩ := value?_eq_some hvalue
        obtain ⟨⟨ns', padded'⟩, hrest, he⟩ := except_map_eq_ok h
        cases he
        obtain ⟨hlt, pads, rfl, hpads, hstart⟩ := ih hrest
        have hoffset : offset + 1 + ns'.length = offset + (n :: ns').length := by
          rw [List.length_cons]
          omega
        rw [hoffset] at hpads hstart
        exact ⟨List.forall_mem_cons.mpr ⟨hn, hlt⟩, pads, rfl, hpads, hstart⟩

/-! ### Decoding -/

/-- **Decoding step by step**: the symbols can be read, the padding is that of the variant, and the
symbols stand for the bytes. -/
theorem decode_iff {text bytes : List UInt8} (h : text.length % 4 ≠ 1) :
    decode v text = .ok bytes ↔ ∃ ns padded, readSymbols v 0 none text = .ok (ns, padded) ∧
      paddingFits v text.length padded = true ∧ bytesOfSymbols ns = (bytes, true) := by
  unfold decode
  rw [if_neg h]
  constructor
  · intro hok
    obtain ⟨⟨ns, padded⟩, hread, hok⟩ := except_bind_eq_ok hok
    dsimp only at hok
    split at hok
    · cases hok
    · next hfits =>
      refine ⟨ns, padded, hread, by simpa using hfits, ?_⟩
      split at hok
      · next hbytes =>
        rw [hbytes, Except.ok.inj hok]
      · cases hok
  · rintro ⟨ns, padded, hread, hfits, hbytes⟩
    change (readSymbols v 0 none text >>= _) = _
    rw [hread]
    change (if (!paddingFits v text.length padded) = true then _ else _) = _
    rw [hfits, Bool.not_true, if_neg Bool.false_ne_true]
    dsimp only
    rw [hbytes]
    rfl

/-- A symbol alone in the last quad stands for nothing. -/
theorem decode_lone {text : List UInt8} (h : text.length % 4 = 1) (bytes : List UInt8) :
    decode v text ≠ .ok bytes := by
  intro hok
  unfold decode at hok
  rw [if_pos h] at hok
  split at hok
  · split at hok <;> cases hok
  · cases hok

/-- The padding that encoding writes. -/
def padsOf (v : Variant) (bytes : List UInt8) : Nat :=
  match v with
  | .standard => lack (symbols bytes).length
  | .link => 0

theorem utf8_encode (v : Variant) (bytes : List UInt8) :
    utf8 (encode v bytes).toList = written v (symbols bytes) (padsOf v bytes) := by
  have hsymbols : utf8 ((symbols bytes).map (symbol v)) = (symbols bytes).map (symbolByte v) := by
    rw [Text.utf8_ascii, List.map_map]
    · rfl
    · intro c hc
      obtain ⟨n, hn, rfl⟩ := List.mem_map.mp hc
      exact symbol_lt (symbols_lt bytes n hn)
  have hpads : ∀ k, utf8 (padding v k) = match v with
      | .standard => List.replicate k pad
      | .link => [] := by
    intro k
    cases v with
    | standard =>
      have hascii : ∀ c ∈ List.replicate k '=', c.toNat < 128 := by
        intro c hc
        obtain rfl := List.eq_of_mem_replicate hc
        decide
      change utf8 (List.replicate k '=') = _
      rw [Text.utf8_ascii hascii, List.map_replicate]
      rfl
    | link => rfl
  unfold encode
  rw [String.toList_ofList, encodeChars_eq, Text.utf8_append, hsymbols, hpads]
  cases v <;> rfl

theorem padsFrom_lack {n : Nat} (h : n % 4 ≠ 1) : PadsFrom n (lack n) := by
  intro i hi
  unfold lack at hi
  omega

theorem lack_fills (n : Nat) : (n + lack n) % 4 = 0 := by
  unfold lack
  omega

/-- Padding that fills the last quad is as much as that lacks. -/
theorem PadsFrom.eq_lack {n pads : Nat} (h : PadsFrom n pads) (hquad : (n + pads) % 4 = 0) :
    pads = lack n := by
  have hfirst := h 0
  have hthird := h 2
  unfold lack
  omega

theorem PadsFrom.ne_one {n pads : Nat} (h : PadsFrom n pads) (hlone : (n + pads) % 4 ≠ 1) :
    n % 4 ≠ 1 := by
  have hfirst := h 0
  omega

theorem length_written (v : Variant) (ns : List Nat) (pads : Nat) :
    (written v ns pads).length = ns.length + pads := by
  unfold written
  rw [List.length_append, List.length_map, List.length_replicate]

theorem paddingFits_written (v : Variant) (bytes : List UInt8) :
    paddingFits v ((symbols bytes).length + padsOf v bytes)
      (padStart (symbols bytes).length (padsOf v bytes)) = true := by
  cases v with
  | standard => exact beq_iff_eq.mpr (lack_fills (symbols bytes).length)
  | link => rfl

/-- Padding that fits is what encoding writes. -/
theorem pads_eq_of_paddingFits {bytes : List UInt8} {pads : Nat}
    (hpads : PadsFrom (symbols bytes).length pads)
    (hfits : paddingFits v ((symbols bytes).length + pads)
      (padStart (symbols bytes).length pads) = true) : pads = padsOf v bytes := by
  cases v with
  | standard => exact hpads.eq_lack (beq_iff_eq.mp hfits)
  | link =>
    have hnone : pads = 0 := by simpa [paddingFits, padStart] using hfits
    rw [hnone]
    rfl

theorem length_written_symbols (v : Variant) (bytes : List UInt8) :
    (written v (symbols bytes) (padsOf v bytes)).length % 4 ≠ 1 := by
  rw [length_written]
  cases v with
  | standard =>
    have hquad := lack_fills (symbols bytes).length
    change ((symbols bytes).length + lack (symbols bytes).length) % 4 ≠ 1
    omega
  | link => exact length_symbols bytes

theorem padsFrom_padsOf (v : Variant) (bytes : List UInt8) :
    PadsFrom (symbols bytes).length (padsOf v bytes) := by
  cases v with
  | standard => exact padsFrom_lack (length_symbols bytes)
  | link => exact .zero _

/-- **Decoding takes exactly what encoding writes.** -/
theorem decode_eq_ok {text bytes : List UInt8} :
    decode v text = .ok bytes ↔ text = utf8 (encode v bytes).toList := by
  rw [utf8_encode]
  constructor
  · intro h
    by_cases hlone : text.length % 4 = 1
    · exact absurd h (decode_lone hlone bytes)
    · obtain ⟨ns, padded, hread, hfits, hbytes⟩ := (decode_iff hlone).mp h
      obtain ⟨hlt, pads, rfl, hpads, rfl⟩ := written_of_readSymbols hread
      rw [Nat.zero_add] at hpads hfits
      rw [length_written] at hlone hfits
      -- the symbols are those of the bytes, so padding and text are those of the encoding
      have hsymbols := symbols_bytesOfSymbols hlt (hpads.ne_one hlone) (by rw [hbytes])
      rw [hbytes] at hsymbols
      dsimp only at hsymbols
      rw [← hsymbols] at hpads hfits ⊢
      rw [pads_eq_of_paddingFits hpads hfits]
  · rintro rfl
    have hpads : PadsFrom (0 + (symbols bytes).length) (padsOf v bytes) := by
      rw [Nat.zero_add]
      exact padsFrom_padsOf v bytes
    have hread := @readSymbols_written v _ _ _ (symbols_lt bytes) hpads
    rw [Nat.zero_add] at hread
    refine (decode_iff (length_written_symbols v bytes)).mpr
      ⟨_, _, hread, ?_, bytesOfSymbols_symbols bytes⟩
    rw [length_written]
    exact paddingFits_written v bytes

/-- **A text is decoded** if and only if it has been encoded. -/
theorem decode_text_eq_ok {text : String} {bytes : List UInt8} :
    decode v text.toUTF8.toList = .ok bytes ↔ text = encode v bytes := by
  rw [Text.toList_toUTF8, decode_eq_ok]
  constructor
  · intro h
    exact String.toList_injective (Text.utf8_injective h)
  · rintro rfl
    rfl

end Blockwork.Base64
