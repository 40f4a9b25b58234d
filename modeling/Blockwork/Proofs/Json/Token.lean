import Mathlib
import Blockwork.Proofs.Json.Layout

/-!
# Written strings and integers are read back

A reader is said to read bytes as a value (`Reader.Reads`) if it does so behind any blanks and
before anything that ends the value, and goes no further than the bytes. A quoted text is read as
the text (`reads_string`): the automaton of strings undoes `escape` one character at a time. The
decimal numeral of an integer is read as the integer (`reads_integer`), unless it has more than 64
bits.
-/

namespace Blockwork.Json

open Text (utf8 utf8_append utf8_cons utf8EncodeChar_ascii utf8_ascii fromUTF8?_utf8 asciiByte)

/-! ### Steps of readers -/

namespace Reader

variable {α β : Type}

/-- Bytes before which a value ends. -/
def Ended (rest : List UInt8) : Prop :=
  ∀ b ∈ rest.head?, isBlankByte b = true ∨ b = code ',' ∨ b = code ']' ∨ b = code '\x7d'

/-- The bytes begin a value or a member, and end no container. -/
def Begins (bytes : List UInt8) : Prop :=
  ∃ b bs, bytes = b :: bs ∧ isBlankByte b = false ∧ b ≠ code ']' ∧ b ≠ code '\x7d'

/-- **What is written is read back.** The reader takes the bytes for `a`, whatever blanks stand
before them and whatever follows. -/
structure Reads (r : Reader α) (bytes : List UInt8) (a : α) : Prop where
  begins : Begins bytes
  eq_ok : ∀ blanks rest, (∀ b ∈ blanks, isBlankByte b = true) → Ended rest →
    r (blanks ++ (bytes ++ rest)) = .ok (a, rest)

theorem Reads.here {r : Reader α} {bytes rest : List UInt8} {a : α} (h : Reads r bytes a)
    (hrest : Ended rest) : r (bytes ++ rest) = .ok (a, rest) :=
  h.eq_ok [] rest (fun _ h => absurd h List.not_mem_nil) hrest

theorem bind_ok {r : Reader α} {f : α → Reader β} {s t : List UInt8} {a : α}
    (h : r s = .ok (a, t)) : (r >>= f) s = f a t := by
  change (r s >>= fun p => f p.1 p.2) = f a t
  rw [h]
  rfl

theorem get_bind (f : List UInt8 → Reader β) (s : List UInt8) :
    ((get : Reader (List UInt8)) >>= f) s = f s s := rfl

theorem set_bind (t : List UInt8) (f : PUnit → Reader β) (s : List UInt8) :
    ((set t : Reader PUnit) >>= f) s = f ⟨⟩ t := rfl

theorem liftM_bind {x : Except ReadFault α} {a : α} (h : x = .ok a) (f : α → Reader β)
    (s : List UInt8) : ((liftM x : Reader α) >>= f) s = f a s := by
  rw [h]
  rfl

/-- A value that is computed from one that is read. -/
theorem Reads.pure_bind {r : Reader α} {bytes : List UInt8} {a : α} (h : Reads r bytes a)
    (f : α → β) : Reads (r >>= fun a => pure (f a)) bytes (f a) where
  begins := h.begins
  eq_ok blanks rest hblanks hrest := bind_ok (h.eq_ok blanks rest hblanks hrest)

theorem peek_ok {blanks : List UInt8} (hblanks : ∀ b ∈ blanks, isBlankByte b = true) {b : UInt8}
    (hb : isBlankByte b = false) (rest : List UInt8) :
    peek (blanks ++ b :: rest) = .ok (b, b :: rest) := by
  have hdrop : (blanks ++ b :: rest).dropWhile isBlankByte = b :: rest := by
    rw [List.dropWhile_append_of_pos hblanks, List.dropWhile_cons_of_neg (by simp [hb])]
  have hpeek : peek? (blanks ++ b :: rest) = .ok (some b, b :: rest) := by
    change Except.ok (((blanks ++ b :: rest).dropWhile isBlankByte).head?,
      (blanks ++ b :: rest).dropWhile isBlankByte) = _
    rw [hdrop]
    rfl
  exact bind_ok hpeek

theorem peek_here {b : UInt8} (hb : isBlankByte b = false) (rest : List UInt8) :
    peek (b :: rest) = .ok (b, b :: rest) :=
  peek_ok (fun _ h => absurd h List.not_mem_nil) hb rest

theorem drop_ok (b : UInt8) (rest : List UInt8) : drop (b :: rest) = .ok ((), rest) := rfl

/-! ### Strings -/

/-- Bytes without a meaning of their own stand for themselves. -/
theorem stringBytes_plain {bytes : List UInt8}
    (h : ∀ b ∈ bytes, b ≠ code '"' ∧ b ≠ code '\\' ∧ ¬ b < 32) (value rest : List UInt8) :
    stringBytes .plain value (bytes ++ rest)
      = stringBytes .plain (bytes.reverse ++ value) rest := by
  induction bytes generalizing value with
  | nil => rfl
  | cons b bytes ih =>
    obtain ⟨⟨hquote, hback, hcontrol⟩, hbytes⟩ := List.forall_mem_cons.mp h
    have hstep : stringStep .plain b = .next .plain [b] := by
      rw [stringStep, if_neg hquote, if_neg hback, if_neg hcontrol]
    rw [List.cons_append, stringBytes, hstep]
    dsimp only
    rw [ih hbytes, List.reverse_singleton, List.reverse_cons, List.append_assoc]

/-- The characters of which no byte has a meaning of its own. -/
theorem plain_of_mem_utf8EncodeChar {c : Char} (hquote : c ≠ '"') (hback : c ≠ '\\')
    (hcontrol : ¬ c.toNat < 0x20) :
    ∀ b ∈ String.utf8EncodeChar c, b ≠ code '"' ∧ b ≠ code '\\' ∧ ¬ b < 32 := by
  intro b hb
  -- a character below 128 is one byte; the bytes of the others are all above the quote and the bar
  by_cases hc : c.toNat < 128
  · rw [utf8EncodeChar_ascii hc] at hb
    obtain rfl := List.mem_singleton.mp hb
    have hbyte : (asciiByte c).toNat = c.toNat :=
      UInt8.toNat_ofNat_of_lt (Nat.lt_trans hc (by decide))
    refine ⟨fun h => hquote ?_, fun h => hback ?_, ?_⟩
    · apply Char.toNat_inj.mp
      rw [← hbyte, h]
      rfl
    · apply Char.toNat_inj.mp
      rw [← hbyte, h]
      rfl
    · rw [UInt8.lt_iff_toNat_lt, hbyte]
      exact hcontrol
  · have hgreat : 128 ≤ b.toNat :=
      Text.toNat_of_mem_utf8EncodeChar (Nat.le_of_not_lt hc) hb
    refine ⟨?_, ?_, ?_⟩
    · rintro rfl
      exact absurd hgreat (by decide)
    · rintro rfl
      exact absurd hgreat (by decide)
    · rw [UInt8.lt_iff_toNat_lt]
      exact Nat.not_lt_of_le (Nat.le_trans (by decide) hgreat)

/-- The digits of a control character give the character. -/
theorem stringBytes_control {n : Nat} (h : n < 0x20) (value rest : List UInt8) :
    stringBytes .plain value
        (utf8 ['\\', 'u', '0', '0', hexDigit (n / 16), hexDigit (n % 16)] ++ rest)
      = stringBytes .plain ((String.utf8EncodeChar (Char.ofNat n)).reverse ++ value) rest := by
  have hall : ∀ m < 0x20, ∀ value rest, stringBytes .plain value
      (utf8 ['\\', 'u', '0', '0', hexDigit (m / 16), hexDigit (m % 16)] ++ rest)
        = stringBytes .plain ((String.utf8EncodeChar (Char.ofNat m)).reverse ++ value) rest := by
    intro m hm value rest
    interval_cases m <;> rfl
  exact hall n h value rest

/-- **One character.** The automaton reads what a character is written as, and has its bytes. -/
theorem stringBytes_escape (c : Char) (value rest : List UInt8) :
    stringBytes .plain value (utf8 (escape c) ++ rest)
      = stringBytes .plain ((String.utf8EncodeChar c).reverse ++ value) rest := by
  unfold escape
  split
  -- the letters for one character
  iterate 7 rfl
  next hquote hback _ _ _ _ _ =>
  split
  · next hcontrol =>
    rw [stringBytes_control hcontrol, Char.ofNat_toNat]
  · next hcontrol =>
    have hone : utf8 [c] = String.utf8EncodeChar c := List.append_nil _
    rw [hone]
    exact stringBytes_plain (plain_of_mem_utf8EncodeChar hquote hback hcontrol) value rest

/-- The automaton reads what characters are written as, up to the closing quote. -/
theorem stringBytes_quoted (cs : List Char) (value rest : List UInt8) :
    stringBytes .plain value (utf8 (cs.flatMap escape) ++ code '"' :: rest)
      = .ok (value.reverse ++ utf8 cs, rest) := by
  induction cs generalizing value with
  | nil =>
    rw [Text.utf8_nil, List.append_nil]
    rfl
  | cons c cs ih =>
    rw [List.flatMap_cons, utf8_append, List.append_assoc, stringBytes_escape, ih,
      List.reverse_append, List.reverse_reverse, List.append_assoc, utf8_cons]

theorem stringRest_ok (s : String) (rest : List UInt8) :
    stringRest (utf8 (s.toList.flatMap escape) ++ code '"' :: rest) = .ok (s, rest) := by
  have htext : String.fromUTF8? ⟨([].reverse ++ utf8 s.toList).toArray⟩ = some s := by
    rw [List.reverse_nil, List.nil_append, fromUTF8?_utf8, String.ofList_toList]
  unfold stringRest
  rw [get_bind, liftM_bind (stringBytes_quoted s.toList [] rest)]
  dsimp only
  rw [set_bind, htext]
  rfl

theorem string_ok {blanks : List UInt8} (hblanks : ∀ b ∈ blanks, isBlankByte b = true) (s : String)
    (rest : List UInt8) :
    string (blanks ++ code '"' :: (utf8 (s.toList.flatMap escape) ++ code '"' :: rest))
      = .ok (s, rest) := by
  unfold string
  rw [bind_ok (peek_ok hblanks rfl _), if_pos rfl, bind_ok (drop_ok _ _)]
  exact stringRest_ok s rest

theorem string_here (s : String) (rest : List UInt8) :
    string (code '"' :: (utf8 (s.toList.flatMap escape) ++ code '"' :: rest)) = .ok (s, rest) :=
  string_ok (fun _ h => absurd h List.not_mem_nil) s rest

/-- **A quoted text is read as the text.** -/
theorem reads_string (L : Layout) (level : Nat) (s : String) :
    Reads string ((Value.text s).bytes L level) s where
  begins := ⟨code '"', _, rfl, rfl, by decide, by decide⟩
  eq_ok blanks rest hblanks _ := by
    have hquoted : utf8 (quoteChars s.toList) ++ rest
        = code '"' :: (utf8 (s.toList.flatMap escape) ++ code '"' :: rest) := by
      rw [quoteChars, utf8_cons, utf8_append, List.append_assoc, List.append_assoc]
      rfl
    rw [Value.bytes, hquoted]
    exact string_ok hblanks s rest

/-! ### Integers -/

/-- The bytes of a numeral. -/
def numeralBytes (n : Nat) : List UInt8 :=
  (Nat.toDigits 10 n).map asciiByte

theorem toNat_lt_of_isDigit {c : Char} (h : c.isDigit = true) : 48 ≤ c.toNat ∧ c.toNat ≤ 57 := by
  simpa [Char.isDigit, UInt32.le_iff_toNat_le] using h

theorem toNat_digitByte {c : Char} (h : c.isDigit = true) : (asciiByte c).toNat = c.toNat := by
  have hc := toNat_lt_of_isDigit h
  exact UInt8.toNat_ofNat_of_lt (Nat.lt_of_le_of_lt hc.2 (by decide))

theorem utf8_toDigits (n : Nat) : utf8 (Nat.toDigits 10 n) = numeralBytes n := by
  refine utf8_ascii fun c hc => ?_
  have hdigit := Nat.isDigit_of_mem_toDigits (by decide : 0 < 10) (by decide) hc
  exact Nat.lt_of_le_of_lt (toNat_lt_of_isDigit hdigit).2 (by decide)

theorem isDigitByte_of_mem_numeralBytes {n : Nat} {b : UInt8} (h : b ∈ numeralBytes n) :
    isDigitByte b = true := by
  obtain ⟨c, hc, rfl⟩ := List.mem_map.mp h
  have hdigit := Nat.isDigit_of_mem_toDigits (by decide : 0 < 10) (by decide) hc
  have hrange := toNat_lt_of_isDigit hdigit
  simp only [isDigitByte, Bool.and_eq_true, decide_eq_true_eq, UInt8.le_iff_toNat_le,
    toNat_digitByte hdigit]
  exact hrange

/-- Only zero begins with a zero. -/
theorem head_toDigits {n : Nat} (hn : 0 < n) : (Nat.toDigits 10 n).head? ≠ some '0' := by
  induction n using Nat.strongRecOn with
  | ind n ih =>
    by_cases hlt : n < 10
    · rw [Nat.toDigits_of_lt_base hlt]
      interval_cases n <;> decide
    · have hrest := ih (n / 10) (by omega) (by omega)
      rw [Nat.toDigits_of_base_le (by decide) (by omega)]
      obtain ⟨c, cs, hcs⟩ :=
        List.exists_cons_of_ne_nil (Nat.toDigits_ne_nil (b := 10) (n := n / 10))
      rw [hcs] at hrest ⊢
      exact hrest

theorem numeralBytes_cons (n : Nat) :
    ∃ d ds, numeralBytes n = d :: ds ∧ (ds ≠ [] → d ≠ code '0') := by
  obtain ⟨c, cs, hcs⟩ := List.exists_cons_of_ne_nil (Nat.toDigits_ne_nil (b := 10) (n := n))
  refine ⟨asciiByte c, cs.map asciiByte, by rw [numeralBytes, hcs, List.map_cons], fun hne h => ?_⟩
  have hdigit : c.isDigit = true :=
    Nat.isDigit_of_mem_toDigits (b := 10) (n := n) (by decide) (by decide) (by simp [hcs])
  have hc : c = '0' := by
    apply Char.toNat_inj.mp
    rw [← toNat_digitByte hdigit, h]
    rfl
  have hn : 0 < n := by
    rcases Nat.eq_zero_or_pos n with rfl | hn
    · rw [Nat.toDigits_zero] at hcs
      exact absurd (List.map_eq_nil_iff.mpr (List.cons.inj hcs).2.symm) hne
    · exact hn
  exact head_toDigits hn (by rw [hcs, hc]; rfl)

theorem numberOfBytes_numeralBytes (n : Nat) : numberOfBytes (numeralBytes n) = n := by
  have hfold : ∀ (cs : List Char) (i : Nat), (∀ c ∈ cs, c.isDigit = true) →
      (cs.map asciiByte).foldl (fun n b => 10 * n + (b.toNat - 48)) i
        = Nat.ofDigitChars 10 cs i := by
    intro cs i h
    rw [Nat.ofDigitChars_eq_foldl, List.foldl_map]
    refine List.foldl_ext _ _ _ fun m c hc => ?_
    rw [toNat_digitByte (h c hc)]
    rfl
  unfold numberOfBytes numeralBytes
  rw [hfold _ _ fun c hc => Nat.isDigit_of_mem_toDigits (by decide) (by decide) hc,
    Nat.ofDigitChars_ten_toDigits]

/-- More digits make no smaller number. -/
theorem le_foldl_digits (n : Nat) (ds : List UInt8) :
    n ≤ ds.foldl (fun n b => 10 * n + (b.toNat - 48)) n := by
  induction ds generalizing n with
  | nil => exact le_rfl
  | cons d ds ih =>
    have hstep : n ≤ 10 * n + (d.toNat - 48) := by omega
    exact hstep.trans (ih _)

/-- No digit of a number that fits is dropped. -/
theorem significand_eq {ds : List UInt8} (h : numberOfBytes ds ≤ significandLimit) :
    significand ds = (numberOfBytes ds, 0) := by
  -- the bound is on the whole number, and every beginning of it is smaller
  have hfold : ∀ (ds : List UInt8) (i : Nat),
      ds.foldl (fun n b => 10 * n + (b.toNat - 48)) i ≤ significandLimit →
      ds.foldl (fun p d =>
        let n' := 10 * p.1 + (d.toNat - 48)
        if p.2 = 0 ∧ n' ≤ significandLimit then (n', 0) else (p.1, p.2 + 1)) (i, 0)
        = (ds.foldl (fun n b => 10 * n + (b.toNat - 48)) i, 0) := by
    intro ds
    induction ds with
    | nil => exact fun _ _ => rfl
    | cons d ds ih =>
      intro i hi
      rw [List.foldl_cons] at hi ⊢
      rw [List.foldl_cons, ← ih _ hi]
      have hfits := (le_foldl_digits _ ds).trans hi
      dsimp only
      rw [if_pos ⟨rfl, hfits⟩]
  exact hfold ds 0 h

/-! The bytes behind a number do not go on with it. -/

theorem Ended.not_digit {rest : List UInt8} (h : Ended rest) :
    ∀ b ∈ rest.head?, isDigitByte b = false := by
  intro b hb
  have hblank : ∀ b : UInt8, isBlankByte b = true → isDigitByte b = false := by decide +kernel
  rcases h b hb with h | rfl | rfl | rfl
  · exact hblank b h
  all_goals rfl

theorem Ended.head_ne {rest : List UInt8} (h : Ended rest) {c : UInt8}
    (hc : isBlankByte c = false ∧ c ≠ code ',' ∧ c ≠ code ']' ∧ c ≠ code '\x7d') :
    rest.head? ≠ some c := by
  intro hhead
  rcases h c hhead with h | h | h | h
  · rw [hc.1] at h
    cases h
  · exact hc.2.1 h
  · exact hc.2.2.1 h
  · exact hc.2.2.2 h

theorem digits_ok {ds rest : List UInt8} (hds : ∀ b ∈ ds, isDigitByte b = true)
    (hrest : Ended rest) : digits (ds ++ rest) = .ok (ds, rest) := by
  have htake : rest.takeWhile isDigitByte = [] ∧ rest.dropWhile isDigitByte = rest := by
    cases rest with
    | nil => exact ⟨rfl, rfl⟩
    | cons b rest =>
      have hb : ¬ isDigitByte b = true := by simp [hrest.not_digit b rfl]
      exact ⟨List.takeWhile_cons_of_neg hb, List.dropWhile_cons_of_neg hb⟩
  change Except.ok ((ds ++ rest).takeWhile isDigitByte, (ds ++ rest).dropWhile isDigitByte) = _
  rw [List.takeWhile_append_of_pos hds, List.dropWhile_append_of_pos hds, htake.1, htake.2,
    List.append_nil]

theorem wholeDigits_ok (n : Nat) {rest : List UInt8} (hrest : Ended rest) :
    wholeDigits (numeralBytes n ++ rest) = .ok (numeralBytes n, rest) := by
  unfold wholeDigits
  rw [bind_ok (digits_ok (fun b hb => isDigitByte_of_mem_numeralBytes hb) hrest)]
  obtain ⟨d, ds, hds, hd⟩ := numeralBytes_cons n
  rw [hds]
  cases ds with
  | nil => rfl
  | cons e ds =>
    dsimp only
    rw [if_neg (hd (List.cons_ne_nil e ds))]
    rfl

theorem unsigned_ok {n : Nat} (hn : n ≤ significandLimit) (negative : Bool) {rest : List UInt8}
    (hrest : Ended rest) :
    unsigned negative (numeralBytes n ++ rest)
      = .ok (if negative then
          (if n = 0 ∨ -(n : Int) < Int64.minValue.toInt then .fraction else .integer (-(n : Int)))
        else .integer n, rest) := by
  have hsignificand : significand (numeralBytes n) = (n, 0) := by
    rw [significand_eq (by rwa [numberOfBytes_numeralBytes]), numberOfBytes_numeralBytes]
  have hpoint : rest.head? ≠ some (code '.') := hrest.head_ne (by decide)
  have hexponent : rest.head? ≠ some (code 'e') ∧ rest.head? ≠ some (code 'E') :=
    ⟨hrest.head_ne (by decide), hrest.head_ne (by decide)⟩
  unfold unsigned
  rw [bind_ok (wholeDigits_ok n hrest), hsignificand]
  dsimp only
  rw [get_bind, if_neg hpoint, if_pos ⟨rfl, hexponent⟩]
  cases negative <;> rfl

/-- The bytes of the numeral of an integer. -/
def signedBytes : Int → List UInt8
  | .ofNat n => numeralBytes n
  | .negSucc n => code '-' :: numeralBytes (n + 1)

theorem utf8_toString (n : Int) : utf8 (toString n).toList = signedBytes n := by
  have hnat : ∀ m : Nat, m.repr.toList = Nat.toDigits 10 m := fun m => String.toList_ofList
  cases n with
  | ofNat m =>
    change utf8 m.repr.toList = _
    rw [hnat, utf8_toDigits]
    rfl
  | negSucc m =>
    change utf8 ("-" ++ (m + 1).repr).toList = _
    rw [String.toList_append, utf8_append, hnat, utf8_toDigits]
    rfl

/-- A numeral begins with a sign or a digit. -/
theorem signedBytes_begins (n : Int) :
    ∃ b bs, signedBytes n = b :: bs ∧ (b = code '-' || isDigitByte b) = true := by
  cases n with
  | ofNat m =>
    obtain ⟨d, ds, hds, -⟩ := numeralBytes_cons m
    have hd : isDigitByte d = true := by
      refine isDigitByte_of_mem_numeralBytes (n := m) ?_
      rw [hds]
      exact List.mem_cons_self
    exact ⟨d, ds, hds, by rw [hd, Bool.or_true]⟩
  | negSucc m => exact ⟨_, _, rfl, rfl⟩

theorem numeral_ok {n : Int} (hmin : Int64.minValue.toInt ≤ n) (hmax : n ≤ significandLimit)
    {rest : List UInt8} (hrest : Ended rest) :
    numeral (signedBytes n ++ rest) = .ok (.integer n, rest) := by
  have hlimit : 2 ^ 63 ≤ significandLimit := by decide
  have hleast : Int64.minValue.toInt = -2 ^ 63 := by decide
  cases n with
  | ofNat m =>
    have hm : m ≤ significandLimit := Int.ofNat_le.mp hmax
    obtain ⟨d, ds, hds, -⟩ := numeralBytes_cons m
    -- the digits do not begin with a sign
    have hd : d ≠ code '-' := by
      rintro rfl
      have hdigit : isDigitByte (code '-') = true :=
        isDigitByte_of_mem_numeralBytes (n := m) (by rw [hds]; exact List.mem_cons_self)
      cases hdigit
    have hread := unsigned_ok hm false hrest
    rw [signedBytes, hds, List.cons_append] at *
    unfold numeral
    rw [get_bind]
    dsimp only
    rw [if_neg hd]
    exact hread
  | negSucc m =>
    have hm : m + 1 ≤ significandLimit := by
      rw [hleast] at hmin
      omega
    unfold numeral
    rw [signedBytes, List.cons_append, get_bind]
    dsimp only
    rw [if_pos rfl, set_bind, unsigned_ok hm true hrest, if_pos rfl, if_neg]
    · rfl
    · omega

/-- **The numeral of an integer is read as the integer.** -/
theorem reads_integer (L : Layout) (level : Nat) {low high n : Int} (hlow : low ≤ n)
    (hhigh : n ≤ high) (hmin : Int64.minValue.toInt ≤ n) (hmax : n ≤ significandLimit) :
    Reads (integer low high) ((Value.integer n).bytes L level) n := by
  have hfirst : ∀ b : UInt8, (b = code '-' || isDigitByte b) = true →
      isBlankByte b = false ∧ b ≠ code ']' ∧ b ≠ code '\x7d' := by decide +kernel
  obtain ⟨b, bs, hbs, hb⟩ := signedBytes_begins n
  rw [Value.bytes, utf8_toString]
  refine ⟨⟨b, bs, hbs, hfirst b hb⟩, fun blanks rest hblanks hrest => ?_⟩
  have hread := numeral_ok hmin hmax hrest
  rw [hbs] at hread ⊢
  rw [List.cons_append] at hread ⊢
  unfold integer
  rw [bind_ok (peek_ok hblanks (hfirst b hb).1 _), if_pos hb, bind_ok hread]
  dsimp only
  rw [if_pos ⟨hlow, hhigh⟩]
  rfl

end Reader

end Blockwork.Json
