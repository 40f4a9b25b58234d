import Mathlib
import Blockwork.Proofs.Computation
import Blockwork.Toml.Reading

/-!
# A carriage return at the end

In a document a carriage return stands in front of a line feed and nowhere else. So a text that ends
in one is no document (`Toml.exists_read_error`).

A carriage return at the end of the text is where every reader stops, since what could take it
wants to see a line feed behind it. Each reader leaves it there if it gives anything
(`Reader.Leaves`), and the reader of all statements gives something only where no text is left.
-/

namespace Blockwork.Toml

/-- A carriage return stands at the end. -/
def Returned (cs : List Char) : Prop :=
  cs.getLast? = some '\r'

/-- What does not hold of a carriage return holds of other characters only. -/
theorem ne_return {p : Char → Bool} {c : Char} (hc : p c = true) (hreturn : p '\r' = false) :
    c ≠ '\r' := by
  rintro rfl
  exact Bool.false_ne_true (hreturn.symm.trans hc)

namespace Returned

variable {c d : Char} {cs ds rest : List Char} {p : Char → Bool}

theorem not_nil : ¬ Returned [] := nofun

theorem tail_of_ne_nil (hcs : cs ≠ []) (h : Returned (c :: cs)) : Returned cs := by
  obtain ⟨d, cs, rfl⟩ := List.exists_cons_of_ne_nil hcs
  rwa [Returned, List.getLast?_cons_cons] at h

theorem tail (hc : c ≠ '\r') (h : Returned (c :: cs)) : Returned cs := by
  refine h.tail_of_ne_nil ?_
  rintro rfl
  exact hc (Option.some.inj h)

theorem of_append (hds : '\r' ∉ ds) (h : Returned (ds ++ rest)) : Returned rest := by
  induction ds with
  | nil => exact h
  | cons d ds ih =>
    obtain ⟨hd, hds⟩ := not_or.mp (List.mem_cons.not.mp hds)
    exact ih hds (h.tail (Ne.symm hd))

theorem dropWhile (hp : p '\r' = false) (h : Returned cs) : Returned (cs.dropWhile p) := by
  induction cs with
  | nil => exact h
  | cons c cs ih =>
    rw [List.dropWhile_cons]
    split
    · next hc => exact ih (h.tail (ne_return hc hp))
    · exact h

/-- A line feed stands behind the carriage return of an end of line. -/
theorem behind_lineEnd (h : Returned ('\r' :: '\n' :: cs)) : Returned cs :=
  (h.tail_of_ne_nil (List.cons_ne_nil _ _)).tail (by decide)

theorem lineEnd? (h : Returned cs) (hrest : lineEnd? cs = some rest) : Returned rest := by
  unfold Toml.lineEnd? at hrest
  split at hrest
  · cases hrest
    exact h.tail (by decide)
  · cases hrest
    exact h.behind_lineEnd
  · cases hrest

theorem skipComment (h : Returned cs) : Returned (skipComment cs) := by
  unfold Toml.skipComment
  split
  · exact (h.tail (by decide)).dropWhile rfl
  · exact h

theorem skipLines (comment : Bool) (h : Returned cs) : Returned (skipLines comment cs) := by
  fun_induction Toml.skipLines comment cs with
  | case1 => exact h
  | case2 _ cs ih => exact ih (h.tail (by decide))
  | case3 _ cs ih => exact ih h.behind_lineEnd
  | case4 c cs _ _ hc ih => exact ih (h.tail (ne_return hc rfl))
  | case5 => exact h
  | case6 c cs _ _ hc ih => exact ih (h.tail (ne_return hc rfl))
  | case7 cs _ _ _ ih => exact ih (h.tail (by decide))
  | case8 => exact h

end Returned

/-! ### Strings -/

/-- The string neither ends with the character nor could do so behind it. -/
def StringStep.GoesOn : StringStep → Prop
  | .next (.quotes _) _ | .closed _ true => False
  | _ => True

namespace StringSort

variable {sort : StringSort} {state state' : StringState} {value chars cs rest : List Char}
  {s : String}

theorem goesOn_after {step : StringStep} (h : step.GoesOn) : (step.after value).GoesOn := by
  rcases step with ⟨state, _⟩ | ⟨_, _ | _⟩ | _
  · cases state <;> exact h
  all_goals exact h

/-- A carriage return is no quote. -/
theorem goesOn_step (hquote : sort.quote ≠ '\r') : (sort.step state '\r').GoesOn := by
  -- outside an escape the character is taken or refused, and a string never ends at it
  have hplain : (sort.plainStep '\r').GoesOn := by
    unfold plainStep
    rw [if_neg hquote.symm]
    split_ifs <;> trivial
  have hjoin (passed : Bool) : (sort.joinStep passed '\r').GoesOn := trivial
  cases state with
  | plain => exact hplain
  | escape =>
    change StringStep.GoesOn (if sort.multiline then _ else _)
    split
    · exact hjoin false
    · trivial
  | codePoint left value => trivial
  | «return» => trivial
  | join passed => exact hjoin passed
  | joinReturn => trivial
  | quotes n =>
    rw [step, if_neg hquote.symm]
    split
    · trivial
    · exact goesOn_after hplain

/-- What follows a string. -/
theorem returned_of_run (hquote : sort.quote ≠ '\r') (hcs : Returned cs)
    (h : sort.run state value cs = .ok (s, rest)) : Returned rest := by
  fun_induction run sort state value cs with
  | case1 => exact absurd hcs Returned.not_nil
  | case2 => cases h
  | case3 => cases h
  | case4 state value c cs state' chars hstep ih =>
    refine ih (hcs.tail_of_ne_nil ?_) h
    rintro rfl
    obtain rfl : c = '\r' := Option.some.inj hcs
    -- only behind quotes can a string end with the text
    have hgoes : (sort.step state '\r').GoesOn := goesOn_step hquote
    rw [hstep] at hgoes
    cases state' with
    | quotes n => exact hgoes
    | _ => cases h
  | case5 state value c cs chars included hstep =>
    cases h
    cases included with
    | false => exact hcs
    | true =>
      refine hcs.tail ?_
      rintro rfl
      have hgoes : (sort.step state '\r').GoesOn := goesOn_step hquote
      rwa [hstep] at hgoes
  | case6 => cases h

end StringSort

/-! ### Dates and times -/

theorem returned_of_number? {count n : Nat} {cs rest : List Char} (hcs : Returned cs)
    (h : number? count cs = some (n, rest)) : Returned rest := by
  unfold number? at h
  dsimp only at h
  split at h
  · next hdigits =>
    cases h
    rw [← List.take_append_drop count cs] at hcs
    refine hcs.of_append fun hmem => ?_
    have hdigit := List.all_eq_true.mp (Bool.and_eq_true_iff.mp hdigits).2 _ hmem
    exact absurd hdigit (by decide)
  · cases h

theorem returned_of_numberIn? {low high n : Nat} {cs rest : List Char} (hcs : Returned cs)
    (h : numberIn? low high cs = some (n, rest)) : Returned rest :=
  returned_of_number? hcs (Option.filter_eq_some_iff.mp h).1

theorem returned_of_after? {c : Char} {cs rest : List Char} (hc : c ≠ '\r') (hcs : Returned cs)
    (h : after? c cs = some rest) : Returned rest := by
  cases cs with
  | nil => cases h
  | cons d cs =>
    change (if d = c then some cs else none) = some rest at h
    split at h
    · next hd =>
      cases h
      exact hcs.tail (hd ▸ hc)
    · cases h

theorem returned_of_skipHour? {cs rest : List Char} (hcs : Returned cs)
    (h : skipHour? cs = some rest) : Returned rest := by
  obtain ⟨⟨n, cs'⟩, hnumber, h⟩ := Option.bind_eq_some_iff.mp h
  exact returned_of_after? (by decide) (returned_of_numberIn? hcs hnumber) h

theorem returned_of_skipMonthAndDay? {year : Nat} {cs rest : List Char} (hcs : Returned cs)
    (h : skipMonthAndDay? year cs = some rest) : Returned rest := by
  obtain ⟨⟨month, cs₁⟩, hmonth, h⟩ := Option.bind_eq_some_iff.mp h
  obtain ⟨cs₂, hhyphen, h⟩ := Option.bind_eq_some_iff.mp h
  obtain ⟨⟨day, cs₃⟩, hday, h⟩ := Option.bind_eq_some_iff.mp h
  cases h
  have hcs₂ := returned_of_after? (by decide) (returned_of_numberIn? hcs hmonth) hhyphen
  exact returned_of_numberIn? hcs₂ hday

theorem returned_of_skipMinutes? {cs rest : List Char} (hcs : Returned cs)
    (h : skipMinutes? cs = some rest) : Returned rest := by
  obtain ⟨⟨minute, cs₁⟩, hminute, h⟩ := Option.bind_eq_some_iff.mp h
  obtain ⟨cs₂, hcolon, h⟩ := Option.bind_eq_some_iff.mp h
  obtain ⟨⟨second, cs₃⟩, hsecond, h⟩ := Option.bind_eq_some_iff.mp h
  have hcs₂ := returned_of_after? (by decide) (returned_of_numberIn? hcs hminute) hcolon
  have hcs₃ := returned_of_numberIn? hcs₂ hsecond
  dsimp only at h
  split at h
  · next d rest' =>
    cases h
    split
    · next hd =>
      have hpoint := hcs₃.tail (by decide)
      exact (hpoint.tail (ne_return hd rfl)).dropWhile rfl
    · exact hcs₃
  · cases h
    exact hcs₃

theorem returned_of_skipOffset? {cs rest : List Char} (hcs : Returned cs)
    (h : skipOffset? cs = some rest) : Returned rest := by
  unfold skipOffset? at h
  split at h
  · next c cs =>
    split at h
    · next hc =>
      cases h
      exact hcs.tail (by rcases hc with rfl | rfl <;> decide)
    · split at h
      · next hc =>
        have hcs := hcs.tail (by rcases hc with rfl | rfl <;> decide)
        obtain ⟨cs', hhour, h⟩ := Option.bind_eq_some_iff.mp h
        obtain ⟨⟨n, rest'⟩, hnumber, h⟩ := Option.bind_eq_some_iff.mp h
        cases h
        exact returned_of_numberIn? (returned_of_skipHour? hcs hhour) hnumber
      · cases h
        exact hcs
  · exact absurd hcs Returned.not_nil

theorem returned_of_skipTimeOfDate? {cs rest : List Char} (hcs : Returned cs)
    (h : skipTimeOfDate? cs = some rest) : Returned rest := by
  unfold skipTimeOfDate? at h
  split at h
  · next c cs =>
    split at h
    · next hc =>
      split at h
      · next cs' hhour =>
        have hcs := hcs.tail (by rcases hc with rfl | rfl | rfl <;> decide)
        obtain ⟨cs'', hminutes, h⟩ := Option.bind_eq_some_iff.mp h
        exact returned_of_skipOffset?
          (returned_of_skipMinutes? (returned_of_skipHour? hcs hhour) hminutes) h
      · cases h
        exact hcs
    · cases h
      exact hcs
  · exact absurd hcs Returned.not_nil

/-- What follows a date or a time. -/
theorem returned_of_skipMoment {cs rest : List Char} (hcs : Returned cs)
    (h : skipMoment cs = .ok (some rest)) : Returned rest := by
  unfold skipMoment at h
  dsimp only at h
  split at h
  · next year cs' hyear =>
    split at h
    · next rest' hrest =>
      cases h
      obtain ⟨cs'', hday, h⟩ := Option.bind_eq_some_iff.mp hrest
      -- behind the year comes a hyphen
      have hcs' := (returned_of_number? hcs hyear).tail (by decide)
      exact returned_of_skipTimeOfDate? (returned_of_skipMonthAndDay? hcs' hday) h
    · cases h
  · split at h
    · next cs' hhour =>
      split at h
      · next rest' hrest =>
        cases h
        exact returned_of_skipMinutes? (returned_of_skipHour? hcs hhour) hrest
      · cases h
    · cases h

/-! ### Readers -/

namespace Reader

variable {α β : Type} {cs : List Char} {Q : List Char → Prop}

/-- What is left is so, if a value is read from a text that ends in a carriage return. -/
def Leads (Q : List Char → Prop) (x : Reader α) (cs : List Char) : Prop :=
  Returned cs → ∀ a rest, x cs = .ok (a, rest) → Q rest

/-- The carriage return is still there, whatever is read. -/
def Leaves (x : Reader α) : Prop :=
  ∀ cs, Leads Returned x cs

theorem leads_pure (a : α) (h : Returned cs → Q cs) : Leads Q (pure a : Reader α) cs := by
  rintro hcs b rest ⟨⟩
  exact h hcs

theorem leads_fail : Leads Q (fail : Reader α) cs := by
  rintro - a rest ⟨⟩

theorem Leads.bind {x : Reader α} {f : α → Reader β} (hx : Leads Returned x cs)
    (hf : ∀ a cs, Leads Q (f a) cs) : Leads Q (x >>= f) cs := by
  intro hcs b rest h
  change (x cs >>= fun p => f p.1 p.2) = _ at h
  cases hxcs : x cs with
  | error e =>
    rw [hxcs] at h
    cases h
  | ok p =>
    rw [hxcs] at h
    exact hf p.1 p.2 (hx hcs p.1 p.2 hxcs) b rest h

theorem Leaves.bind {x : Reader α} {f : α → Reader β} (hx : Leaves x) (hf : ∀ a, Leaves (f a)) :
    Leaves (x >>= f) :=
  fun cs => (hx cs).bind hf

theorem leaves_pure (a : α) : Leaves (pure a : Reader α) :=
  fun _ => leads_pure a id

/-- What is ahead is known, and it is not the end of the text. -/
theorem leads_ahead {f : Option Char → Reader β} (h : ∀ c cs, Leads Q (f (some c)) (c :: cs)) :
    Leads Q (ahead? >>= f) cs := by
  cases cs with
  | nil => exact fun hcs => absurd hcs Returned.not_nil
  | cons c cs => exact h c cs

theorem leads_drop {c : Char} (hc : c ≠ '\r') {f : Unit → Reader β} (h : Leads Q (f ()) cs) :
    Leads Q (drop >>= f) (c :: cs) :=
  fun hcs => h (hcs.tail hc)

theorem leads_get {f : List Char → Reader β} (h : Leads Q (f cs) cs) :
    Leads Q (get >>= f) cs :=
  h

theorem leads_set {cs' : List Char} {f : Unit → Reader β} (hcs' : Returned cs → Returned cs')
    (h : Leads Q (f ()) cs') : Leads Q (set cs' >>= f) cs :=
  fun hcs => h (hcs' hcs)

theorem leaves_modify {g : List Char → List Char} (hg : ∀ cs, Returned cs → Returned (g cs)) :
    Leaves (modify g : Reader Unit) := by
  rintro cs hcs a rest ⟨⟩
  exact hg cs hcs

theorem leaves_exactly {c : Char} (hc : c ≠ '\r') : Leaves (exactly c) := by
  intro cs
  refine leads_get ?_
  cases cs with
  | nil => exact leads_fail
  | cons d cs =>
    dsimp only
    split
    · next hd =>
      rintro hcs a rest ⟨⟩
      exact hcs.tail (hd ▸ hc)
    · exact leads_fail

/-! ### Numbers -/

theorem returned_of_digitsFrom {isDigit : Char → Bool} (hreturn : isDigit '\r' = false)
    {first : Bool} {ds rest : List Char} (hcs : Returned cs)
    (h : digitsFrom isDigit first cs = .ok (ds, rest)) : Returned rest := by
  fun_induction digitsFrom isDigit first cs generalizing ds rest with
  | case1 => cases h
  | case2 first d cs hd ih =>
    obtain ⟨⟨ds', rest'⟩, hrest, h⟩ := except_map_eq_ok h
    cases h
    -- an underscore stands between two digits only
    have hd' : isDigit d = true := by simp_all
    exact ih ((hcs.tail (by decide)).tail (ne_return hd' hreturn)) hrest
  | case3 first c cs _ hc ih =>
    obtain ⟨⟨ds', rest'⟩, hrest, h⟩ := except_map_eq_ok h
    cases h
    exact ih (hcs.tail (ne_return hc hreturn)) hrest
  | case4 => cases h
  | case5 =>
    cases h
    exact hcs
  | case6 => cases h
  | case7 => exact absurd hcs Returned.not_nil

theorem leads_lift {x : Except Fault α} {f : α → Reader β} (h : ∀ a, x = .ok a → Leads Q (f a) cs) :
    Leads Q (liftM x >>= f) cs := by
  cases x with
  | error e => rintro - b rest ⟨⟩
  | ok a => exact h a rfl

theorem leaves_digits {isDigit : Char → Bool} (hreturn : isDigit '\r' = false) :
    Leaves (digits isDigit) := by
  intro cs
  refine leads_get (leads_lift fun p hp => leads_set (fun hcs => ?_) (leads_pure _ id))
  exact returned_of_digitsFrom hreturn hcs hp

theorem leaves_word {w : String} (hw : '\r' ∉ w.toList) : Leaves (word w) := by
  unfold word
  generalize w.toList = cs at hw
  induction cs with
  | nil => exact leaves_pure _
  | cons c cs ih =>
    obtain ⟨hc, hcs⟩ := not_or.mp (List.mem_cons.not.mp hw)
    exact (leaves_exactly (Ne.symm hc)).bind fun _ => ih hcs

theorem leaves_sign : Leaves sign := by
  intro cs
  refine leads_ahead fun c cs => ?_
  dsimp only
  split
  · next hc => exact leads_drop (by rcases hc with rfl | rfl <;> decide) (leads_pure _ id)
  · exact leads_pure _ id

theorem leaves_wholeDigits : Leaves wholeDigits := by
  intro cs
  refine leads_ahead fun c cs => ?_
  split
  · next hc =>
    cases hc
    exact leads_drop (by decide) (leads_pure _ id)
  · exact leaves_digits rfl _

theorem leaves_exponent : Leaves exponent := by
  intro cs
  refine leads_ahead fun c cs => ?_
  dsimp only
  split
  · next hc =>
    refine leads_drop (by rcases hc with rfl | rfl <;> decide) ?_
    exact leaves_sign.bind (fun _ => (leaves_digits rfl).bind fun _ => leaves_pure _) _
  · exact leads_pure _ id

theorem leaves_fraction : Leaves fraction := by
  intro cs
  refine leads_ahead fun c cs => ?_
  split
  · next hc =>
    cases hc
    refine leads_drop (by decide) ?_
    exact (leaves_digits rfl).bind (fun _ => leaves_pure _) _
  · exact leads_pure _ id

theorem leaves_fail : Leaves (fail : Reader α) :=
  fun _ => leads_fail

theorem leaves_integerInBase (base : Nat) : Leaves (integerInBase base) := by
  refine (leaves_digits rfl).bind fun ds => ?_
  dsimp only
  split
  · exact leaves_pure _
  · exact leaves_fail

theorem leaves_decimalInteger (signed ds : List Char) : Leaves (decimalInteger signed ds) := by
  unfold decimalInteger
  dsimp only
  split_ifs
  all_goals first | exact leaves_pure _ | exact leaves_fail

theorem leaves_plainNumber : Leaves plainNumber := by
  intro cs
  refine leads_get ?_
  -- a prefix of a base is two characters, and neither is a carriage return
  split
  · exact leads_set (fun hcs => (hcs.tail (by decide)).tail (by decide)) (leaves_integerInBase 16 _)
  · exact leads_set (fun hcs => (hcs.tail (by decide)).tail (by decide)) (leaves_integerInBase 8 _)
  · exact leads_set (fun hcs => (hcs.tail (by decide)).tail (by decide)) (leaves_integerInBase 2 _)
  · refine leaves_sign.bind (fun signed cs => ?_) _
    refine leads_ahead fun c cs => ?_
    split
    · exact (leaves_word (by decide)).bind (fun _ => leaves_pure _) _
    refine leads_ahead fun c cs => ?_
    split
    · exact (leaves_word (by decide)).bind (fun _ => leaves_pure _) _
    refine leaves_wholeDigits.bind (fun whole => leaves_fraction.bind fun _ =>
      leaves_exponent.bind fun _ => ?_) _
    dsimp only
    split
    · exact leaves_decimalInteger _ _
    split
    · split
      · exact leaves_fail
      · exact leaves_pure _
    · exact leaves_fail

theorem leaves_number : Leaves number := by
  intro cs
  refine leads_get (leads_lift fun found hfound => ?_)
  cases found with
  | none => exact leaves_plainNumber cs
  | some rest =>
    exact leads_set (fun hcs => returned_of_skipMoment hcs hfound) (leads_pure _ id)

/-! ### Strings and keys -/

theorem leaves_stringRest {sort : StringSort} (hquote : sort.quote ≠ '\r') :
    Leaves (stringRest sort) := by
  intro cs
  refine leads_get (leads_lift fun p hp => leads_set (fun hcs => ?_) (leads_pure _ id))
  exact StringSort.returned_of_run hquote hcs hp

theorem leaves_string : Leaves string := by
  have hlong {c : Char} (hc : c ≠ '\r') {rest : List Char} (h : Returned (c :: c :: c :: rest)) :
      Returned ((lineEnd? rest).getD rest) := by
    have hrest := ((h.tail hc).tail hc).tail hc
    cases hend : lineEnd? rest with
    | none => exact hrest
    | some rest' => exact hrest.lineEnd? hend
  intro cs
  refine leads_get ?_
  split
  · exact leads_set (hlong (by decide)) (leaves_stringRest (by decide) _)
  · exact leads_set (hlong (by decide)) (leaves_stringRest (by decide) _)
  · exact leads_set (Returned.tail (by decide)) (leaves_stringRest (by decide) _)
  · exact leads_set (Returned.tail (by decide)) (leaves_stringRest (by decide) _)
  · exact leads_fail

theorem leaves_blanks : Leaves blanks :=
  leaves_modify fun _ hcs => hcs.dropWhile rfl

theorem leaves_keyPart : Leaves keyPart := by
  intro cs
  refine leads_get ?_
  split
  · exact leads_set (Returned.tail (by decide)) (leaves_stringRest (by decide) _)
  · exact leads_set (Returned.tail (by decide)) (leaves_stringRest (by decide) _)
  · dsimp only
    split
    · exact leads_fail
    · exact leads_set (Returned.dropWhile rfl) (leads_pure _ id)

theorem leaves_key (room : Nat) : Leaves (key room) := by
  induction room with
  | zero => exact leaves_fail
  | succ room ih =>
    refine leaves_blanks.bind fun _ => leaves_keyPart.bind fun _ => leaves_blanks.bind fun _ => ?_
    refine fun cs => leads_ahead fun c cs => ?_
    split
    · next hc =>
      cases hc
      exact leads_drop (by decide) (ih.bind (fun _ => leaves_pure _) _)
    · exact leads_pure _ id

/-! ### Values -/

theorem leaves_lines : Leaves lines :=
  leaves_modify fun _ => Returned.skipLines false

variable {element : Reader Value}

theorem leaves_elements (helement : Leaves element) (bound : Nat) :
    Leaves (elements element bound) := by
  induction bound with
  | zero => exact leaves_fail
  | succ bound ih =>
    refine leaves_lines.bind fun _ cs => leads_ahead fun c cs => ?_
    split
    · next hc =>
      cases hc
      exact leads_drop (by decide) (leads_pure _ id)
    refine helement.bind (fun v => leaves_lines.bind fun _ cs => leads_ahead fun c cs => ?_) _
    split
    · next hc =>
      cases hc
      exact leads_drop (by decide) (ih.bind (fun _ => leaves_pure _) _)
    · exact (leaves_exactly (by decide)).bind (fun _ => leaves_pure _) _

theorem leaves_members (helement : Leaves element) (bound : Nat) (es : Entries) :
    Leaves (members element bound es) := by
  induction bound generalizing es with
  | zero => exact leaves_fail
  | succ bound ih =>
    refine (leaves_key _).bind fun p => (leaves_exactly (by decide)).bind fun _ =>
      leaves_blanks.bind fun _ => helement.bind fun v => leaves_blanks.bind fun _ cs => ?_
    refine leads_lift fun es _ => leads_ahead fun c cs => ?_
    split
    · next hc =>
      cases hc
      exact leads_drop (by decide) (ih es _)
    · exact (leaves_exactly (by decide)).bind (fun _ => leaves_pure _) _

theorem leaves_valueAround (bound : Nat) {inner : Option (Reader Value)}
    (hinner : ∀ element ∈ inner, Leaves element) : Leaves (valueAround bound inner) := by
  intro cs
  refine leads_ahead fun c cs => ?_
  split
  · exact leaves_string.bind (fun _ => leaves_pure _) _
  · exact leaves_string.bind (fun _ => leaves_pure _) _
  · exact (leaves_word (by decide)).bind (fun _ => leaves_pure _) _
  · exact (leaves_word (by decide)).bind (fun _ => leaves_pure _) _
  · exact leaves_plainNumber _
  · exact leaves_plainNumber _
  · next hc =>
    cases hc
    -- values in values are read only as far as the room goes
    cases inner with
    | none => exact leads_fail
    | some element =>
      refine leads_drop (by decide) ?_
      exact (leaves_elements (hinner element rfl) bound).bind (fun _ => leaves_pure _) _
  · next hc =>
    cases hc
    cases inner with
    | none => exact leads_fail
    | some element =>
      refine leads_drop (by decide) (leaves_blanks.bind (fun _ cs => ?_) _)
      refine leads_ahead fun c cs => ?_
      split
      · next hc =>
        cases hc
        exact leads_drop (by decide) (leads_pure _ id)
      · exact (leaves_members (hinner element rfl) bound []).bind (fun _ => leaves_pure _) _
  · split
    · exact leaves_number _
    · exact leads_fail
  · exact leads_fail

theorem leaves_value (bound room : Nat) : Leaves (value bound room) := by
  induction room with
  | zero => exact leaves_valueAround bound nofun
  | succ room ih =>
    refine leaves_valueAround bound fun element helement => ?_
    cases helement
    exact ih

/-! ### Statements -/

theorem leaves_endOfLine : Leaves endOfLine := by
  refine (leaves_modify fun cs hcs => (hcs.dropWhile rfl).skipComment).bind fun _ cs => ?_
  refine leads_get ?_
  split
  · exact leads_pure _ id
  · split
    · next hrest =>
      rintro hcs a rest ⟨⟩
      exact hcs.lineEnd? hrest
    · exact leads_fail

theorem leads_header (d : Document) : Leads Returned (header d) ('[' :: cs) := by
  refine leads_drop (by decide) (leads_ahead fun c cs => ?_)
  split
  · next hc =>
    cases hc
    refine leads_drop (by decide) ?_
    exact (leaves_key _).bind (fun p => (leaves_word (by decide)).bind fun _ =>
      leaves_endOfLine.bind fun _ cs => leads_lift fun es _ => leads_pure _ id) _
  · exact (leaves_key _).bind (fun p => (leaves_exactly (by decide)).bind fun _ =>
      leaves_endOfLine.bind fun _ cs => leads_lift fun es _ => leads_pure _ id) _

theorem leaves_assignment (bound : Nat) (d : Document) : Leaves (assignment bound d) :=
  (leaves_key _).bind fun p => (leaves_exactly (by decide)).bind fun _ =>
    leaves_blanks.bind fun _ => (leaves_value _ _).bind fun v =>
      leaves_endOfLine.bind fun _ cs => leads_lift fun es _ => leads_pure _ id

/-- The statements do not end before a carriage return. -/
theorem leads_statements (bound steps : Nat) (d : Document) :
    Leads (fun _ => False) (statements bound steps d) cs := by
  induction steps generalizing d cs with
  | zero => exact leads_fail
  | succ steps ih =>
    refine Leads.bind (leaves_lines cs) fun _ cs => leads_ahead fun c cs => ?_
    split
    · -- only at the end of the text would the statements end
      next hc => cases hc
    · next hc =>
      cases hc
      exact Leads.bind (leads_header d) fun d cs => ih d
    · exact Leads.bind (leaves_assignment bound d _) fun d cs => ih d

end Reader

/-- **A text that ends in a carriage return is no document.** -/
theorem exists_read_error {text : String} (h : Returned text.toList) :
    ∃ fault, read text = .error fault := by
  cases hread : read text with
  | error fault => exact ⟨fault, rfl⟩
  | ok es =>
    obtain ⟨⟨d, rest⟩, hstatements, -⟩ := except_bind_eq_ok hread
    refine (Reader.leads_statements _ _ _ ?_ d rest hstatements).elim
    split
    · next cs hcs =>
      rw [hcs] at h
      exact h.tail (by decide)
    · exact h

end Blockwork.Toml
