/-!
# Base64

Bytes written with 64 symbols: three bytes are four symbols of six bits each, and one or two bytes
at the end are two or three symbols, whose unused low bits are zero. There are two alphabets. In the
standard one the end is padded to a whole quad; in the one for links it is not.

`decode` accepts exactly what `encode` writes, and gives the first fault of any other text.
-/

namespace Blockwork.Base64

/-- The variants of the encoding. -/
inductive Variant where
  /-- With `+` and `/`, and padded. -/
  | standard
  /-- With `-` and `_`, and not padded. -/
  | link
deriving Repr, DecidableEq

/-- The symbol of a number below 64. -/
def symbol (v : Variant) (n : Nat) : Char :=
  if n < 26 then Char.ofNat ('A'.toNat + n)
  else if n < 52 then Char.ofNat ('a'.toNat + (n - 26))
  else if n < 62 then Char.ofNat ('0'.toNat + (n - 52))
  else match v, n with
    | .standard, 62 => '+'
    | .standard, _ => '/'
    | .link, 62 => '-'
    | .link, _ => '_'

/-- The number of a symbol. -/
def value? (v : Variant) (byte : UInt8) : Option Nat :=
  let n := byte.toNat
  if 'A'.toNat ≤ n ∧ n ≤ 'Z'.toNat then some (n - 'A'.toNat)
  else if 'a'.toNat ≤ n ∧ n ≤ 'z'.toNat then some (n - 'a'.toNat + 26)
  else if '0'.toNat ≤ n ∧ n ≤ '9'.toNat then some (n - '0'.toNat + 52)
  else if n = (symbol v 62).toNat then some 62
  else if n = (symbol v 63).toNat then some 63
  else none

/-- The byte that fills up the last quad. -/
def pad : UInt8 := 61

/-! ### Encoding -/

/-- The padding, where the variant has it. -/
def padding (v : Variant) (n : Nat) : List Char :=
  match v with
  | .standard => List.replicate n '='
  | .link => []

/-- The symbols of bytes. -/
def encodeChars (v : Variant) : List UInt8 → List Char
  | [] => []
  | [a] =>
    let n := a.toNat * 16
    symbol v (n / 64) :: symbol v (n % 64) :: padding v 2
  | [a, b] =>
    let n := (a.toNat * 256 + b.toNat) * 4
    symbol v (n / 4096) :: symbol v (n / 64 % 64) :: symbol v (n % 64) :: padding v 1
  | a :: b :: c :: rest =>
    let n := (a.toNat * 256 + b.toNat) * 256 + c.toNat
    symbol v (n / 262144) :: symbol v (n / 4096 % 64) :: symbol v (n / 64 % 64) ::
      symbol v (n % 64) :: encodeChars v rest

/-- The text of bytes. -/
def encode (v : Variant) (bytes : List UInt8) : String :=
  String.ofList (encodeChars v bytes)

/-! ### Decoding -/

/-- Why a text is no encoding. Offsets count bytes. -/
inductive DecodeError where
  | invalidByte (offset : Nat) (byte : UInt8)
  | invalidLength
  | invalidLastSymbol (offset : Nat) (byte : UInt8)
  | invalidPadding
deriving Repr, DecidableEq

def DecodeError.message : DecodeError → String
  | invalidByte offset byte => s!"Invalid byte {byte.toNat}, offset {offset}."
  | invalidLength => "Encoded text cannot have a 6-bit remainder."
  | invalidLastSymbol offset byte => s!"Invalid last symbol {byte.toNat}, offset {offset}."
  | invalidPadding => "Invalid padding"

/-- The numbers of the symbols of a text, and where its padding begins. Padding may begin only at
the third or fourth place of a quad, it stays in that quad, and nothing follows it. `padded` is
where padding has begun, if it has. -/
def readSymbols (v : Variant) (offset : Nat) (padded : Option Nat) :
    List UInt8 → Except DecodeError (List Nat × Option Nat)
  | [] => .ok ([], padded)
  | byte :: rest =>
    if byte = pad then
      if offset % 4 < 2 then .error (.invalidByte (padded.getD offset) pad)
      else readSymbols v (offset + 1) (some (padded.getD offset)) rest
    else match padded with
      | some start => .error (.invalidByte start pad)
      | none =>
        match value? v byte with
        | none => .error (.invalidByte offset byte)
        | some n => (readSymbols v (offset + 1) none rest).map fun (ns, p) => (n :: ns, p)

/-- The bytes of symbols, and whether the unused bits of the last symbol are zero. -/
def bytesOfSymbols : List Nat → List UInt8 × Bool
  | a :: b :: c :: d :: rest =>
    let n := ((a * 64 + b) * 64 + c) * 64 + d
    let (bytes, clean) := bytesOfSymbols rest
    (UInt8.ofNat (n / 65536) :: UInt8.ofNat (n / 256 % 256) :: UInt8.ofNat (n % 256) :: bytes,
      clean)
  | [a, b, c] =>
    let n := (a * 64 + b) * 64 + c
    ([UInt8.ofNat (n / 1024), UInt8.ofNat (n / 4 % 256)], n % 4 == 0)
  | [a, b] =>
    let n := a * 64 + b
    ([UInt8.ofNat (n / 16)], n % 16 == 0)
  | _ => ([], true)

/-- Whether the padding is what the variant asks for. -/
def paddingFits (v : Variant) (length : Nat) (padded : Option Nat) : Bool :=
  match v with
  | .standard => length % 4 == 0
  | .link => padded.isNone

/-- The bytes of a text, itself given by its bytes. -/
def decode (v : Variant) (text : List UInt8) : Except DecodeError (List UInt8) := do
  -- a stray line feed at the end is told apart from a missing symbol
  if text.length % 4 = 1 then
    match text.getLast? with
    | some byte =>
      if byte ≠ pad ∧ value? v byte = none then
        throw (.invalidByte (text.length - 1) byte)
    | none => pure ()
    throw .invalidLength
  let (symbols, padded) ← readSymbols v 0 none text
  if !paddingFits v text.length padded then
    throw .invalidPadding
  match bytesOfSymbols symbols with
  | (bytes, true) => return bytes
  | (_, false) =>
    let last := symbols.length - 1
    throw (.invalidLastSymbol last (text.getD last 0))

end Blockwork.Base64
