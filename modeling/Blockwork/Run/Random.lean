/-!
# Random places

Sprites are placed by a random sequence that a seed fixes. The seed is spread to a key of eight
words by a permuted congruential generator, and the key drives the ChaCha stream of twelve rounds,
with its block counter as the only thing that changes. The sequence is a function of the seed and
of an index (`Random.word`), so there is no generator state to carry along.
-/

namespace Blockwork.Run.Random

/-- A block of the stream, and the state it is computed in. -/
abbrev Block := Vector UInt32 16

/-- A word rotated to the left. -/
def rotateLeft (x : UInt32) (n : UInt32) : UInt32 :=
  (x <<< n) ||| (x >>> (32 - n))

/-- A word rotated to the right, by no place at all if the amount is a multiple of 32. -/
def rotateRight (x : UInt32) (n : UInt32) : UInt32 :=
  if n % 32 = 0 then x else rotateLeft x (32 - n % 32)

/-! ### The key -/

/-- The state of the spreading generator after one step. -/
def spreadState (s : UInt64) : UInt64 :=
  s * 6364136223846793005 + 11634580027462260723

/-- The word that the spreading generator gives in a state. -/
def spreadWord (s : UInt64) : UInt32 :=
  rotateRight (((s >>> 18) ^^^ s) >>> 27).toUInt32 (s >>> 59).toUInt32

/-- The words of the spreading generator. -/
def spread : Nat → UInt64 → List UInt32
  | 0, _ => []
  | n + 1, s => spreadWord (spreadState s) :: spread n (spreadState s)

/-- The key of a seed. -/
def key (seed : UInt64) : List UInt32 :=
  spread 8 seed

/-! ### The stream -/

/-- Mix four words of the state. -/
def quarterRound (a b c d : Fin 16) (v : Block) : Block :=
  let v := v.set a (v[a] + v[b])
  let v := v.set d (rotateLeft (v[d] ^^^ v[a]) 16)
  let v := v.set c (v[c] + v[d])
  let v := v.set b (rotateLeft (v[b] ^^^ v[c]) 12)
  let v := v.set a (v[a] + v[b])
  let v := v.set d (rotateLeft (v[d] ^^^ v[a]) 8)
  let v := v.set c (v[c] + v[d])
  v.set b (rotateLeft (v[b] ^^^ v[c]) 7)

/-- A round over the columns and one over the diagonals. -/
def doubleRound (v : Block) : Block :=
  let v := quarterRound 0 4 8 12 v
  let v := quarterRound 1 5 9 13 v
  let v := quarterRound 2 6 10 14 v
  let v := quarterRound 3 7 11 15 v
  let v := quarterRound 0 5 10 15 v
  let v := quarterRound 1 6 11 12 v
  let v := quarterRound 2 7 8 13 v
  quarterRound 3 4 9 14 v

/-- The state before the rounds: four constants, the key, the block counter, and an empty nonce. -/
def startBlock (seed : UInt64) (counter : UInt64) : Block :=
  let k := key seed
  #v[0x61707865, 0x3320646e, 0x79622d32, 0x6b206574,
    k.getD 0 0, k.getD 1 0, k.getD 2 0, k.getD 3 0,
    k.getD 4 0, k.getD 5 0, k.getD 6 0, k.getD 7 0,
    counter.toUInt32, (counter >>> 32).toUInt32, 0, 0]

/-- A block of the stream: the state after six double rounds, added to the one before. -/
def block (seed : UInt64) (counter : UInt64) : Block :=
  let start := startBlock seed counter
  -- two rounds each make twelve
  let mixed := Nat.repeat doubleRound 6 start
  Vector.zipWith (· + ·) start mixed

/-- The words of the stream, taken two by two, the lower half first. -/
def word (seed : UInt64) (index : Nat) : UInt64 :=
  let b := (block seed (UInt64.ofNat (index / 8))).toList
  let i := 2 * (index % 8)
  (b.getD i 0).toUInt64 ||| (b.getD (i + 1) 0).toUInt64 <<< 32

/-- The numbers of the sequence, from zero up to, and without, one. -/
def unit (seed : UInt64) (index : Nat) : Float :=
  (word seed index >>> 12).toFloat / 4503599627370496

end Blockwork.Run.Random
