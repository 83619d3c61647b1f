import CurrentDrift.Random.Source

/-!
# The ChaCha generator

The ChaCha stream cipher with twelve rounds, run over zeros, as a source of random words. A seed of
64 bits is spread over the key by a congruential generator with a permuted output.
-/

namespace CurrentDrift

namespace ChaCha

def rotateLeft (x : UInt32) (n : UInt32) : UInt32 := (x <<< n) ||| (x >>> (32 - n))

def rotateRight (x : UInt32) (n : UInt32) : UInt32 := (x >>> n) ||| (x <<< (32 - n))

abbrev Block := Vector UInt32 16

/-- Adds, mixes and rotates four words of a block in place. -/
def quarterRound (a b c d : Fin 16) (s : Block) : Block :=
  let s := s.set a (s[a] + s[b])
  let s := s.set d (rotateLeft (s[d] ^^^ s[a]) 16)
  let s := s.set c (s[c] + s[d])
  let s := s.set b (rotateLeft (s[b] ^^^ s[c]) 12)
  let s := s.set a (s[a] + s[b])
  let s := s.set d (rotateLeft (s[d] ^^^ s[a]) 8)
  let s := s.set c (s[c] + s[d])
  s.set b (rotateLeft (s[b] ^^^ s[c]) 7)

/-- A round on the columns of a block and one on its diagonals. -/
def doubleRound (s : Block) : Block :=
  let s := quarterRound 0 4 8 12 s
  let s := quarterRound 1 5 9 13 s
  let s := quarterRound 2 6 10 14 s
  let s := quarterRound 3 7 11 15 s
  let s := quarterRound 0 5 10 15 s
  let s := quarterRound 1 6 11 12 s
  let s := quarterRound 2 7 8 13 s
  quarterRound 3 4 9 14 s

def doubleRounds : Nat → Block → Block
  | 0, s => s
  | n + 1, s => doubleRounds n (doubleRound s)

/-- The block before the rounds: constants, key, counter, and a nonce of zero. -/
def initialBlock (key : Vector UInt32 8) (counter : UInt64) : Block :=
  #v[0x61707865, 0x3320646e, 0x79622d32, 0x6b206574,
     key[0], key[1], key[2], key[3], key[4], key[5], key[6], key[7],
     counter.toUInt32, (counter >>> 32).toUInt32, 0, 0]

/-- The words of the stream for one value of the counter. -/
def block (key : Vector UInt32 8) (counter : UInt64) : Block :=
  let start := initialBlock key counter
  Vector.zipWith (· + ·) (doubleRounds 6 start) start

/-- The next state of the congruential generator that spreads a seed. -/
def spread (state : UInt64) : UInt64 := state * 6364136223846793005 + 11634580027462260723

/-- The word that a state of that generator puts out. -/
def spreadWord (state : UInt64) : UInt32 :=
  rotateRight (((state >>> 18) ^^^ state) >>> 27).toUInt32 (state >>> 59).toUInt32

/-- The key of a seed. -/
def keyOfSeed (seed : UInt64) : Vector UInt32 8 :=
  let s0 := spread seed
  let s1 := spread s0
  let s2 := spread s1
  let s3 := spread s2
  let s4 := spread s3
  let s5 := spread s4
  let s6 := spread s5
  let s7 := spread s6
  #v[spreadWord s0, spreadWord s1, spreadWord s2, spreadWord s3,
     spreadWord s4, spreadWord s5, spreadWord s6, spreadWord s7]

end ChaCha

/-- A place in the stream of a key: the next block, and the words of the last one that are left. -/
structure ChaCha where
  key : Vector UInt32 8
  counter : UInt64
  left : List UInt32
  deriving Repr, DecidableEq

namespace ChaCha

/-- The beginning of the stream of a seed. -/
def ofSeed (seed : UInt64) : ChaCha := ⟨keyOfSeed seed, 0, []⟩

/-- Where there is no seed, the stream may be any; it is that of zero. -/
def seeding : Seeding ChaCha := fun seed => ofSeed (seed.getD 0)

/-- Two words of the stream as one, the first being the lower half. -/
def pair (low high : UInt32) : UInt64 := low.toUInt64 ||| (high.toUInt64 <<< 32)

/-- The first words of a new block. -/
def nextBlock (c : ChaCha) : UInt64 × ChaCha :=
  let b := block c.key c.counter
  (pair b[0] b[1], ⟨c.key, c.counter + 1, b.toList.drop 2⟩)

/-- Blocks hold an even number of words, so that no pair spans two of them. -/
def next (c : ChaCha) : UInt64 × ChaCha :=
  match c.left with
  | low :: high :: left => (pair low high, { c with left })
  | _ => c.nextBlock

end ChaCha

instance : WordSource ChaCha where
  next := ChaCha.next

end CurrentDrift
