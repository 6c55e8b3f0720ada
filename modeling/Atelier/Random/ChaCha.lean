/-!
# ChaCha blocks

The block function of the stream cipher ChaCha with twelve rounds: sixteen words made from a key of
eight words and a block number. The random source reads its bits from these blocks, so any two
sources with one key and one position agree for ever.
-/

namespace Atelier.Random.ChaCha

abbrev Key := Vector UInt32 8

abbrev Block := Vector UInt32 16

/-- The bits of a word turned to the left. -/
def rotateLeft (x : UInt32) (bits : UInt32) : UInt32 :=
  x <<< bits ||| x >>> (32 - bits)

/-- One addition, exclusive or and rotation, the unit of all mixing: word `i` grows by word `j`,
and word `k` takes the result in. -/
def mix (block : Block) (i j k : Fin 16) (bits : UInt32) : Block :=
  let block := block.set i (block[i] + block[j])
  block.set k (rotateLeft (block[k] ^^^ block[i]) bits)

/-- The quarter round on four words. -/
def quarterRound (block : Block) (a b c d : Fin 16) : Block :=
  mix (mix (mix (mix block a b d 16) c d b 12) a b d 8) c d b 7

/-- A round on the columns, then one on the diagonals. -/
def doubleRound (block : Block) : Block :=
  let block := quarterRound block 0 4 8 12
  let block := quarterRound block 1 5 9 13
  let block := quarterRound block 2 6 10 14
  let block := quarterRound block 3 7 11 15
  let block := quarterRound block 0 5 10 15
  let block := quarterRound block 1 6 11 12
  let block := quarterRound block 2 7 8 13
  quarterRound block 3 4 9 14

/-- The block before any round: the constant words, the key, the block number with its low half
first, and a stream number of zero. -/
def start (key : Key) (number : UInt64) : Block :=
  #v[0x61707865, 0x3320646e, 0x79622d32, 0x6b206574,
     key[0], key[1], key[2], key[3], key[4], key[5], key[6], key[7],
     number.toUInt32, (number >>> 32).toUInt32, 0, 0]

/-- The block of a given number: six double rounds, and the starting words added once more. -/
def block (key : Key) (number : UInt64) : Block :=
  let first := start key number
  ((Nat.repeat doubleRound 6 first).zipWith (· + ·) first)

end Atelier.Random.ChaCha
