import Atelier.Random.ChaCha

/-!
# The generator

A generator is a key and a position in the stream of that key. Taking a number only moves the
position: what comes next depends on these two and on nothing else.

* `ofSeed` spreads a seed of 64 bits over the key.
* `next` is the next 64 bits, `unit` the next number in [0, 1).
-/

namespace Atelier.Random

/-- A place in the stream of a key, counted in words of 64 bits. -/
structure Generator where
  key : ChaCha.Key
  position : Nat
deriving DecidableEq

namespace Generator

/-- One step of the sequence that spreads a seed. -/
def spread (state : UInt64) : UInt64 :=
  state * 6364136223846793005 + 11634580027462260723

/-- The key word of a state of that sequence: its upper bits folded, and turned to the right by its
topmost five. -/
def keyWord (state : UInt64) : UInt32 :=
  let folded := (((state >>> 18) ^^^ state) >>> 27).toUInt32
  let turn := (state >>> 59).toUInt32
  folded >>> turn ||| folded <<< ((32 - turn) % 32)

/-- The generator of a seed: key word `i` is made from the state after `i + 1` steps. -/
def ofSeed (seed : UInt64) : Generator where
  key := .ofFn fun i => keyWord (Nat.repeat spread (i + 1) seed)
  position := 0

/-- The next 64 bits: two words of the block, the low half first. -/
def next (g : Generator) : UInt64 × Generator :=
  let block := ChaCha.block g.key (.ofNat (g.position / 8))
  let i := 2 * (g.position % 8)
  (block[i].toUInt64 ||| block[i + 1].toUInt64 <<< 32, { g with position := g.position + 1 })

/-- The next number in [0, 1): the upper 53 bits as a fraction. -/
def unit (g : Generator) : Float × Generator :=
  let (bits, g) := g.next
  ((bits >>> 11).toFloat * .ofBits 0x3ca0000000000000, g)

/-- The next number in (0, 1), zero left out: the upper 52 bits and half a step. -/
def openUnit (g : Generator) : Float × Generator :=
  let (bits, g) := g.next
  (.ofBits (bits >>> 12 ||| 0x3ff0000000000000) - .ofBits 0x3fefffffffffffff, g)

/-- The number of words after which the stream of a key starts over: eight in each of the `2^64`
blocks. -/
def period : Nat := Nat.pow 2 67

/-- Repeats an attempt until it gives a result, at most `fuel` times. -/
def retry {α : Type} (attempt : Generator → Option α × Generator) :
    Nat → Generator → Option α × Generator
  | 0, g => (none, g)
  | fuel + 1, g =>
    match attempt g with
    | (some a, g) => (some a, g)
    | (none, g) => retry attempt fuel g

/-- Repeats an attempt until it gives a result. An attempt that has failed all round the stream
would fail for ever; it then counts as the given default. -/
def untilSome {α : Type} (default : α) (attempt : Generator → Option α × Generator)
    (g : Generator) : α × Generator :=
  match retry attempt period g with
  | (some a, g) => (a, g)
  | (none, g) => (default, g)

end Generator

end Atelier.Random
