import Atelier.Random.Ziggurat

/-!
# The random source

The generator in use together with the number of draws taken from it. A draw counts once however
much of the stream it takes, and choosing a new seed replaces the generator but not the count.
-/

namespace Atelier.Random

/-- A generator and the number of draws so far. The number has no bound here; a counter of 64 bits
shows the same one as long as there were fewer than `2^64` draws. -/
structure Source where
  generator : Generator
  draws : Nat
deriving DecidableEq

namespace Source

/-- The source of a seed, before any draw. -/
def ofSeed (seed : UInt64) : Source :=
  ⟨.ofSeed seed, 0⟩

/-- Starts the stream of a seed; the count goes on. -/
def reseed (s : Source) (seed : UInt64) : Source :=
  { s with generator := .ofSeed seed }

/-- Takes one number by a rule on the generator, and counts it. -/
def draw (rule : Generator → Float × Generator) (s : Source) : Float × Source :=
  let (x, generator) := rule s.generator
  (x, ⟨generator, s.draws + 1⟩)

/-- Draws from the uniform distribution on [0, 1). -/
def unit (s : Source) : Float × Source :=
  s.draw Generator.unit

def standardNormal (s : Source) : Float × Source :=
  s.draw Ziggurat.standardNormal

@[simp] theorem reseed_draws (s : Source) (seed : UInt64) : (s.reseed seed).draws = s.draws := rfl

end Source

end Atelier.Random
