import Atelier.Number.Written
import Atelier.Random.Source

/-!
# Distributions

A distribution says which random number is wanted. It belongs to one of two families, uniform and
normal, and the family alone decides how much of the random stream a sample takes: the parameters
only place the number that was drawn (`Distribution.place`).
-/

namespace Atelier

/-- A random number to be drawn. Neither the order of the bounds nor the sign of the spread is
restricted. -/
inductive Distribution where
  | uniformFloat (low high : Float)
  | uniformInt (low high : Int)
  | normalFloat (mean deviation : Float)
  | normalInt (mean deviation : Float)
deriving DecidableEq

namespace Distribution

/-- The two kinds of standard numbers that are drawn. -/
inductive Family where
  | uniform
  | normal
deriving DecidableEq, Repr

def family : Distribution → Family
  | uniformFloat .. | uniformInt .. => .uniform
  | normalFloat .. | normalInt .. => .normal

def Family.draw : Family → Random.Source → Float × Random.Source
  | uniform, s => s.unit
  | normal, s => s.standardNormal

/-- Whether samples are whole numbers. -/
def isDiscrete : Distribution → Bool
  | uniformFloat .. | normalFloat .. => false
  | uniformInt .. | normalInt .. => true

/-- The sample that a standard number stands for. -/
def place : Distribution → Float → Float
  | uniformFloat low high, u => low + (high - low) * u
  | uniformInt low high, u => Number.truncate (.ofInt low + (.ofInt high - .ofInt low) * u)
  | normalFloat mean deviation, z => mean + deviation * z
  | normalInt mean deviation, z => Number.truncate (mean + deviation * z)

def sample (d : Distribution) (s : Random.Source) : Float × Random.Source :=
  let (standard, s) := d.family.draw s
  (d.place standard, s)

/-- The written form, with the variant and its parameters. -/
def text : Distribution → String
  | uniformFloat low high =>
    "UniformFloat(low=" ++ Number.plain low ++ ", high=" ++ Number.plain high ++ ")"
  | uniformInt low high =>
    "UniformInt(low=" ++ low.repr ++ ", high=" ++ high.repr ++ ")"
  | normalFloat mean deviation =>
    "NormalFloat(mean=" ++ Number.plain mean ++ ", st_dev=" ++ Number.plain deviation ++ ")"
  | normalInt mean deviation =>
    "NormalInt(mean=" ++ Number.plain mean ++ ", st_dev=" ++ Number.plain deviation ++ ")"

/-- A sample counts as one draw. -/
@[simp] theorem sample_draws (d : Distribution) (s : Random.Source) :
    (d.sample s).2.draws = s.draws + 1 := by
  cases d <;> rfl

end Distribution

end Atelier
