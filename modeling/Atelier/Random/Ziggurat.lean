import Atelier.Random.Generator
import Atelier.Random.Layers

/-!
# The standard normal distribution

Normal numbers by the ziggurat method: the area under the bell curve is covered by 256 layers of
equal size, a layer and a place in it are drawn, and the place is kept when it lies under the curve.
The lowest layer has no end, and its tail is drawn by a method of its own.

* `attempt` draws once, `tailAttempt` draws once in the tail.
* `standardNormal` repeats attempts until one is kept.
-/

namespace Atelier.Random.Ziggurat

def tailStart : Float := 3.654152885361008796

/-- One draw in the tail: an exponential distance, kept when a second one is large enough. -/
def tailAttempt (g : Generator) : Option Float × Generator :=
  let (a, g) := g.openUnit
  let (c, g) := g.openUnit
  let distance := a.log / tailStart
  let bound := c.log
  (if -2.0 * bound < distance * distance then none else some distance, g)

/-- A number beyond the start of the tail, on the side of the sign given. -/
def tail (negative : Bool) (g : Generator) : Float × Generator :=
  let (distance, g) := g.untilSome 0.0 tailAttempt
  (if negative then distance - tailStart else tailStart - distance, g)

/-- One draw: the low eight bits choose the layer, the upper 52 the place in it. A place left of the
next layer's edge lies under the curve; one right of it is compared with the curve itself, and in
the lowest layer stands for the tail. -/
def attempt (g : Generator) : Option Float × Generator :=
  let (bits, g) := g.next
  let i := bits.toNat % 256
  have above : i + 1 < 257 := Nat.succ_lt_succ (Nat.mod_lt _ (Nat.zero_lt_succ 255))
  have here : i < 257 := Nat.lt_of_succ_lt above
  let place := Float.ofBits (bits >>> 12 ||| 0x4000000000000000) - 3.0
  let x := place * edges[i]
  if x.abs < edges[i + 1] then (some x, g)
  else if i = 0 then
    let (x, g) := tail (place < 0.0) g
    (some x, g)
  else
    let (u, g) := g.unit
    if heights[i + 1] + (heights[i] - heights[i + 1]) * u < (-x * x / 2.0).exp then (some x, g)
    else (none, g)

def standardNormal (g : Generator) : Float × Generator :=
  g.untilSome 0.0 attempt

end Atelier.Random.Ziggurat
