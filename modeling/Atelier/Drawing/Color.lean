import Atelier.Drawing.Error
import Atelier.Expression.Value
import Atelier.Json.Basic

/-!
# Colours

A colour is four channels, or the text of a CSS colour taken as it is. The channels are worked out
when the colour is written, in the order in which they are written.
-/

namespace Atelier

/-- A colour whose channels are of type `α`. -/
inductive Color (α : Type) where
  | hsla (hue saturation luminance alpha : α)
  | rgba (red green blue alpha : α)
  | css (text : String)
deriving DecidableEq

namespace Color

/-- The channels in order; none for a CSS text. -/
def channels {α : Type} : Color α → List α
  | hsla hue saturation luminance alpha => [hue, saturation, luminance, alpha]
  | rgba red green blue alpha => [red, green, blue, alpha]
  | css _ => []

/-- Replaces each channel in order by the result of an action. -/
def mapM {α β : Type} {m : Type → Type} [Monad m] (f : α → m β) : Color α → m (Color β)
  | hsla hue saturation luminance alpha =>
    return hsla (← f hue) (← f saturation) (← f luminance) (← f alpha)
  | rgba red green blue alpha =>
    return rgba (← f red) (← f green) (← f blue) (← f alpha)
  | css text => return css text

/-- The text of a colour whose channels are known. -/
def cssText : Color Float → String
  | hsla hue saturation luminance alpha =>
    "hsla(" ++ Number.plain hue ++ ", " ++ Number.plain saturation ++ "%, " ++
      Number.plain luminance ++ "%, " ++ Number.plain alpha ++ ")"
  | rgba red green blue alpha =>
    "rgba(" ++ Number.plain red ++ ", " ++ Number.plain green ++ ", " ++
      Number.plain blue ++ ", " ++ Number.plain alpha ++ ")"
  | css text => text

/-- The text of a colour, or the first error among its channels. -/
def toCss (c : Color Value) : Except DivisionByZero String :=
  cssText <$> c.mapM Value.resolve

/-- A colour in JSON is its text. -/
def json (c : Color Value) : Except DivisionByZero Json :=
  Json.string <$> c.toCss

end Color

/-- A value in JSON is its number. -/
def Value.json (v : Value) : Except DivisionByZero Json :=
  Json.ofFloat <$> v.resolve

end Atelier
