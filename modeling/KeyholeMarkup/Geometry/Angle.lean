/-! Angles in degrees, as floating-point numbers. -/
namespace KeyholeMarkup.Geometry

structure Dyadic where
  negative : Bool
  mantissa : Nat
  exponent : Int
deriving DecidableEq, Repr

def Dyadic.ofFloat? (x : Float) : Option Dyadic :=
  let bits := x.toBits.toNat
  let leading := Nat.pow 2 52
  let negative := bits / Nat.pow 2 63 = 1
  let scale : Nat := bits / leading % 2048
  let fraction : Nat := bits % leading
  if scale = 2047 then none
  else if scale = 0 then some ⟨negative, fraction, -1074⟩
  else some ⟨negative, leading + fraction, (scale : Int) - 1075⟩

/-- The remainder after division by a whole number, with the sign of the dividend. -/
def Dyadic.remainder (x : Dyadic) (divisor : Nat) : Dyadic :=
  if 0 ≤ x.exponent then ⟨x.negative, x.mantissa * Nat.pow 2 x.exponent.toNat % divisor, 0⟩
  else ⟨x.negative, x.mantissa % (divisor * Nat.pow 2 (-x.exponent).toNat), x.exponent⟩

def Dyadic.toFloat (x : Dyadic) : Float :=
  let size := (Float.ofNat x.mantissa).scaleB x.exponent
  if x.negative then -size else size

/-- The remainder of division by 360 that is not negative. It is exact but for the last addition;
a number that is not finite has none. -/
def fullTurnRemainder (x : Float) : Float :=
  match Dyadic.ofFloat? x with
  | none => 0.0 / 0.0
  | some parts =>
    let remainder := (parts.remainder 360).toFloat
    if remainder < 0.0 then remainder + 360.0 else remainder

def wrapAngle (angle : Float) : Float := fullTurnRemainder (angle + 180.0) - 180.0

end KeyholeMarkup.Geometry
