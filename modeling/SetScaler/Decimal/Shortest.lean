/-!
The fewest decimal digits that read back as a given double. A finite double is `m · 2 ^ q`; the
reals that round to it form an interval around it, and the shortest decimal in that interval, the
nearest of several, is its text.
-/

namespace SetScaler.Decimal

/-- The magnitude of a finite double: `mantissa · 2 ^ exponent`. `narrow` says that the neighbour
below is only half as far away as the one above. -/
structure Binary where
  mantissa : Nat
  exponent : Int
  narrow : Bool
deriving Repr, DecidableEq

/-- The number of fractions that a double can have: fifty-two bits hold one. -/
def fractions : Nat := 4503599627370496

/-- The number of scales that a double can have: eleven bits above the fraction hold one. -/
def scales : Nat := 2048

/-- The parts of a double's bits, the sign left out; `none` for infinities and not-a-number. -/
def Binary.ofBits? (bits : Nat) : Option Binary :=
  let scale := bits / fractions % scales
  let fraction := bits % fractions
  if scale = scales - 1 then none
  else if scale = 0 then some ⟨fraction, -1074, false⟩
  else some ⟨fractions + fraction, (scale : Int) - 1075, fraction = 0 && scale > 1⟩

/-- Decimal digits with the place of the point: the digits `d₁ … dₙ` stand for
`0.d₁…dₙ · 10 ^ point`. -/
structure Digits where
  value : Nat
  count : Nat
  point : Int
deriving Repr, DecidableEq

/-- A positive rational kept as a quotient, so that every comparison below is one of whole
numbers. -/
structure Ratio where
  num : Nat
  den : Nat

/-- The ratio `base ^ power`, the power being of either sign. -/
def Ratio.pow (base : Nat) (power : Int) : Ratio :=
  if 0 ≤ power then ⟨Nat.pow base power.toNat, 1⟩ else ⟨1, Nat.pow base (-power).toNat⟩

def Ratio.mul (a b : Ratio) : Ratio := ⟨a.num * b.num, a.den * b.den⟩

def Ratio.le (a b : Ratio) : Bool := a.num * b.den ≤ b.num * a.den

def Ratio.lt (a b : Ratio) : Bool := a.num * b.den < b.num * a.den

def Ratio.floorDiv (a b : Ratio) : Nat := (a.num * b.den) / (a.den * b.num)

def Ratio.twiceGap (a b : Ratio) : Ratio :=
  let left := a.num * b.den
  let right := b.num * a.den
  ⟨2 * (if left ≤ right then right - left else left - right), a.den * b.den⟩

namespace Binary

def ratio (b : Binary) : Ratio := (Ratio.pow 2 b.exponent).mul ⟨b.mantissa, 1⟩

/-- Whether a ratio rounds to this double: it lies within half the gap to the neighbour on its
side, the ends counting when the mantissa is even. -/
def covers (b : Binary) (r : Ratio) : Bool :=
  let unit := Ratio.pow 2 b.exponent
  let room := if b.narrow && r.lt b.ratio then unit.mul ⟨1, 2⟩ else unit
  let gap := r.twiceGap b.ratio
  if b.mantissa % 2 = 0 then gap.le room else gap.lt room

/-- The power of ten just above the value: the least `k` in a window of guesses with
`value < 10 ^ k`. -/
def pointFrom (b : Binary) : Nat → Int → Int
  | 0, guess => guess
  | tries + 1, guess =>
    if b.ratio.lt (Ratio.pow 10 guess) then guess else pointFrom b tries (guess + 1)

def point (b : Binary) : Int :=
  let bits : Int := b.exponent + (Nat.log2 b.mantissa : Int)
  -- a bit is 0.30103 of a decimal digit, and the window starts one digit below
  pointFrom b 4 (bits * 30103 / 100000 - 1)

/-- The best decimal with `count` digits: of the two neighbours of the value on that grid, the one
that rounds to it, the nearer if both do, the upper one on a tie. -/
def withCount? (b : Binary) (count : Nat) : Option Digits :=
  let point := b.point
  let grid := Ratio.pow 10 (point - count)
  let below := b.ratio.floorDiv grid
  let lower := grid.mul ⟨below, 1⟩
  let upper := grid.mul ⟨below + 1, 1⟩
  let digits (value : Nat) : Digits :=
    if value = Nat.pow 10 count then ⟨1, 1, point + 1⟩ else ⟨value, count, point⟩
  if b.covers lower then
    if b.covers upper && (upper.twiceGap b.ratio).le (lower.twiceGap b.ratio) then
      some (digits (below + 1))
    else some (digits below)
  else if b.covers upper then some (digits (below + 1))
  else none

/-- The first digit count from `count` on that has a decimal for the value; seventeen digits always
do. -/
def shortestFrom (b : Binary) (count : Nat) : Nat → Digits
  | 0 => ⟨b.ratio.floorDiv (Ratio.pow 10 (b.point - 17)), 17, b.point⟩
  | left + 1 => match b.withCount? count with
    | some digits => digits
    | none => shortestFrom b (count + 1) left

def shortest (b : Binary) : Digits := b.shortestFrom 1 17

end Binary
end SetScaler.Decimal
