namespace OneTape.Decimal

/-- The positive number `mantissa * 2 ^ exponent`, as one of a row of such numbers. -/
structure Binary where
  mantissa : Nat
  exponent : Int
  /-- The number below is half as far away as the number above. -/
  narrowBelow : Bool

structure Scaled where
  digits : Nat
  exponent : Int
deriving DecidableEq, Repr

def compareScaled (a : Nat) (i : Int) (b : Nat) (j : Int) : Ordering :=
  compare (a * Nat.pow 10 i.toNat * Nat.pow 2 (-j).toNat)
    (b * Nat.pow 2 j.toNat * Nat.pow 10 (-i).toNat)

namespace Binary

/-- Whether a decimal stands for this number rather than for a neighbour. The points halfway belong
to an even mantissa. -/
def covers (x : Binary) (d : Scaled) : Bool :=
  let low := 4 * x.mantissa - if x.narrowBelow then 1 else 2
  let high := 4 * x.mantissa + 2
  let even := x.mantissa % 2 == 0
  let below := compareScaled d.digits d.exponent low (x.exponent - 2)
  let above := compareScaled d.digits d.exponent high (x.exponent - 2)
  (below == .gt || even && below == .eq) && (above == .lt || even && above == .eq)

def floorAt (x : Binary) (exponent : Int) : Scaled :=
  ⟨x.mantissa * Nat.pow 2 x.exponent.toNat * Nat.pow 10 (-exponent).toNat
    / (Nat.pow 2 (-x.exponent).toNat * Nat.pow 10 exponent.toNat), exponent⟩

def leading (x : Binary) : Int :=
  let num := x.mantissa * Nat.pow 2 x.exponent.toNat
  let den := Nat.pow 2 (-x.exponent).toNat
  if den ≤ num then (toString (num / den)).length - 1 else -(toString ((den - 1) / num)).length

/-- Of the two neighbours on the grid of `10 ^ exponent` that stand for the number the nearer one;
of two equally near ones the even one. -/
def onGrid? (x : Binary) (exponent : Int) : Option Scaled :=
  let low := x.floorAt exponent
  let high : Scaled := ⟨low.digits + 1, exponent⟩
  match x.covers low, x.covers high with
  | false, false => none
  | true, false => some low
  | false, true => some high
  | true, true =>
    match compareScaled (low.digits + high.digits) exponent (2 * x.mantissa) x.exponent with
    | .gt => some low
    | .lt => some high
    | .eq => some (if low.digits % 2 = 0 then low else high)

def exact (x : Binary) : Scaled :=
  if x.exponent < 0 then ⟨x.mantissa * Nat.pow 5 (-x.exponent).toNat, x.exponent⟩
  else ⟨x.mantissa * Nat.pow 2 x.exponent.toNat, 0⟩

/-- Among the decimals that are nearer to the number than to its neighbours, those with the fewest
digits, and of these the nearest. The grids are tried with one digit more each time. -/
def shortest (x : Binary) : Scaled :=
  let leading := x.leading
  ((List.range 17).findSome? fun (n : Nat) ↦ x.onGrid? (leading - n)).getD x.exact

end Binary

structure Style where
  plainFrom : Int
  plainTo : Int
  upMark : String
  downMark : String

/-- No exponent is written from `0.00001` on and below `10000000000000000.0`. A plain number has a
digit behind the point; an exponent has its sign. -/
def doubleStyle : Style := ⟨-5, 15, "e+", "e-"⟩

namespace Style

def plain (digits : List Char) (leading : Int) : List Char :=
  if leading < 0 then
    "0.".toList ++ List.replicate (-leading - 1).toNat '0' ++ digits
  else
    let width := leading.toNat + 1
    let whole := digits.take width
    let rest := digits.drop width
    whole ++ List.replicate (width - whole.length) '0' ++ '.' :: if rest = [] then ['0'] else rest

def withExponent (style : Style) (digits : List Char) (leading : Int) : List Char :=
  let mantissa := match digits with
    | [] => []
    | [d] => [d]
    | d :: rest => d :: '.' :: rest
  let mark := if leading < 0 then style.downMark else style.upMark
  mantissa ++ mark.toList ++ (toString leading.natAbs).toList

def render (style : Style) (digits : List Char) (leading : Int) : List Char :=
  if style.plainFrom ≤ leading ∧ leading ≤ style.plainTo then plain digits leading
  else style.withExponent digits leading

end Style

def Scaled.spread (d : Scaled) : List Char × Int :=
  let digits := (toString d.digits).toList
  ((digits.reverse.dropWhile (· == '0')).reverse, d.exponent + (digits.length - 1 : Nat))

def Binary.ofBits (bits : Nat) : Binary :=
  let exponent : Nat := bits >>> 52
  let fraction := bits % (1 <<< 52)
  if exponent = 0 then ⟨fraction, -1074, false⟩
  else ⟨1 <<< 52 + fraction, exponent - 1075, fraction = 0 && exponent != 1⟩

def magnitudeText (bits : Nat) : List Char :=
  if bits = 0 then "0.0".toList
  else
    let (digits, leading) := (Binary.ofBits bits).shortest.spread
    doubleStyle.render digits leading

def doubleText (x : Float) : String :=
  let bits := x.toBits.toNat
  let magnitude := magnitudeText (bits % (1 <<< 63))
  String.ofList (if bits < 1 <<< 63 then magnitude else '-' :: magnitude)

end OneTape.Decimal
