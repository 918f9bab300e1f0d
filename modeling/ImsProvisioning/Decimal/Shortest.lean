/-! # Shortest decimals

The decimal text of a binary floating-point number: the fewest digits that read
back as the same number and, of those, the nearest. The digits are found by
exact arithmetic on natural numbers.
-/

namespace ImsProvisioning.Decimal

/--
A positive number `mantissa * 2 ^ exponent`; its neighbour below may be only half as far away
as the one above.
-/
structure Binary where
  mantissa : Nat
  exponent : Int
  closeBelow : Bool
deriving DecidableEq, Repr

def Binary.ofBits (bits : UInt64) : Binary :=
  let fraction := bits.toNat % Nat.pow 2 52
  let e : Nat := bits.toNat / Nat.pow 2 52 % 2048
  if e = 0 then ⟨fraction, -1074, false⟩
  else ⟨fraction + Nat.pow 2 52, (e : Int) - 1075, fraction = 0 ∧ 1 < e⟩

/-- `digits * 10 ^ exponent`. -/
structure Scientific where
  digits : Nat
  exponent : Int
deriving DecidableEq, Repr

/-- The numerator of `n * 2 ^ e / 10 ^ k` over the common denominator `denominator`. -/
def numerator (n : Nat) (e k : Int) : Nat := n * Nat.pow 2 e.toNat * Nat.pow 10 (-k).toNat

def denominator (e k : Int) : Nat := Nat.pow 2 (-e).toNat * Nat.pow 10 k.toNat

/--
The point of the grid of multiples of `10 ^ k` that is nearest to the number, if it
reads back as the number. A half goes to the even point.
-/
def onGrid? (b : Binary) (k : Int) : Option Nat :=
  let e := b.exponent - 2
  let d := denominator e k
  let value := numerator (4 * b.mantissa) e k
  let low := numerator (4 * b.mantissa - if b.closeBelow then 1 else 2) e k
  let high := numerator (4 * b.mantissa + 2) e k
  let inside (a : Nat) : Bool :=
    (low < a * d && a * d < high) || (b.mantissa % 2 = 0 && (a * d = low || a * d = high))
  let a := value / d
  let below := value - a * d
  let nearerAbove : Bool := d < 2 * below || (d = 2 * below && a % 2 = 1)
  if inside a && inside (a + 1) then some (if nearerAbove then a + 1 else a)
  else if inside a then some a
  else if inside (a + 1) then some (a + 1)
  else none

/-- Moves from one grid to the next finer one until a point of it reads back. -/
def search (b : Binary) : Nat → Int → Scientific
  | 0, k => ⟨(onGrid? b k).getD 0, k⟩
  | n + 1, k =>
    match onGrid? b k with
    | some a => ⟨a, k⟩
    | none => search b n (k - 1)

/-- Takes zeros off the end of the digits. -/
def Scientific.normal (d : Scientific) : Scientific :=
  if h : d.digits ≠ 0 ∧ d.digits % 10 = 0 then
    Scientific.normal ⟨d.digits / 10, d.exponent + 1⟩
  else d
termination_by d.digits
decreasing_by omega

/-- No positive finite number reaches `10 ^ 309`, and none is below `10 ^ (-324)`. -/
def shortest (b : Binary) : Scientific := (search b 640 309).normal

/--
How a decimal is laid out: without an exponent as long as there are at most so many digits in
front of the point, and so many zeros between it and the first digit.
-/
structure Layout where
  maxWhole : Int
  maxZeros : Int
deriving DecidableEq, Repr

private def zeros (n : Int) : List Char := List.replicate n.toNat '0'

/--
A point is always written, except before an exponent where there is one digit. An
exponent always carries its sign.
-/
def Layout.write (l : Layout) (d : Scientific) : List Char :=
  let ds := Nat.toDigits 10 d.digits
  let point : Int := ds.length + d.exponent
  if 0 ≤ d.exponent ∧ point ≤ l.maxWhole then ds ++ zeros d.exponent ++ ['.', '0']
  else if 0 < point ∧ point ≤ l.maxWhole then ds.take point.toNat ++ '.' :: ds.drop point.toNat
  else if -l.maxZeros ≤ point ∧ point ≤ 0 then '0' :: '.' :: zeros (-point) ++ ds
  else
    let power := (if 0 < point then ['+'] else []) ++ (toString (point - 1)).toList
    match ds with
    | c :: c' :: rest => c :: '.' :: c' :: rest ++ 'e' :: power
    | ds => ds ++ 'e' :: power

def Layout.writeFloat (l : Layout) (x : Float) : String :=
  let bits := x.toBits
  let sign := if bits.toNat / Nat.pow 2 63 = 1 then ['-'] else []
  let b := Binary.ofBits bits
  String.ofList (sign ++ if b.mantissa = 0 then "0.0".toList else l.write (shortest b))

end ImsProvisioning.Decimal
