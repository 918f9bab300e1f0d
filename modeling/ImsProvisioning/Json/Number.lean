import ImsProvisioning.Json.Token

/-! # JSON numbers

A number literal without fraction and exponent denotes an integer if that fits in
64 bits, signed or unsigned; minus zero and every other literal denotes a
floating-point number, or nothing if it is beyond the floating-point range.
-/

namespace ImsProvisioning.Json

inductive Number where
  | integer (n : Int)
  | real (x : Float)
deriving Repr

/--
Significant digits `digits * 10 ^ exponent` gathered so far, in 64 bits, and whether there has
been a digit without room for it.
-/
structure Significand where
  digits : Nat
  exponent : Int
  full : Bool
deriving DecidableEq, Repr

namespace Significand

/-- A digit in front of the point; without room for it, its place still counts. -/
def pushWhole (s : Significand) (c : Char) : Significand :=
  let n := s.digits * 10 + (c.toNat - '0'.toNat)
  if !s.full && n < UInt64.size then { s with digits := n }
  else { s with exponent := s.exponent + 1, full := true }

/-- A digit behind the point; without room for it, it is left out. -/
def pushFraction (s : Significand) (c : Char) : Significand :=
  let n := s.digits * 10 + (c.toNat - '0'.toNat)
  if !s.full && n < UInt64.size then { s with digits := n, exponent := s.exponent - 1 }
  else { s with full := true }

def ofLiteral (l : NumberLiteral) : Significand :=
  let whole := l.whole.foldl pushWhole ⟨0, 0, false⟩
  (l.fraction.getD []).foldl pushFraction { whole with full := false }

end Significand

def powerOfTen (k : Nat) : Float := Float.ofScientific 1 false k

/-- Divides by `10 ^ k`, by at most `10 ^ 308` at a time. -/
def scaleDown (x : Float) (k : Nat) : Float :=
  if k ≤ 308 then x / powerOfTen k
  else if x == 0 then x
  else scaleDown (x / powerOfTen 308) (k - 308)
termination_by k

def scaleUp? (x : Float) (k : Nat) : Option Float :=
  if k ≤ 308 then
    let y := x * powerOfTen k
    if y.isInf then none else some y
  else if x == 0 then some x
  else none

def scale? (digits : Nat) (exponent : Int) : Option Float :=
  let x := digits.toUInt64.toFloat
  if 0 ≤ exponent then scaleUp? x exponent.toNat else some (scaleDown x (-exponent).toNat)

def magnitude? (l : NumberLiteral) : Option Float :=
  let s := Significand.ofLiteral l
  match l.exponent with
  | none => scale? s.digits s.exponent
  | some (negative, ds) =>
    let e := Nat.ofDigitChars 10 ds 0
    if e < Nat.pow 2 31 then scale? s.digits (if negative then s.exponent - e else s.exponent + e)
    else if negative ∨ s.digits = 0 then some 0
    else none

def NumberLiteral.real? (l : NumberLiteral) : Option Number :=
  (magnitude? l).map fun x => .real (if l.negative then -x else x)

def NumberLiteral.value? (l : NumberLiteral) : Option Number :=
  let n := Nat.ofDigitChars 10 l.whole 0
  if l.fraction.isNone ∧ l.exponent.isNone then
    if l.negative then if 0 < n ∧ n ≤ Nat.pow 2 63 then some (.integer (-n)) else l.real?
    else if n < UInt64.size then some (.integer n) else l.real?
  else l.real?

end ImsProvisioning.Json
