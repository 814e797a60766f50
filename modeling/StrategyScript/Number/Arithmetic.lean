/-
Rules of arithmetic on doubles that the language needs beyond the four operations: conversion to
counts, powers of ten, rounding to digits, and extremes that pass over NaN.
-/
import StrategyScript.Number.Read

namespace StrategyScript.Number

/-- The whole part, from zero to the largest 64-bit count; a NaN counts as zero. -/
def toCount (x : Float) : Nat :=
  x.toUInt64.toNat

/-- The whole part, within the range of 32-bit integers. -/
def toInt32 (x : Float) : Int :=
  let limit := Nat.pow 2 31
  if x < 0.0 then -(min (toCount (-x)) limit : Nat) else (min (toCount x) (limit - 1) : Nat)

/-! ## Rounding -/

/-- Raises `base` to the power `n` by squaring and multiplies it onto `result`; the first argument
bounds the squarings. -/
def powerOnto : Nat → Nat → Float → Float → Float
  | 0, _, result, _ => result
  | bound + 1, n, result, base =>
    let result := if n % 2 = 1 then result * base else result
    if n / 2 = 0 then result else powerOnto bound (n / 2) result (base * base)

/-- A power of ten by repeated squaring in doubles; a negative power is a reciprocal. -/
def powerOfTen (d : Int) : Float :=
  let power := powerOnto 64 d.natAbs 1.0 10.0
  if d < 0 then 1.0 / power else power

/-- Rounds to a number of decimal places, a half going away from zero. -/
def roundTo (x : Float) (digits : Float) : Float :=
  let scale := powerOfTen (toInt32 digits)
  (x * scale).round / scale

/-! ## Extremes -/

/-- The greater of two numbers; a NaN gives way to the other one. -/
def greater (x y : Float) : Float :=
  if x.isNaN then y else if y.isNaN then x else if x < y then y else x

/-- The lesser of two numbers; a NaN gives way to the other one. -/
def lesser (x y : Float) : Float :=
  if x.isNaN then y else if y.isNaN then x else if y < x then y else x

def largest (xs : List Float) : Float :=
  xs.foldl greater (-infinity)

def smallest (xs : List Float) : Float :=
  xs.foldl lesser infinity

end StrategyScript.Number
