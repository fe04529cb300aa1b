import BinaryPatching.Text.Numeral

/-!
# `BinaryPatching.Text.Duration` — lengths of time as text

Times are counted in milliseconds. Below a second they are shown in milliseconds, below a minute in seconds with
two places, and from then on in minutes and seconds. The seconds are those of a binary fraction of 53 bits, which
decides on which side of a half hundredth a time lies.

## Contents
- `roundedQuotient`: the nearest whole number to a quotient.
- `BinaryFraction`, `BinaryFraction.nearest`: fractions of 53 bits.
- `duration`: the text of a length of time.
-/

namespace BinaryPatching.Text

/-- The whole number nearest to a quotient; of two as near, the even one. -/
def roundedQuotient (n d : Nat) : Nat :=
  let q := n / d
  let twice := 2 * (n % d)
  if twice < d then q else if d < twice then q + 1 else if q % 2 = 0 then q else q + 1

/-- The nearest whole number is at most half a unit away. -/
theorem roundedQuotient_near (n d : Nat) (h : 0 < d) :
    2 * n ≤ 2 * (roundedQuotient n d * d) + d ∧ 2 * (roundedQuotient n d * d) ≤ 2 * n + d := by
  have hn := Nat.div_add_mod n d
  have hm := Nat.mod_lt n h
  have hc : n / d * d = d * (n / d) := Nat.mul_comm _ _
  have hs : (n / d + 1) * d = d * (n / d) + d := by rw [Nat.add_mul, hc]; omega
  unfold roundedQuotient
  dsimp only
  split
  · rw [hc]; omega
  · split
    · rw [hs]; omega
    · split
      · rw [hc]; omega
      · rw [hs]; omega

/-- A number of units of a power of one half. -/
structure BinaryFraction where
  /-- The number of units. -/
  units : Nat
  /-- A unit is one half to this power. -/
  places : Nat
deriving Repr, DecidableEq

/-- The binary fraction of 53 bits nearest to a quotient that is not below one part in two to the forty. -/
def BinaryFraction.nearest (n d : Nat) : BinaryFraction :=
  let places := ((List.range 100).find? fun p => d <<< 52 ≤ n <<< p).getD 100
  ⟨roundedQuotient (n <<< places) d, places⟩

/-- The seconds in a number of milliseconds: the whole seconds plus the rest, each step rounded. -/
def secondsOf (millis : Nat) : BinaryFraction :=
  let rest := if millis % 1000 = 0 then ⟨0, 0⟩ else BinaryFraction.nearest (millis % 1000) 1000
  BinaryFraction.nearest ((millis / 1000) <<< rest.places + rest.units) (1 <<< rest.places)

/-- A number of hundredths with two places after the point. -/
def hundredths (n : Nat) : String :=
  decimal (n / 100) ++ "." ++ String.ofList ((Nat.toDigits 10 (n % 100)).leftpad 2 '0')

/-- A length of time in milliseconds as text. -/
def duration (millis : Nat) : String :=
  if millis < 1000 then decimal millis ++ "ms"
  else if millis < 60000 then
    let seconds := secondsOf millis
    hundredths (roundedQuotient (seconds.units * 100) (1 <<< seconds.places)) ++ "s"
  else decimal (millis / 1000 / 60) ++ "m " ++ decimal (millis / 1000 % 60) ++ "s"

end BinaryPatching.Text
