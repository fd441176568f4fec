import DevVm.Text.Decimal

/-!
# Lengths of time

A duration counts nanoseconds. It is shown in the largest unit of which it has at least
one whole, with as many decimals as it needs.
-/

namespace DevVm

/-- A length of time in nanoseconds. -/
structure Duration where
  nanos : Nat
deriving DecidableEq, Repr

namespace Duration

/-- A length of time in milliseconds. -/
def ofMillis (n : Nat) : Duration := ⟨n * 1000000⟩

/-- A length of time in seconds. -/
def ofSeconds (n : Nat) : Duration := ⟨n * 1000000000⟩

/-- The whole seconds of a duration. -/
def wholeSeconds (d : Duration) : Nat := d.nanos / 1000000000

/-- The digits of `n`, as many as `width` asks for at least, without the zeros at the end. -/
def decimals (width n : Nat) : List Char :=
  let digits := Nat.toDigits 10 n
  let padded := List.replicate (width - digits.length) '0' ++ digits
  (padded.reverse.dropWhile (· = '0')).reverse

/-- A count of `10 ^ width` nanoseconds each, with its decimals and its unit. -/
def shownIn (d : Duration) (width : Nat) (unit : String) : String :=
  let whole := Text.decimal (d.nanos / Nat.pow 10 width)
  let part := decimals width (d.nanos % Nat.pow 10 width)
  if part.isEmpty then whole ++ unit else whole ++ "." ++ String.ofList part ++ unit

/-- A duration as text. -/
def shown (d : Duration) : String :=
  if 1000000000 ≤ d.nanos then d.shownIn 9 "s"
  else if 1000000 ≤ d.nanos then d.shownIn 6 "ms"
  else if 1000 ≤ d.nanos then d.shownIn 3 "µs"
  else d.shownIn 0 "ns"

end Duration

end DevVm
