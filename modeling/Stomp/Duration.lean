/-!
# Durations

Lengths of time in nanoseconds, and points of time as durations since the start of the
clock.
-/

namespace Stomp

abbrev Duration := Nat

abbrev Instant := Nat

namespace Duration

def ofMillis (ms : Nat) : Duration := ms * 1000000

def ofParts (seconds nanoseconds : Nat) : Duration := seconds * 1000000000 + nanoseconds

def millis (d : Duration) : Nat := d / 1000000

def lastDigits : Nat → Nat → List Char
  | 0, _ => []
  | count + 1, n => lastDigits count (n / 10) ++ [Char.ofNat ('0'.toNat + n % 10)]

def places (count n : Nat) : List Char :=
  ((lastDigits count n).reverse.dropWhile (· == '0')).reverse

def textIn (unit count : Nat) (symbol : String) (d : Duration) : String :=
  match places count (d % unit) with
  | [] => s!"{d / unit}{symbol}"
  | fraction => s!"{d / unit}." ++ String.ofList fraction ++ symbol

/-- A duration is shown in the largest unit that it reaches, with as many places as it needs. -/
def text (d : Duration) : String :=
  if 1000000000 ≤ d then d.textIn 1000000000 9 "s"
  else if 1000000 ≤ d then d.textIn 1000000 6 "ms"
  else if 1000 ≤ d then d.textIn 1000 3 "µs"
  else s!"{d}ns"

end Duration

end Stomp
