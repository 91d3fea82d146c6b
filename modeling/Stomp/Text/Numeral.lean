/-!
# Numerals

Writing whole numbers, and reading a decimal one below a bound.  One leading plus sign is
allowed; a minus sign is not.  The first character that cannot be taken decides
the cause of a failure.
-/

namespace Stomp.Numeral

inductive Fault where
  | empty
  | badDigit
  | tooLarge
  deriving DecidableEq, Repr

def Fault.message : Fault → String
  | .empty => "cannot parse integer from empty string"
  | .badDigit => "invalid digit found in string"
  | .tooLarge => "number too large to fit in target type"

def word64 : Nat := 1 <<< 64

def word32 : Nat := 1 <<< 32

def digits (n : Nat) : List Char :=
  if n < 10 then [Char.ofNat ('0'.toNat + n)]
  else digits (n / 10) ++ [Char.ofNat ('0'.toNat + n % 10)]
  termination_by n

def write (n : Nat) : String := String.ofList (digits n)

def hexDigit (n : Nat) : Char :=
  if n < 10 then Char.ofNat ('0'.toNat + n) else Char.ofNat ('a'.toNat + (n - 10))

def hex (n : Nat) : List Char :=
  if n < 16 then [hexDigit n] else hex (n / 16) ++ [hexDigit (n % 16)]
  termination_by n

def digit? (c : Char) : Option Nat :=
  if '0' ≤ c && c ≤ '9' then some (c.toNat - '0'.toNat) else none

def push (bound accumulated : Nat) (c : Char) : Except Fault Nat :=
  match digit? c with
  | none => .error .badDigit
  | some d =>
      if accumulated * 10 + d < bound then .ok (accumulated * 10 + d)
      else .error .tooLarge

def readDigits (bound : Nat) (text : List Char) : Except Fault Nat :=
  text.foldlM (push bound) 0

def read (bound : Nat) (text : String) : Except Fault Nat :=
  match text.toList with
  | [] => .error .empty
  | ['+'] => .error .badDigit
  | '+' :: rest => readDigits bound rest
  | rest => readDigits bound rest

end Stomp.Numeral
