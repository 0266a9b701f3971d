/-!
# Decimal numerals

Reading and writing natural numbers and integers in base ten.  A numeral is one or more ASCII
digits, with leading zeros allowed; whether a sign may come first is the reader's choice.
-/

namespace LanguageClient.Numeral

/-- The value of an ASCII digit. -/
def digit? (c : Char) : Option Nat :=
  if '0' ≤ c ∧ c ≤ '9' then some (c.toNat - 48) else none

def isDigit (c : Char) : Bool :=
  (digit? c).isSome

/-- The value of a digit sequence read after the digits that gave `acc`. -/
def valueFrom (acc : Nat) : List Char → Option Nat
  | [] => some acc
  | c :: rest => (digit? c).bind fun d => valueFrom (acc * 10 + d) rest

/-- The value of one or more digits. -/
def digits? : List Char → Option Nat
  | [] => none
  | cs => valueFrom 0 cs

/-- A natural number of at most `bound`, in digits, after at most one `+`. -/
def natural? (bound : Nat) (s : String) : Option Nat :=
  let cs := match s.toList with
    | '+' :: rest => rest
    | cs => cs
  (digits? cs).filter (· ≤ bound)

/-- The value of an ASCII hexadecimal digit of either case. -/
def hexDigit? (c : Char) : Option Nat :=
  if '0' ≤ c ∧ c ≤ '9' then some (c.toNat - 48)
  else if 'A' ≤ c ∧ c ≤ 'F' then some (c.toNat - 55)
  else if 'a' ≤ c ∧ c ≤ 'f' then some (c.toNat - 87)
  else none

/-- The octets that pairs of hexadecimal digits stand for; what is no digit counts as zero. -/
def hexOctets : List Char → List UInt8
  | a :: b :: rest =>
    UInt8.ofNat ((hexDigit? a).getD 0 * 16 + (hexDigit? b).getD 0) :: hexOctets rest
  | _ => []

def maxWord64 : Nat := 18446744073709551615

def maxWord32 : Nat := 4294967295

end LanguageClient.Numeral
