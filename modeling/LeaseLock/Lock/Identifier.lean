import LeaseLock.Number.Digits

namespace LeaseLock.Identifier

def grouped (widths : List Nat) (digits : List Char) : List Char :=
  match widths with
  | [] => digits
  | width :: rest => digits.take width ++ '-' :: grouped rest (digits.drop width)

/-- The UUID of random bits. The digit for the version is four, and the highest bits of the digit
for the variant are one and zero. -/
def ofBits (bits : Nat) : String :=
  let high := bits / Nat.pow 2 80 % Nat.pow 2 48
  let middle := bits / Nat.pow 2 64 % Nat.pow 2 12
  let low := bits % Nat.pow 2 62
  let number := high * Nat.pow 2 80 + (4 * Nat.pow 2 12 + middle) * Nat.pow 2 64 +
    (2 * Nat.pow 2 62 + low)
  String.ofList (grouped [8, 4, 4, 4] (zeroPadded 32 (hexText number)).toList)

end LeaseLock.Identifier
