import Accelerator.Stream.Cause

/-!
# Numbers in a stream

A number is written in base 128, the least significant digit first; every byte but the last has its high bit set.
A reader accepts what stands for a number below `2 ^ 64`, with or without digits that are zero at the end: at most
ten bytes, of which the tenth may hold a one.  If more follows, it goes back to the start of the number.
-/

namespace Accelerator.Stream

/-- The bytes of a number. -/
def encodeNumber (n : Nat) : List UInt8 :=
  if n < 128 then [n.toUInt8] else (n % 128 + 128).toUInt8 :: encodeNumber (n / 128)

/-- Whether the byte at place `k` of a number would bring it to `2 ^ 64` or more. -/
def overflowsAt (k : Nat) (b : UInt8) : Bool := 10 ≤ k || (k = 9 && 2 ≤ b.toNat % 128)

/-- Reads a number from its place `k` on; `start` is the stream from its first place on. -/
def numberFrom (start : List UInt8) (k : Nat) : Reader Nat
  | [] => .error ⟨[], .unexpectedEnd⟩
  | b :: r =>
    if overflowsAt k b then .error ⟨start, .numberTooLarge⟩
    else if b.toNat < 128 then .ok (b.toNat, r)
    else
      match numberFrom start (k + 1) r with
      | .ok (high, r') => .ok (b.toNat - 128 + 128 * high, r')
      | .error h => .error h

/-- A number. -/
def number : Reader Nat := fun s => numberFrom s 0 s

end Accelerator.Stream
