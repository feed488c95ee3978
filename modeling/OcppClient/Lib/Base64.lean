import Mathlib.Data.List.Basic
import Mathlib.Tactic.Common

/-!
# Base64

The standard alphabet with padding: three bytes are four characters, and what is left over at the
end is padded to four. `decode` reads back what `encode` writes.
-/

namespace Base64

def alphabet : List Char :=
  "ABCDEFGHIJKLMNOPQRSTUVWXYZabcdefghijklmnopqrstuvwxyz0123456789+/".toList

def toChar (n : ℕ) : Char := alphabet.getD n 'A'

def ofChar (c : Char) : Option ℕ := alphabet.findIdx? (· = c)

def sextet₁ (a : UInt8) : ℕ := a.toNat / 4

def sextet₂ (a b : UInt8) : ℕ := a.toNat % 4 * 16 + b.toNat / 16

def sextet₃ (b c : UInt8) : ℕ := b.toNat % 16 * 4 + c.toNat / 64

def sextet₄ (c : UInt8) : ℕ := c.toNat % 64

def byte₁ (w x : ℕ) : UInt8 := UInt8.ofNat (w * 4 + x / 16)

def byte₂ (x y : ℕ) : UInt8 := UInt8.ofNat (x * 16 + y / 4)

def byte₃ (y z : ℕ) : UInt8 := UInt8.ofNat (y * 64 + z)

section Groups

variable (a b c : UInt8)

end Groups

/-! ## Texts -/

def encode : List UInt8 → List Char
  | [] => []
  | [a] => [toChar (sextet₁ a), toChar (sextet₂ a 0), '=', '=']
  | [a, b] => [toChar (sextet₁ a), toChar (sextet₂ a b), toChar (sextet₃ b 0), '=']
  | a :: b :: c :: rest =>
    toChar (sextet₁ a) :: toChar (sextet₂ a b) :: toChar (sextet₃ b c) :: toChar (sextet₄ c)
      :: encode rest

/-- The last group, where it is padded. -/
def decodePadded (w x y : Char) : Option (List UInt8) :=
  (ofChar w).bind fun w => (ofChar x).bind fun x =>
    if y = '=' then some [byte₁ w x] else (ofChar y).map fun y => [byte₁ w x, byte₂ x y]

def decode : List Char → Option (List UInt8)
  | [] => some []
  | w :: x :: y :: z :: rest =>
    if z = '=' then if rest = [] then decodePadded w x y else none
    else
      (ofChar w).bind fun w => (ofChar x).bind fun x => (ofChar y).bind fun y =>
        (ofChar z).bind fun z => (decode rest).map fun bytes =>
          byte₁ w x :: byte₂ x y :: byte₃ y z :: bytes
  | _ => none

end Base64
