import DirLock.Text.Hex

/-!
# Nonces

Twenty random bytes that tell one lock handle from every other. The held marker of a claim is
exactly the nonce of the handle that made it, and staging and released directories are named by its
hexadecimal form.
-/

namespace DirLock

structure Nonce where
  bytes : List UInt8
  length_eq : bytes.length = 20
  deriving DecidableEq

namespace Nonce

def length : Nat := 20

def hex (nonce : Nonce) : List Char := Text.hexBytes nonce.bytes

def ofBytes? (bytes : List UInt8) : Option Nonce :=
  if h : bytes.length = 20 then some ⟨bytes, h⟩ else none

/-- The twenty low bytes of a number, the highest first. -/
def ofNat (value : Nat) : Nonce :=
  ⟨(List.range 20).map fun i => UInt8.ofNat (value / Nat.pow 256 (19 - i)), by simp⟩

theorem length_hex (nonce : Nonce) : nonce.hex.length = 40 := by
  simp [hex, Text.length_hexBytes, nonce.length_eq]

end Nonce

end DirLock
