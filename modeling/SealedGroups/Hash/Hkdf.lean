import SealedGroups.Hash.Sha2

/-!
# Key derivation

HMAC over SHA-256 and the extract-and-expand construction on top of it. The output is a stream of
32-byte blocks of which any number of bytes up to 255 blocks may be taken. `derive` takes a number
of bytes known beforehand and always succeeds; `deriveBytes` takes any number and refuses more than
the construction can give.
-/

namespace SealedGroups.Hkdf

/-- A message authentication code under a key of any length. -/
def hmac (key message : Bytes) : Octets 32 :=
  let short := if key.length ≤ 64 then key else (sha256 key).toList
  let block := short ++ List.replicate (64 - short.length) 0
  let inner := sha256 (block.map (· ^^^ 0x36) ++ message)
  sha256 (block.map (· ^^^ 0x5c) ++ inner.toList)

/-- Concentrates input key material into one key. No salt is a salt of zeros. -/
def extract (salt material : Bytes) : Octets 32 :=
  hmac (if salt.isEmpty then List.replicate 32 0 else salt) material

/-- `count` blocks of output, each made from the one before it and its number. -/
def expand (key : Octets 32) (info : Bytes) : (count number : Nat) → (previous : Bytes) → Bytes
  | 0, _, _ => []
  | count + 1, number, previous =>
    let block := hmac key.toList (previous ++ info ++ [UInt8.ofNat number])
    block.toList ++ expand key info count (number + 1) block.toList

theorem length_expand (key : Octets 32) (info : Bytes) (count number : Nat) (previous : Bytes) :
    (expand key info count number previous).length = 32 * count := by
  induction count generalizing number previous with
  | zero => rfl
  | succ count ih => simp only [expand, List.length_append, Octets.length_toList, ih]; omega

/-- The first `n` bytes of the output stream. -/
def derive (n : Nat) (salt material info : Bytes) : Octets n :=
  let blocks := (n + 31) / 32
  Octets.first n (expand (extract salt material) info blocks 1 [])
    (by rw [length_expand]; omega)

/-- The most bytes the construction can give. -/
def maxLength : Nat := 255 * 32

inductive Error where
  | invalidArguments
deriving DecidableEq

def Error.message : Error → String
  | .invalidArguments => "arguments too large for hkdf"

/-- The first `n` bytes of the output stream, if there are that many. -/
def deriveBytes (n : Nat) (salt material info : Bytes) : Except Error Bytes :=
  if n ≤ maxLength then .ok (derive n salt material info).toList else .error .invalidArguments

end SealedGroups.Hkdf
