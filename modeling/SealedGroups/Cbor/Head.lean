import SealedGroups.Octets

/-!
# Heads of CBOR items

Every item begins with a head: three bits of kind and a number in the shortest of five widths, or no
number at all. The writer always takes the shortest width; the reader takes any. An absent number
means an item of indefinite length, or the break that ends one.
-/

namespace SealedGroups.Cbor

inductive Error where
  /-- The input ends inside an item. -/
  | truncated
  /-- The bytes are no item at all. -/
  | malformed
  /-- An item of another kind, size or name than the value needs. -/
  | unexpected
  | tooDeep
deriving DecidableEq

def Error.message : Error → String
  | .truncated => "an error occurred while reading bytes"
  | .malformed => "an error occurred while parsing bytes"
  | .unexpected => "an error occurred while processing a parsed value"
  | .tooDeep => "recursion limit exceeded while decoding"

/-- The head of an item. A missing length is an indefinite one. -/
inductive Head where
  | unsigned (value : Nat)
  | negative (value : Nat)
  | bytes (length : Option Nat)
  | text (length : Option Nat)
  | array (length : Option Nat)
  | map (length : Option Nat)
  | tag (number : Nat)
  | simple (number : Nat)
  | float
  | stop
deriving DecidableEq

namespace Head

/-- Writes a kind and a number in the shortest width. -/
def write (kind : Nat) (value : Nat) : Bytes :=
  if value < 24 then [UInt8.ofNat (32 * kind + value)]
  else if value < UInt8.size then UInt8.ofNat (32 * kind + 24) :: bytesBE 1 value
  else if value < UInt16.size then UInt8.ofNat (32 * kind + 25) :: bytesBE 2 value
  else if value < UInt32.size then UInt8.ofNat (32 * kind + 26) :: bytesBE 4 value
  else UInt8.ofNat (32 * kind + 27) :: bytesBE 8 value

/-- The head that a kind, the five low bits of the first byte and a number make up. -/
def make (kind low : Nat) (number : Option Nat) : Except Error Head :=
  match kind, number with
  | 0, some value => .ok (.unsigned value)
  | 1, some value => .ok (.negative value)
  | 2, length => .ok (.bytes length)
  | 3, length => .ok (.text length)
  | 4, length => .ok (.array length)
  | 5, length => .ok (.map length)
  | 6, some number => .ok (.tag number)
  | 7, none => .ok .stop
  | 7, some number => .ok (if low ≤ 24 then .simple number else .float)
  | _, _ => .error .malformed

/-- How many bytes of number follow the first byte, going by its five low bits. -/
def width (low : Nat) : Nat :=
  if low < 24 then 0 else 1 <<< (low - 24)

def read : Bytes → Except Error (Head × Bytes)
  | [] => .error .truncated
  | first :: rest =>
    let kind := first.toNat / 32
    let low := first.toNat % 32
    if low = 31 then do
      return (← make kind low none, rest)
    else if 27 < low then .error .malformed
    else
      match take? (width low) rest with
      | none => .error .truncated
      | some (digits, rest) => do
        return (← make kind low (some (if low < 24 then low else natOfBE digits)), rest)

theorem length_lt_of_read {bytes rest : Bytes} {head : Head}
    (h : read bytes = .ok (head, rest)) : rest.length < bytes.length := by
  unfold read at h
  split at h
  · cases h
  · dsimp only at h
    split at h
    · simp only [bind, Except.bind] at h
      split at h
      · cases h
      · cases h
        simp
    · split at h
      · cases h
      · split at h
        · cases h
        · rename_i taken
          have := (length_of_take? taken).2
          simp only [bind, Except.bind] at h
          split at h
          · cases h
          · cases h
            simp only [this, List.length_cons, List.length_append]
            omega

end Head

end SealedGroups.Cbor
