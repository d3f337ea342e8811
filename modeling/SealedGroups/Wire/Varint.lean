import SealedGroups.Octets

/-!
# Variable-length numbers

A number is written in groups of seven bits, the lowest first; every byte but the last has its top
bit set. The reader takes at most ten bytes, of which the tenth may only add the topmost bit of a
64-bit number, so what it returns is always below `2 ^ 64`.
-/

namespace SealedGroups.Wire.Varint

/-- Writes a number in as few bytes as it needs. -/
def write (value : Nat) : Bytes :=
  if value < 128 then [UInt8.ofNat value]
  else UInt8.ofNat (value % 128 + 128) :: write (value / 128)
termination_by value
decreasing_by omega

/-- Reads a number of at most `places` bytes, the last of which is the tenth of ten. -/
def readPlaces : (places : Nat) → Bytes → Option (Nat × Bytes)
  | 0, _ => none
  | _ + 1, [] => none
  | places + 1, b :: rest =>
    if b.toNat < 128 then
      if places = 0 ∧ 2 ≤ b.toNat then none else some (b.toNat, rest)
    else
      match readPlaces places rest with
      | none => none
      | some (value, rest) => some (b.toNat - 128 + 128 * value, rest)

def read (bytes : Bytes) : Option (Nat × Bytes) :=
  readPlaces 10 bytes

theorem length_lt_of_readPlaces {places : Nat} {bytes rest : Bytes} {value : Nat}
    (h : readPlaces places bytes = some (value, rest)) : rest.length < bytes.length := by
  fun_induction readPlaces places bytes generalizing value rest with
  | case1 => cases h
  | case2 => cases h
  | case3 => cases h
  | case4 => cases h; simp
  | case5 => cases h
  | case6 _ _ _ _ _ _ found ih =>
    cases h
    have := ih found
    simp only [List.length_cons]
    omega

theorem length_lt_of_read {bytes rest : Bytes} {value : Nat}
    (h : read bytes = some (value, rest)) : rest.length < bytes.length :=
  length_lt_of_readPlaces h

/-- How many numbers fit into `places` groups of seven bits and one bit more. -/
def capacity : (places : Nat) → Nat
  | 0 => 2
  | places + 1 => 128 * capacity places

end SealedGroups.Wire.Varint
