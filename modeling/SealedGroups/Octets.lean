/-!
# Byte strings

Messages of any length are plain lists of bytes. Keys, digests, nonces and identifiers have a
length of their own, which their type carries: `Octets n` is a list together with the proof that
it holds `n` bytes, so a function that takes a key never has to ask how long it is. Reading a
fixed-size value out of a message is `Octets.ofList?`, the only place where a length can be wrong.

Numbers are read and written byte by byte, least or most significant byte first, through `Nat`;
the widths used elsewhere (words of a hash, lengths, expirations) are instances of these two.
-/

namespace SealedGroups

/-- A message: bytes in order. -/
abbrev Bytes := List UInt8

/-- Messages are the same if they are the same byte by byte. -/
instance : LawfulBEq Bytes := inferInstance

/-- A byte string of exactly `n` bytes. -/
structure Octets (n : Nat) where
  toList : Bytes
  length_toList : toList.length = n
deriving DecidableEq

namespace Octets

variable {m n : Nat}

attribute [simp] length_toList

theorem ext_toList {a b : Octets n} (h : a.toList = b.toList) : a = b := by
  cases a; cases b; cases h; rfl

theorem toList_inj {a b : Octets n} : a.toList = b.toList ↔ a = b :=
  ⟨ext_toList, fun h => h ▸ rfl⟩

@[simp] theorem isEmpty_toList (a : Octets (n + 1)) : a.toList.isEmpty = false := by
  rw [List.isEmpty_eq_false_iff, ← List.length_pos_iff, a.length_toList]
  exact Nat.succ_pos n

/-- The bytes as a fixed-size value, if there are exactly `n` of them. -/
def ofList? (n : Nat) (bytes : Bytes) : Option (Octets n) :=
  if h : bytes.length = n then some ⟨bytes, h⟩ else none

theorem ofList?_eq_some_iff {bytes : Bytes} {a : Octets n} :
    ofList? n bytes = some a ↔ a.toList = bytes := by
  unfold ofList?
  split
  · rw [Option.some.injEq, ← toList_inj]
    exact eq_comm
  · rename_i h
    simp only [reduceCtorEq, false_iff]
    rintro rfl
    exact h a.length_toList

@[simp] theorem ofList?_toList (a : Octets n) : ofList? n a.toList = some a :=
  ofList?_eq_some_iff.2 rfl

theorem ofList?_eq_none_iff {bytes : Bytes} :
    ofList? n bytes = none ↔ bytes.length ≠ n := by
  unfold ofList?
  split <;> simp_all

def replicate (n : Nat) (b : UInt8) : Octets n :=
  ⟨List.replicate n b, List.length_replicate⟩

instance : Inhabited (Octets n) := ⟨replicate n 0⟩

def append (a : Octets m) (b : Octets n) : Octets (m + n) :=
  ⟨a.toList ++ b.toList, by simp⟩

theorem toList_append (a : Octets m) (b : Octets n) :
    (a.append b).toList = a.toList ++ b.toList := rfl

/-- The first `n` bytes of a message known to be long enough. -/
def first (n : Nat) (bytes : Bytes) (h : n ≤ bytes.length) : Octets n :=
  ⟨bytes.take n, by simp [h]⟩

/-- The first `m` bytes. -/
def left (m : Nat) (a : Octets (m + n)) : Octets m :=
  first m a.toList (by simp)

/-- What follows the first `m` bytes. -/
def right (m : Nat) (a : Octets (m + n)) : Octets n :=
  ⟨a.toList.drop m, by simp⟩

theorem left_append_right (a : Octets (m + n)) :
    (a.left m).toList ++ (a.right m).toList = a.toList :=
  List.take_append_drop m a.toList

@[simp] theorem left_append (a : Octets m) (b : Octets n) : (a.append b).left m = a :=
  ext_toList (by simp [left, first, toList_append])

@[simp] theorem right_append (a : Octets m) (b : Octets n) : (a.append b).right m = b :=
  ext_toList (by simp [right, toList_append])

theorem append_inj {a c : Octets m} {b d : Octets n} :
    a.append b = c.append d ↔ a = c ∧ b = d := by
  constructor
  · intro same
    have left := congrArg (left m) same
    have right := congrArg (right m) same
    rw [left_append, left_append] at left
    rw [right_append, right_append] at right
    exact ⟨left, right⟩
  · rintro ⟨rfl, rfl⟩
    rfl

end Octets

/-! ### Numbers, least significant byte first -/

/-- The number whose little-endian digits are the bytes. -/
def natOfLE : Bytes → Nat
  | [] => 0
  | b :: rest => b.toNat + 256 * natOfLE rest

/-- How many numbers `n` bytes can spell. -/
def capacity : Nat → Nat
  | 0 => 1
  | n + 1 => 256 * capacity n

/-- The `n` lowest little-endian digits of a number. -/
def bytesLE : Nat → Nat → Bytes
  | 0, _ => []
  | n + 1, value => UInt8.ofNat value :: bytesLE n (value / 256)

@[simp] theorem length_bytesLE (n value : Nat) : (bytesLE n value).length = n := by
  induction n generalizing value with
  | zero => rfl
  | succ n ih => simp [bytesLE, ih]

theorem natOfLE_bytesLE (n value : Nat) : natOfLE (bytesLE n value) = value % capacity n := by
  induction n generalizing value with
  | zero => simp [bytesLE, natOfLE, capacity, Nat.mod_one]
  | succ n ih =>
    have byte : (UInt8.ofNat value).toNat = value % 256 := by simp
    rw [bytesLE, natOfLE, ih, byte, capacity, Nat.mod_mul]

theorem bytesLE_natOfLE (bytes : Bytes) : bytesLE bytes.length (natOfLE bytes) = bytes := by
  induction bytes with
  | nil => rfl
  | cons b rest ih =>
    have hb := b.toNat_lt
    have hdiv : (b.toNat + 256 * natOfLE rest) / 256 = natOfLE rest := by omega
    have hmod : UInt8.ofNat (b.toNat + 256 * natOfLE rest) = b := by
      apply UInt8.toNat_inj.1
      simp only [UInt8.toNat_ofNat']
      omega
    simp only [List.length_cons, bytesLE, natOfLE, hdiv, hmod, ih]

/-- The `n` lowest little-endian digits of a number, as a fixed-size value. -/
def Octets.ofNatLE (n value : Nat) : Octets n :=
  ⟨bytesLE n value, length_bytesLE n value⟩

/-- The number a fixed-size value spells, least significant byte first. -/
def Octets.toNatLE {n : Nat} (a : Octets n) : Nat :=
  natOfLE a.toList

theorem Octets.toNatLE_ofNatLE {n value : Nat} (small : value < capacity n) :
    (Octets.ofNatLE n value).toNatLE = value := by
  rw [toNatLE, ofNatLE, natOfLE_bytesLE, Nat.mod_eq_of_lt small]

/-! ### Numbers, most significant byte first -/

/-- The number whose big-endian digits are the bytes. -/
def natOfBE (bytes : Bytes) : Nat :=
  natOfLE bytes.reverse

/-- The `n` lowest big-endian digits of a number. -/
def bytesBE (n value : Nat) : Bytes :=
  (bytesLE n value).reverse

@[simp] theorem length_bytesBE (n value : Nat) : (bytesBE n value).length = n := by
  simp [bytesBE]

theorem natOfBE_bytesBE (n value : Nat) : natOfBE (bytesBE n value) = value % capacity n := by
  simp [natOfBE, bytesBE, natOfLE_bytesLE]

theorem bytesBE_inj {n a b : Nat} (ha : a < capacity n) (hb : b < capacity n)
    (h : bytesBE n a = bytesBE n b) : a = b := by
  have := congrArg natOfBE h
  rwa [natOfBE_bytesBE, natOfBE_bytesBE, Nat.mod_eq_of_lt ha, Nat.mod_eq_of_lt hb] at this

/-! ### Pieces and text -/

/-- The first `n` bytes of a message and what follows them, if there are that many. -/
def take? (n : Nat) (bytes : Bytes) : Option (Bytes × Bytes) :=
  if n ≤ bytes.length then some (bytes.take n, bytes.drop n) else none

theorem take?_append {front rest : Bytes} {n : Nat} (h : front.length = n) :
    take? n (front ++ rest) = some (front, rest) := by
  subst h
  simp [take?]

theorem length_of_take? {n : Nat} {bytes front rest : Bytes}
    (h : take? n bytes = some (front, rest)) : front.length = n ∧ bytes = front ++ rest := by
  unfold take? at h
  split at h
  · cases h
    simp [*]
  · cases h

/-- Cuts a list into pieces of `n` entries, the last one possibly shorter. -/
def pieces {α : Type} (n : Nat) : List α → List (List α)
  | [] => []
  | x :: rest => (x :: rest.take (n - 1)) :: pieces n (rest.drop (n - 1))
termination_by entries => entries.length
decreasing_by simp only [List.length_drop, List.length_cons]; omega

def utf8 (text : String) : Bytes :=
  text.toUTF8.data.toList

/-- The text the bytes spell in UTF-8, if they are well formed. -/
def ofUtf8? (bytes : Bytes) : Option String :=
  String.fromUTF8? ⟨bytes.toArray⟩

theorem ofUtf8?_utf8 (text : String) : ofUtf8? (utf8 text) = some text := by
  have h : text.toByteArray.IsValidUTF8 := text.isValidUTF8
  simp only [ofUtf8?, utf8, String.toUTF8_eq_toByteArray, Array.toArray_toList]
  unfold String.fromUTF8?
  rw [dif_pos h]
  rfl

/-- The lowercase hexadecimal digit of a number below 16. -/
def hexDigit (digit : Nat) : Char :=
  Char.ofNat (if digit < 10 then 48 + digit else 87 + digit)

def hexByte (b : UInt8) : List Char :=
  [hexDigit (b.toNat / 16), hexDigit (b.toNat % 16)]

/-- Lowercase hexadecimal text, two digits a byte. -/
def toHex (bytes : Bytes) : String :=
  String.ofList (bytes.flatMap hexByte)

end SealedGroups
