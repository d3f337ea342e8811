import SealedGroups.Octets

/-!
# Who is in a group

A person is known by an account identity (ACI) or by a phone number identity (PNI); both are UUIDs.
Two codecs write a service id as bytes. The binary form, kept in plaintext records, gives an account
its bare sixteen bytes and puts a kind byte only in front of a phone number identity. The
fixed-width form, the one that is encrypted, always has a kind byte, so that ciphertexts do not
differ in length.
-/

namespace SealedGroups

abbrev Uuid := Octets 16

/-- The usual text of a UUID: hexadecimal digits in groups of 8, 4, 4, 4 and 12. -/
def Uuid.toText (uuid : Uuid) : String :=
  let part (start size : Nat) := toHex ((uuid.toList.drop start).take size)
  "-".intercalate [part 0 4, part 4 2, part 6 2, part 8 2, part 10 6]

inductive ServiceId where
  | aci (uuid : Uuid)
  | pni (uuid : Uuid)
deriving DecidableEq

namespace ServiceId

/-- Why bytes are not the service id that was expected. -/
inductive Error where
  | empty
  | invalidLength (length : Nat)
  | unknownKind (kind : UInt8)
  | notAnAci
deriving DecidableEq

def Error.message : Error → String
  | .empty => "service id is empty"
  | .invalidLength length => s!"service id has invalid length {length}"
  | .unknownKind kind => s!"service id has unknown kind prefix 0x{toHex [kind]}"
  | .notAnAci => "expected an account identity, got a phone number identity"

def uuid : ServiceId → Uuid
  | .aci uuid => uuid
  | .pni uuid => uuid

def isAci : ServiceId → Bool
  | .aci _ => true
  | .pni _ => false

/-- The account identity, if it is one. -/
def aci? : ServiceId → Option Uuid
  | .aci uuid => some uuid
  | .pni _ => none

def toText : ServiceId → String
  | .aci uuid => uuid.toText
  | .pni uuid => "PNI:" ++ uuid.toText

/-- The byte that marks an account identity where every kind is marked. -/
def aciKind : UInt8 := 0x00

/-- The byte that marks a phone number identity. -/
def pniKind : UInt8 := 0x01

/-! ### The binary form -/

/-- The bytes of a service id in plaintext records. -/
def toBinary : ServiceId → Bytes
  | .aci uuid => uuid.toList
  | .pni uuid => pniKind :: uuid.toList

def ofBinary (bytes : Bytes) : Except Error ServiceId :=
  match Octets.ofList? 16 bytes with
  | some uuid => .ok (.aci uuid)
  | none =>
    match bytes with
    | [] => .error .empty
    | kind :: rest =>
      match Octets.ofList? 16 rest with
      | some uuid => if kind = pniKind then .ok (.pni uuid) else .error (.unknownKind kind)
      | none => .error (.invalidLength bytes.length)

def aciOfBinary (bytes : Bytes) : Except Error Uuid :=
  match ofBinary bytes with
  | .ok (.aci uuid) => .ok uuid
  | .ok (.pni _) => .error .notAnAci
  | .error e => .error e

@[simp] theorem ofBinary_toBinary (id : ServiceId) : ofBinary id.toBinary = .ok id := by
  cases id with
  | aci uuid => simp [toBinary, ofBinary]
  | pni uuid =>
    have : Octets.ofList? 16 (pniKind :: uuid.toList) = none := by
      rw [Octets.ofList?_eq_none_iff]
      simp
    simp [toBinary, ofBinary, this]

/-- The binary form of an identity is the only one that is read as the identity. -/
theorem ofBinary_eq_ok_iff {bytes : Bytes} {id : ServiceId} :
    ofBinary bytes = .ok id ↔ id.toBinary = bytes := by
  constructor
  · intro read
    unfold ofBinary at read
    split at read
    · rename_i uuid sized
      cases read
      exact Octets.ofList?_eq_some_iff.1 sized
    · split at read
      · cases read
      · split at read
        · rename_i uuid sized
          split at read
          · rename_i kind
            cases read
            rw [kind, ← Octets.ofList?_eq_some_iff.1 sized]
            rfl
          · cases read
        · cases read
  · rintro rfl
    exact ofBinary_toBinary id

/-- The text shown for stored bytes: the service id they spell, or else their digits. -/
def display (bytes : Bytes) : String :=
  match ofBinary bytes with
  | .ok id => id.toText
  | .error _ => toHex bytes

/-! ### The fixed-width form -/

/-- The bytes of a service id that are encrypted. -/
def toFixedWidth : ServiceId → Octets 17
  | .aci uuid => ⟨aciKind :: uuid.toList, by simp⟩
  | .pni uuid => ⟨pniKind :: uuid.toList, by simp⟩

def ofFixedWidth (bytes : Octets 17) : Except Error ServiceId :=
  let kind := bytes.toList.headD 0
  let uuid := Octets.right (n := 16) 1 bytes
  if kind = aciKind then .ok (.aci uuid)
  else if kind = pniKind then .ok (.pni uuid)
  else .error (.unknownKind kind)

@[simp] theorem ofFixedWidth_toFixedWidth (id : ServiceId) :
    ofFixedWidth id.toFixedWidth = .ok id := by
  cases id <;> simp [toFixedWidth, ofFixedWidth, Octets.right, aciKind, pniKind]

/-- The fixed-width form of an identity is the only one that is read as the identity. -/
theorem ofFixedWidth_eq_ok_iff {bytes : Octets 17} {id : ServiceId} :
    ofFixedWidth bytes = .ok id ↔ id.toFixedWidth = bytes := by
  have parts : bytes.toList.headD 0 :: (Octets.right (n := 16) 1 bytes).toList = bytes.toList := by
    obtain ⟨_ | ⟨kind, rest⟩, length⟩ := bytes
    · cases length
    · rfl
  constructor
  · intro read
    apply Octets.ext_toList
    rw [← parts]
    simp only [ofFixedWidth] at read
    split at read
    · rename_i kind
      cases read
      rw [kind]
      rfl
    · split at read
      · rename_i kind
        cases read
        rw [kind]
        rfl
      · cases read
  · rintro rfl
    exact ofFixedWidth_toFixedWidth id

end ServiceId

end SealedGroups
