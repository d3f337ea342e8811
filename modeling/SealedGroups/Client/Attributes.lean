import SealedGroups.Client.Basic
import SealedGroups.Noted
import SealedGroups.Sealed.Group

/-!
# Attributes

Title, description, timer and picture of a group are encrypted blobs. A blob says which attribute it
holds, so one cannot stand for another. An attribute that was never set is empty; one that cannot be
read, or is another than expected, is noted and treated as never set.
-/

namespace SealedGroups.Keyring

def sealAttribute (keys : Keyring) (content : Attribute) (rng : Random) :
    Except SealingError Bytes × Random :=
  keys.sealBlob (Wire.Record.write ({ content } : AttributeBlob)) rng

variable {ε : Type}

/-- What a blob holds, if it can be read. -/
def openAttribute (keys : Keyring) (name : String) (blob : Bytes) : Noted ε (Option Attribute) :=
  if blob.isEmpty then pure none
  else
    match keys.openBlob blob with
    | .error e => do
      .warn s!"could not decrypt {name}: {e.message}"
      return none
    | .ok plaintext =>
      match Wire.Record.read? (R := AttributeBlob) plaintext with
      | some blob => pure blob.content
      | none => do
        .warn s!"could not decode {name}"
        return none

/-- The attribute of one kind that a blob holds, or a default. -/
def openAs {α : Type} (keys : Keyring) (name : String) (select : Attribute → Option α)
    (default : α) (blob : Bytes) : Noted ε α := do
  match ← keys.openAttribute name blob with
  | none => return default
  | some content =>
    match select content with
    | some value => return value
    | none =>
      .warn s!"{name} blob holds another attribute"
      return default

def openTitle (keys : Keyring) : Bytes → Noted ε String :=
  keys.openAs "title" (fun | .title text => some text | _ => none) ""

def openDescription (keys : Keyring) : Bytes → Noted ε String :=
  keys.openAs "description" (fun | .description text => some text | _ => none) ""

def openTimer (keys : Keyring) : Bytes → Noted ε UInt32 :=
  keys.openAs "timer" (fun | .timer duration => some duration | _ => none) 0

/-- The picture of a group, or nothing if it cannot be read. -/
def openAvatar (keys : Keyring) : Bytes → Noted ε Bytes :=
  keys.openAs "avatar" (fun | .avatar picture => some picture | _ => none) []

end SealedGroups.Keyring
