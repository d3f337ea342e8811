import SealedGroups.Cbor.Read

/-!
# Maps with named fields

A value with named fields is a map from names to numbers and byte strings. Writing puts the fields
in the order given; reading takes them in any order, passes over names it does not know and refuses
a name given twice. What was read is a list of named items, from which the value picks its fields by
name and size.
-/

namespace SealedGroups.Cbor

/-- What a field holds. -/
inductive Item where
  | number (value : UInt64)
  | octets (content : Bytes)
deriving DecidableEq

abbrev Entry := String × Item

/-! ### Writing -/

def Item.write : Item → Bytes
  | .number value => Head.write 0 value.toNat
  | .octets content => Head.write 2 content.length ++ content

def writeText (text : String) : Bytes :=
  Head.write 3 (utf8 text).length ++ utf8 text

def writeEntries (entries : List Entry) : Bytes :=
  entries.flatMap fun entry => writeText entry.1 ++ entry.2.write

def writeMap (entries : List Entry) : Bytes :=
  Head.write 5 entries.length ++ writeEntries entries

/-! ### Reading -/

/-- What a field is expected to hold. -/
inductive Kind where
  | number
  /-- Bytes of a fixed number, also as an array of numbers. -/
  | octets (size : Nat)
  /-- Bytes of a fixed number, as a byte string only. -/
  | string (size : Nat)
deriving DecidableEq

/-- A byte string of definite length, if it fits into one piece. -/
def readPiece (length : Nat) (bytes : Bytes) : Except Error (Bytes × Bytes) :=
  if length ≤ longest then readOctets [] length bytes else .error .unexpected

/-- The first `count` elements of an array of bytes; what the array holds beyond them is left. -/
def readElements : (count : Nat) → (length : Option Nat) → (bytes : Bytes) →
    Except Error (Bytes × Bytes)
  | 0, _, bytes => .ok ([], bytes)
  | count + 1, length, bytes => do
    let left ← match length with
      | none => do
        if (← Head.read bytes).1 = .stop then throw .unexpected
        pure none
      | some 0 => throw .unexpected
      | some (left + 1) => pure (some left)
    let (value, rest) ← readBelow 256 bytes
    let (more, rest) ← readElements count left rest
    return (UInt8.ofNat value :: more, rest)

def readFixed (size : Nat) (arrays : Bool) (bytes : Bytes) : Except Error (Bytes × Bytes) := do
  let (head, rest) ← readUntagged bytes
  match head with
  | .bytes (some length) =>
    let (content, rest) ← readPiece length rest
    if content.length = size then return (content, rest) else throw .unexpected
  | .array length => if arrays then readElements size length rest else throw .unexpected
  | _ => throw .unexpected

def Kind.read : Kind → Bytes → Except Error (Item × Bytes)
  | .number, bytes => do
    let (value, rest) ← readBelow UInt64.size bytes
    return (.number (UInt64.ofNat value), rest)
  | .octets size, bytes => do
    let (content, rest) ← readFixed size true bytes
    return (.octets content, rest)
  | .string size, bytes => do
    let (content, rest) ← readFixed size false bytes
    return (.octets content, rest)

/-- The name of an entry, as text or as a byte string. -/
def readName (bytes : Bytes) : Except Error (Bytes × Bytes) := do
  let (head, rest) ← readUntagged bytes
  match head with
  | .text (some length) =>
    if length ≤ longest then readText [] length rest else throw .unexpected
  | .bytes (some length) => readPiece length rest
  | _ => throw .unexpected

def field? (fields : List (String × Kind)) (name : Bytes) : Option (String × Kind) :=
  fields.find? fun field => utf8 field.1 == name

/-- Reads entries to the end of the map, adding those of known names to the ones found so far. Every
entry takes at least one byte, so as many rounds as there are bytes suffice. -/
def readEntries (fields : List (String × Kind)) (depth : Nat) :
    (rounds : Nat) → (length : Option Nat) → (found : List Entry) → (bytes : Bytes) →
      Except Error (List Entry × Bytes)
  | 0, _, _, _ => .error .truncated
  | rounds + 1, length, found, bytes => do
    let left ← match length with
      | some 0 => return (found, bytes)
      | some (left + 1) => pure (some left)
      | none =>
        let (head, rest) ← Head.read bytes
        if head = .stop then return (found, rest)
        pure none
    let (name, rest) ← readName bytes
    match field? fields name with
    | none => readEntries fields depth rounds left found (← skip depth rest)
    | some (name, kind) =>
      if (found.lookup name).isSome then throw .unexpected
      let (item, rest) ← kind.read rest
      readEntries fields depth rounds left (found ++ [(name, item)]) rest

/-- How deeply values may be nested, the map itself included. -/
def nesting : Nat := 256

/-- The named items at the front of the input. What follows the map is not looked at. -/
def readMap (fields : List (String × Kind)) (bytes : Bytes) : Except Error (List Entry) := do
  let (head, rest) ← readUntagged bytes
  match head with
  | .map length =>
    return (← readEntries fields (nesting - 1) (rest.length + 1) length [] rest).1
  | _ => throw .unexpected

def number (entries : List Entry) (name : String) : Except Error UInt64 :=
  match entries.lookup name with
  | some (.number value) => .ok value
  | _ => .error .unexpected

def octets (entries : List Entry) (name : String) (size : Nat) : Except Error (Octets size) :=
  match entries.lookup name with
  | some (.octets content) =>
    match Octets.ofList? size content with
    | some value => .ok value
    | none => .error .unexpected
  | _ => .error .unexpected

end SealedGroups.Cbor
