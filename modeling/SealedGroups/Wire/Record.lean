import SealedGroups.Wire.Field

/-!
# Records

A record type is laid out once, as a list of slots; writing, reading and the highest tag in use all
follow from that list. A slot says how one member of the record is carried: under which tags, how it
is written as fields, and how a field that arrives is merged into it. Defaults are not written. What
arrives later wins, except that messages are merged and lists grow; fields of unknown tags are
passed over, and a field whose payload has the wrong form spoils the whole record.

The members of a record in the order of its slots form a row, a tuple whose type follows from the
layout, so a record type joins in by saying how it and its row turn into each other.
-/

namespace SealedGroups.Wire

/-- How one member of a record is carried. -/
structure Slot (α : Type) where
  tags : List Nat
  /-- What the member is before any field arrived. -/
  initial : α
  write : α → List Field
  /-- Merges a field of one of the tags into the member, with a budget for nesting. -/
  merge : (budget : Nat) → Field → α → Option α

/-- A slot together with the type of its member. -/
structure Part where
  Member : Type
  slot : Slot Member

/-- The slots of a record, by ascending tag. -/
abbrev Layout := List Part

namespace Layout

/-- The members of a record in the order of its slots. -/
def Row : Layout → Type
  | [] => Unit
  | part :: rest => part.Member × Row rest

def initial : (layout : Layout) → layout.Row
  | [] => ()
  | part :: rest => (part.slot.initial, initial rest)

def write : (layout : Layout) → layout.Row → List Field
  | [], _ => []
  | part :: rest, row => part.slot.write row.1 ++ write rest row.2

/-- Merges a field into the member that has its tag. -/
def merge (budget : Nat) (field : Field) : (layout : Layout) → layout.Row → Option layout.Row
  | [], row => some row
  | part :: rest, row =>
    if field.tag ∈ part.slot.tags then
      (part.slot.merge budget field row.1).map (·, row.2)
    else (merge budget field rest row.2).map (row.1, ·)

/-- Merges the fields of a message one after another. -/
def mergeBytes (layout : Layout) (budget : Nat) (row : layout.Row) (bytes : Bytes) :
    Option layout.Row := do
  (← readFields budget bytes).foldlM (fun row field => layout.merge budget field row) row

def tags (layout : Layout) : List Nat :=
  layout.flatMap fun part => part.slot.tags

def maxTag (layout : Layout) : Nat :=
  layout.tags.foldl max 0

end Layout

/-- A type whose values are exchanged as records. -/
class Record (R : Type) where
  layout : Layout
  toRow : R → layout.Row
  ofRow : layout.Row → R

namespace Record

variable {R : Type} [Record R]

def initial : R :=
  ofRow (Layout.initial (layout R))

def write (r : R) : Bytes :=
  writeFields ((layout R).write (toRow r))

def mergeBytes (budget : Nat) (r : R) (bytes : Bytes) : Option R :=
  ((layout R).mergeBytes budget (toRow r) bytes).map ofRow

/-- How deeply messages and groups may be nested. -/
def nesting : Nat := 100

def read? (bytes : Bytes) : Option R :=
  mergeBytes nesting initial bytes

end Record

/-! ### Slots -/

namespace Slot

/-- A member carried as a number. -/
def number {α : Type} [DecidableEq α] (tag : Nat) (initial : α) (encode : α → UInt64)
    (decode : UInt64 → α) : Slot α where
  tags := [tag]
  initial
  write value := if value = initial then [] else [⟨tag, .varint (encode value)⟩]
  merge _ field _ :=
    match field.payload with
    | .varint value => some (decode value)
    | _ => none

def uint32 (tag : Nat) : Slot UInt32 :=
  number tag 0 UInt32.toUInt64 UInt64.toUInt32

def uint64 (tag : Nat) : Slot UInt64 :=
  number tag 0 id id

def bool (tag : Nat) : Slot Bool :=
  number tag false Bool.toUInt64 (· != 0)

/-- A signed number is carried as the 64-bit number of the same value. -/
def int32 (tag : Nat) : Slot Int32 :=
  number tag 0 (fun value => value.toInt64.toUInt64) (fun value => value.toUInt32.toInt32)

def bytes (tag : Nat) : Slot Bytes where
  tags := [tag]
  initial := []
  write content := if content = [] then [] else [⟨tag, .bytes content⟩]
  merge _ field _ :=
    match field.payload with
    | .bytes content => some content
    | _ => none

def text (tag : Nat) : Slot String where
  tags := [tag]
  initial := ""
  write content := if content = "" then [] else [⟨tag, .bytes (utf8 content)⟩]
  merge _ field _ :=
    match field.payload with
    | .bytes content => ofUtf8? content
    | _ => none

/-- A list of byte strings, each its own field. -/
def bytesList (tag : Nat) : Slot (List Bytes) where
  tags := [tag]
  initial := []
  write contents := contents.map fun content => ⟨tag, .bytes content⟩
  merge _ field contents :=
    match field.payload with
    | .bytes content => some (contents ++ [content])
    | _ => none

/-- A message that may be missing. -/
def optional {R : Type} [Record R] (tag : Nat) : Slot (Option R) where
  tags := [tag]
  initial := none
  write
    | none => []
    | some r => [⟨tag, .bytes (Record.write r)⟩]
  merge budget field r :=
    match budget, field.payload with
    | budget + 1, .bytes content =>
      (Record.mergeBytes budget (r.getD Record.initial) content).map some
    | _, _ => none

/-- A list of messages, each its own field. -/
def messages {R : Type} [Record R] (tag : Nat) : Slot (List R) where
  tags := [tag]
  initial := []
  write rs := rs.map fun r => ⟨tag, .bytes (Record.write r)⟩
  merge budget field rs :=
    match budget, field.payload with
    | budget + 1, .bytes content =>
      (Record.mergeBytes budget Record.initial content).map (rs ++ [·])
    | _, _ => none

/-- The same slot for a type that only wraps another. -/
def wrap {α β : Type} (slot : Slot α) (wrapped : α → β) (unwrap : β → α) : Slot β where
  tags := slot.tags
  initial := wrapped slot.initial
  write value := slot.write (unwrap value)
  merge budget field value := (slot.merge budget field (unwrap value)).map wrapped

end Slot

end SealedGroups.Wire
