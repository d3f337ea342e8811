import SealedGroups.Wire.Varint

/-!
# Fields on the wire

A record is written as fields one after another. Each begins with a key, which holds the tag of the
field and the form of its payload. Groups, an old form that nests fields between two keys, are never
written; in input they are passed over, to a limited depth.

Reading a message into fields comes before, and knows nothing of, what the fields mean.
-/

namespace SealedGroups.Wire

/-- What a field carries. -/
inductive Payload where
  | varint (value : UInt64)
  | fixed64 (content : Octets 8)
  | bytes (content : Bytes)
  | fixed32 (content : Octets 4)
  /-- Fields between two keys, passed over. -/
  | group
deriving DecidableEq

structure Field where
  tag : Nat
  payload : Payload
deriving DecidableEq

/-- The largest tag that a key can hold. -/
def maxTag : Nat := (1 <<< 29) - 1

/-! ### Writing -/

/-- A key: the tag and, in the three low bits, the form of the payload. -/
def writeKey (tag form : Nat) : Bytes :=
  Varint.write (8 * tag + form)

namespace Field

def write (field : Field) : Bytes :=
  match field.payload with
  | .varint value => writeKey field.tag 0 ++ Varint.write value.toNat
  | .fixed64 content => writeKey field.tag 1 ++ content.toList
  | .bytes content => writeKey field.tag 2 ++ Varint.write content.length ++ content
  | .fixed32 content => writeKey field.tag 5 ++ content.toList
  | .group => writeKey field.tag 3 ++ writeKey field.tag 4

end Field

def writeFields (fields : List Field) : Bytes :=
  fields.flatMap Field.write

/-! ### Reading -/

/-- A key: a tag that is not zero, and the form of the payload. -/
def readKey (bytes : Bytes) : Option ((Nat × Nat) × Bytes) :=
  match Varint.read bytes with
  | none => none
  | some (key, rest) =>
    if UInt32.size ≤ key ∨ key / 8 = 0 then none else some ((key / 8, key % 8), rest)

theorem length_lt_of_readKey {bytes rest : Bytes} {key : Nat × Nat}
    (h : readKey bytes = some (key, rest)) : rest.length < bytes.length := by
  unfold readKey at h
  split at h
  · cases h
  · rename_i found
    have := Varint.length_lt_of_read found
    split at h
    · cases h
    · cases h
      exact this

/-- A payload of a form that is no group. -/
def readPayload (form : Nat) (bytes : Bytes) : Option (Payload × Bytes) :=
  match form with
  | 0 => (Varint.read bytes).map fun (value, rest) => (.varint (UInt64.ofNat value), rest)
  | 1 => do
    let (content, rest) ← take? 8 bytes
    return (.fixed64 (← Octets.ofList? 8 content), rest)
  | 2 => do
    let (length, rest) ← Varint.read bytes
    let (content, rest) ← take? length rest
    return (.bytes content, rest)
  | 5 => do
    let (content, rest) ← take? 4 bytes
    return (.fixed32 (← Octets.ofList? 4 content), rest)
  | _ => none

theorem length_le_of_readPayload {form : Nat} {bytes rest : Bytes} {payload : Payload}
    (h : readPayload form bytes = some (payload, rest)) : rest.length ≤ bytes.length := by
  unfold readPayload at h
  split at h
  · simp only [Option.map_eq_some_iff, Prod.mk.injEq, Prod.exists] at h
    obtain ⟨_, _, found, -, rfl⟩ := h
    exact Nat.le_of_lt (Varint.length_lt_of_read found)
  · simp only [bind, Option.bind_eq_some_iff, Prod.exists] at h
    obtain ⟨_, _, found, _, -, h⟩ := h
    cases h
    simp [(length_of_take? found).2]
  · simp only [bind, Option.bind_eq_some_iff, Prod.exists] at h
    obtain ⟨_, _, found, _, _, taken, h⟩ := h
    cases h
    have := Varint.length_lt_of_read found
    simp only [(length_of_take? taken).2, List.length_append] at this
    omega
  · simp only [bind, Option.bind_eq_some_iff, Prod.exists] at h
    obtain ⟨_, _, found, _, -, h⟩ := h
    cases h
    simp [(length_of_take? found).2]
  · cases h

/-- Passes over the fields of a group up to the key that closes it. A group inside a group uses up
one level of the budget, and nothing may stand at the lowest level. Every key is at least one byte,
so as many rounds as there are bytes suffice. -/
def skipGroup : (rounds budget tag : Nat) → Bytes → Option Bytes
  | 0, _, _, _ => none
  | rounds + 1, budget, tag, bytes => do
    let ((inner, form), rest) ← readKey bytes
    if form = 4 then
      if inner = tag then some rest else none
    else if budget ≤ 1 then none
    else if form = 3 then
      skipGroup rounds budget tag (← skipGroup rounds (budget - 1) inner rest)
    else
      let (_, rest) ← readPayload form rest
      skipGroup rounds budget tag rest

theorem length_le_of_skipGroup {rounds budget tag : Nat} {bytes rest : Bytes}
    (h : skipGroup rounds budget tag bytes = some rest) : rest.length ≤ bytes.length := by
  induction rounds generalizing budget tag bytes rest with
  | zero => cases h
  | succ rounds ih =>
    simp only [skipGroup, bind, Option.bind_eq_some_iff, Prod.exists] at h
    obtain ⟨inner, form, after, found, h⟩ := h
    have := length_lt_of_readKey found
    split at h
    · split at h
      · cases h
        omega
      · cases h
    · split at h
      · cases h
      · split at h
        · obtain ⟨_, skipped, h⟩ := Option.bind_eq_some_iff.1 h
          have := ih skipped
          have := ih h
          omega
        · obtain ⟨⟨_, _⟩, passed, h⟩ := Option.bind_eq_some_iff.1 h
          have := length_le_of_readPayload passed
          have := ih h
          dsimp only at this
          omega

def readField (budget : Nat) (bytes : Bytes) : Option (Field × Bytes) := do
  let ((tag, form), rest) ← readKey bytes
  if form = 3 then
    return (⟨tag, .group⟩, ← skipGroup bytes.length budget tag rest)
  else
    let (payload, rest) ← readPayload form rest
    return (⟨tag, payload⟩, rest)

theorem length_lt_of_readField {budget : Nat} {bytes rest : Bytes} {field : Field}
    (h : readField budget bytes = some (field, rest)) : rest.length < bytes.length := by
  simp only [readField, bind, Option.bind_eq_some_iff, Prod.exists] at h
  obtain ⟨tag, form, after, found, h⟩ := h
  have := length_lt_of_readKey found
  split at h
  · obtain ⟨_, skipped, h⟩ := Option.bind_eq_some_iff.1 h
    cases h
    have := length_le_of_skipGroup skipped
    omega
  · obtain ⟨⟨_, _⟩, passed, h⟩ := Option.bind_eq_some_iff.1 h
    cases h
    have := length_le_of_readPayload passed
    dsimp only
    omega

def readFields (budget : Nat) (bytes : Bytes) : Option (List Field) :=
  if bytes = [] then some []
  else
    match _h : readField budget bytes with
    | none => none
    | some (field, rest) => (readFields budget rest).map (field :: ·)
termination_by bytes.length
decreasing_by exact length_lt_of_readField _h

end SealedGroups.Wire
