import SealedGroups.Cbor.Head

/-!
# Reading CBOR values

Readers take the front of the input and return what they leave. They are lenient where the format
is: tags in front of a value are passed over, numbers may be written wider than needed or as big
numbers, and a value nobody asked for is skipped whatever it is. A value is skipped with a budget
for nesting, so that no input can make the reader descend without end.

Input is taken from front to back and the first flaw met is the one reported. Long strings are taken
in pieces, so a flaw inside a string may come before the end of the input.
-/

namespace SealedGroups.Cbor

/-- The first head that is no tag. -/
def readUntagged (bytes : Bytes) : Except Error (Head × Bytes) :=
  match _h : Head.read bytes with
  | .error e => .error e
  | .ok (.tag _, rest) => readUntagged rest
  | .ok (head, rest) => .ok (head, rest)
termination_by bytes.length
decreasing_by exact Head.length_lt_of_read _h

/-! ### Strings -/

/-- The longest string that is taken in one piece. -/
def longest : Nat := 4096

/-- How many bytes at the end of a piece of text belong to a character that the end cuts through. A
character has at most four bytes, so more than three cannot be the beginning of one. -/
def cutOff? (piece : Bytes) : Option (Fin 4) :=
  [0, 1, 2, 3].find? fun cut => (ofUtf8? (piece.take (piece.length - cut.val))).isSome

/-- The first bytes of the input, behind those read before. -/
def readOctets (before : Bytes) (length : Nat) (bytes : Bytes) : Except Error (Bytes × Bytes) :=
  match take? length bytes with
  | none => .error .truncated
  | some (content, rest) => .ok (before ++ content, rest)

/-- Text, behind that read before. Long text is taken in pieces, each of which is checked before the
next one is taken; a character that the end of a piece cuts through begins the next one. So a flaw
in an early piece is found even when the input ends inside a later one. -/
def readText (before : Bytes) (length : Nat) (bytes : Bytes) : Except Error (Bytes × Bytes) :=
  if length ≤ longest then
    match take? length bytes with
    | none => .error .truncated
    | some (piece, rest) =>
      if (ofUtf8? piece).isSome then .ok (before ++ piece, rest) else .error .malformed
  else
    match take? longest bytes with
    | none => .error .truncated
    | some (piece, _) =>
      match cutOff? piece with
      | none => .error .malformed
      | some cut =>
        let whole := longest - cut.val
        readText (before ++ piece.take whole) (length - whole) (bytes.drop whole)
termination_by length
decreasing_by
  have := cut.isLt
  simp only [longest] at *
  omega

/-- The length of a segment, if the head begins one of a byte string or of a text. -/
def Head.segment? (isText : Bool) : Head → Option (Option Nat)
  | .bytes length => if isText then none else some length
  | .text length => if isText then some length else none
  | _ => none

/-- The segments of a string of indefinite length, up to the stop that ends it. Strings of
indefinite length may be nested. `step` reads the content of a segment of known length. Every head
is at least one byte, so as many rounds as there are bytes suffice. -/
def readSegments {α : Type} (isText : Bool)
    (step : α → Nat → Bytes → Except Error (α × Bytes)) :
    (rounds depth : Nat) → α → Bytes → Except Error (α × Bytes)
  | 0, _, _, _ => .error .truncated
  | rounds + 1, depth, before, bytes => do
    let (head, rest) ← Head.read bytes
    if head = .stop then
      if depth ≤ 1 then return (before, rest)
      else readSegments isText step rounds (depth - 1) before rest
    else
      match head.segment? isText with
      | none => throw .malformed
      | some none => readSegments isText step rounds (depth + 1) before rest
      | some (some length) =>
        let (before, rest) ← step before length rest
        readSegments isText step rounds depth before rest

/-- The content of a string whose head gave this length. -/
def readString {α : Type} (isText : Bool) (step : α → Nat → Bytes → Except Error (α × Bytes))
    (initial : α) (length : Option Nat) (bytes : Bytes) : Except Error (α × Bytes) :=
  match length with
  | some length => step initial length bytes
  | none => readSegments isText step bytes.length 1 initial bytes

/-! ### Numbers -/

/-- A whole number with the sign that its head gave it; a negative one stands for `-1 - value`. -/
structure Integer where
  isNegative : Bool
  value : Nat

/-- How many digits a big number may have, leading zeros apart. -/
def maxDigits : Nat := 16

/-- The digits of a big number, behind those read before and without leading zeros. They are taken
in pieces as long as the longest number, and the first digit too many ends the reading. -/
def readDigits (before : Bytes) (length : Nat) (bytes : Bytes) : Except Error (Bytes × Bytes) :=
  if _h : length = 0 then .ok (before, bytes)
  else
    match take? (min maxDigits length) bytes with
    | none => .error .truncated
    | some (piece, rest) =>
      let digits := (before ++ piece).dropWhile (· == 0)
      if maxDigits < digits.length then .error .unexpected
      else readDigits digits (length - maxDigits) rest
termination_by length
decreasing_by simp only [maxDigits]; omega

/-- A big number: a byte string of digits. -/
def readBig (isNegative : Bool) (bytes : Bytes) : Except Error (Integer × Bytes) := do
  let (head, rest) ← Head.read bytes
  match head with
  | .bytes length =>
    let (digits, rest) ← readString false readDigits [] length rest
    return (⟨isNegative, natOfBE digits⟩, rest)
  | _ => throw .unexpected

/-- The tags of big numbers. -/
def bigPositive : Nat := 2

def bigNegative : Nat := 3

/-- A whole number, behind any tags. -/
def readInteger (bytes : Bytes) : Except Error (Integer × Bytes) :=
  match _h : Head.read bytes with
  | .error e => .error e
  | .ok (.unsigned value, rest) => .ok (⟨false, value⟩, rest)
  | .ok (.negative value, rest) => .ok (⟨true, value⟩, rest)
  | .ok (.tag number, rest) =>
    if number = bigPositive then readBig false rest
    else if number = bigNegative then readBig true rest
    else readInteger rest
  | .ok (_, _) => .error .unexpected
termination_by bytes.length
decreasing_by exact Head.length_lt_of_read _h

def readBelow (bound : Nat) (bytes : Bytes) : Except Error (Nat × Bytes) := do
  let (integer, rest) ← readInteger bytes
  if integer.isNegative ∨ bound ≤ integer.value then throw .unexpected
  return (integer.value, rest)

/-! ### Values nobody asked for -/

/-- Whether a tag makes a number of the item it stands in front of: a byte string that is short
enough to hold no digit too many. -/
def Head.isBig (number : Nat) : Head → Bool
  | .bytes (some length) =>
    (number == bigPositive || number == bigNegative) && decide (length ≤ maxDigits)
  | _ => false

mutual

/-- Passes over one value. Arrays, maps and tags use up one level of nesting each, except a tag that
makes the byte string behind it a big number. What a tag stands in front of is looked at before the
level is used up. -/
def skipValue (fuel depth : Nat) (bytes : Bytes) : Except Error Bytes :=
  match fuel with
  | 0 => .error .truncated
  | fuel + 1 => do
    let (head, rest) ← Head.read bytes
    match head with
    | .unsigned _ | .negative _ | .float => return rest
    | .bytes length => return (← readString false readOctets [] length rest).2
    | .text length => return (← readString true readText [] length rest).2
    | .array length =>
      match depth with
      | 0 => throw .tooDeep
      | depth + 1 =>
        match length with
        | some length => skipValues fuel depth length rest
        | none => skipUntilStop fuel depth 1 rest
    | .map length =>
      match depth with
      | 0 => throw .tooDeep
      | depth + 1 =>
        match length with
        | some length => skipValues fuel depth (2 * length) rest
        | none => skipUntilStop fuel depth 2 rest
    | .tag number =>
      if (← Head.read rest).1.isBig number then
        let (integer, rest) ← readBig (number == bigNegative) rest
        if integer.isNegative ∧ 1 <<< 127 ≤ integer.value then throw .unexpected
        return rest
      else
        match depth with
        | 0 => throw .tooDeep
        | depth + 1 => skipValue fuel depth rest
    | .simple number => if 20 ≤ number ∧ number ≤ 23 then return rest else throw .unexpected
    | .stop => throw .unexpected

def skipValues (fuel depth count : Nat) (bytes : Bytes) : Except Error Bytes :=
  match fuel with
  | 0 => .error .truncated
  | fuel + 1 =>
    match count with
    | 0 => return bytes
    | count + 1 => do skipValues fuel depth count (← skipValue fuel depth bytes)

/-- Passes over groups of values up to the stop that ends them. -/
def skipUntilStop (fuel depth group : Nat) (bytes : Bytes) : Except Error Bytes :=
  match fuel with
  | 0 => .error .truncated
  | fuel + 1 => do
    let (head, rest) ← Head.read bytes
    if head = .stop then return rest
    else skipUntilStop fuel depth group (← skipValues fuel depth group bytes)

end

/-- Passes over one value with a budget for nesting. A head is at least one byte, and between two
heads at most three calls are made, so the calls allowed here suffice for any input. -/
def skip (depth : Nat) (bytes : Bytes) : Except Error Bytes :=
  skipValue (3 * bytes.length + 3) depth bytes

end SealedGroups.Cbor
