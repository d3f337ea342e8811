import SealedGroups.Octets

/-!
# ChaCha20

The state is a square of sixteen words, kept as four rows. A column round mixes the four rows word
by word; a diagonal round is a column round between two rotations of the rows, so a double round is
written once over rows. Blocks serve three purposes here: the keystream of the cipher, the subkeys
of its extended-nonce variant and the output of the random generator.
-/

namespace SealedGroups.ChaCha20

/-- Four words side by side. -/
structure Row where
  a : UInt32
  b : UInt32
  c : UInt32
  d : UInt32

namespace Row

def zipWith (f : UInt32 → UInt32 → UInt32) (x y : Row) : Row :=
  ⟨f x.a y.a, f x.b y.b, f x.c y.c, f x.d y.d⟩

def map (f : UInt32 → UInt32) (x : Row) : Row :=
  ⟨f x.a, f x.b, f x.c, f x.d⟩

/-- The row rotated to the left by one word. -/
def rotate (x : Row) : Row :=
  ⟨x.b, x.c, x.d, x.a⟩

def toList (x : Row) : List UInt32 :=
  [x.a, x.b, x.c, x.d]

def ofBytes (bytes : Bytes) : Row :=
  let word (i : Nat) := UInt32.ofNat (natOfLE ((bytes.drop (4 * i)).take 4))
  ⟨word 0, word 1, word 2, word 3⟩

/-- The bytes of four words, each least significant byte first. -/
def toBytes (x : Row) : Octets 16 :=
  ⟨x.toList.flatMap fun w => bytesLE 4 w.toNat, by simp [toList]⟩

end Row

structure Square where
  r0 : Row
  r1 : Row
  r2 : Row
  r3 : Row

namespace Square

def rotateLeft (n : UInt32) (x : UInt32) : UInt32 :=
  (x <<< n) ||| (x >>> (32 - n))

/-- One quarter round in every column. -/
def columnRound (s : Square) : Square :=
  let r0 := s.r0.zipWith (· + ·) s.r1
  let r3 := (s.r3.zipWith (· ^^^ ·) r0).map (rotateLeft 16)
  let r2 := s.r2.zipWith (· + ·) r3
  let r1 := (s.r1.zipWith (· ^^^ ·) r2).map (rotateLeft 12)
  let r0 := r0.zipWith (· + ·) r1
  let r3 := (r3.zipWith (· ^^^ ·) r0).map (rotateLeft 8)
  let r2 := r2.zipWith (· + ·) r3
  let r1 := (r1.zipWith (· ^^^ ·) r2).map (rotateLeft 7)
  ⟨r0, r1, r2, r3⟩

/-- Moves the diagonals into columns. -/
def skew (s : Square) : Square :=
  ⟨s.r0, s.r1.rotate, s.r2.rotate.rotate, s.r3.rotate.rotate.rotate⟩

/-- Moves the columns back into diagonals. -/
def unskew (s : Square) : Square :=
  ⟨s.r0, s.r1.rotate.rotate.rotate, s.r2.rotate.rotate, s.r3.rotate⟩

/-- A column round followed by a diagonal round. -/
def doubleRound (s : Square) : Square :=
  s.columnRound.skew.columnRound.unskew

def permute (s : Square) : Square :=
  (List.range 10).foldl (fun s _ => s.doubleRound) s

/-- The state for a key and the sixteen bytes of counter and nonce. -/
def start (key : Octets 32) (input : Bytes) : Square where
  r0 := ⟨0x61707865, 0x3320646e, 0x79622d32, 0x6b206574⟩
  r1 := Row.ofBytes key.toList
  r2 := Row.ofBytes (key.toList.drop 16)
  r3 := Row.ofBytes input

end Square

/-- The 64 bytes of keystream for a key and the sixteen bytes of counter and nonce. -/
def block (key : Octets 32) (input : Bytes) : Octets 64 :=
  let s := Square.start key input
  let t := s.permute
  let row (x y : Row) := (x.zipWith (· + ·) y).toBytes
  ((row s.r0 t.r0).append (row s.r1 t.r1)).append ((row s.r2 t.r2).append (row s.r3 t.r3))

/-- A subkey for a key and sixteen bytes of nonce. -/
def subkey (key : Octets 32) (nonce : Bytes) : Octets 32 :=
  let t := (Square.start key nonce).permute
  t.r0.toBytes.append t.r3.toBytes

/-- Keystream blocks from the given counter on, under a twelve-byte nonce. -/
def keystream (key : Octets 32) (nonce : Bytes) (counter count : Nat) : Bytes :=
  (List.range count).flatMap fun i => (block key (bytesLE 4 (counter + i) ++ nonce)).toList

theorem length_keystream (key : Octets 32) (nonce : Bytes) (counter count : Nat) :
    (keystream key nonce counter count).length = 64 * count := by
  unfold keystream
  induction count with
  | zero => rfl
  | succ count ih =>
    rw [List.range_succ, List.flatMap_append, List.length_append, ih]
    simp only [List.flatMap_cons, List.flatMap_nil, List.append_nil, Octets.length_toList]
    omega

/-- Adds the keystream from block 1 on to a message. Doing so twice gives the message back. -/
def apply (key : Octets 32) (nonce message : Bytes) : Bytes :=
  message.zipWith (· ^^^ ·) (keystream key nonce 1 ((message.length + 63) / 64))

@[simp] theorem length_apply (key : Octets 32) (nonce message : Bytes) :
    (apply key nonce message).length = message.length := by
  simp only [apply, List.length_zipWith, length_keystream]
  omega

theorem zipWith_xor_twice : ∀ {message stream : Bytes}, message.length ≤ stream.length →
    (message.zipWith (· ^^^ ·) stream).zipWith (· ^^^ ·) stream = message
  | [], _, _ => rfl
  | _ :: _, [], h => absurd h (by simp)
  | b :: message, k :: stream, h => by
    simp only [List.zipWith_cons_cons, List.cons.injEq]
    refine ⟨?_, zipWith_xor_twice (by simpa using h)⟩
    rw [UInt8.xor_assoc, UInt8.xor_self, UInt8.xor_zero]

theorem apply_apply (key : Octets 32) (nonce message : Bytes) :
    apply key nonce (apply key nonce message) = message := by
  rw [apply, length_apply, apply]
  exact zipWith_xor_twice (by rw [length_keystream]; omega)

end SealedGroups.ChaCha20
