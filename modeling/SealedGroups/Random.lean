import SealedGroups.Cipher.ChaCha20

/-!
# Random bytes from a seed

A generator is its seed and the number of words already drawn: the words are those of the ChaCha20
keystream under the seed, with a block counter of 64 bits that starts at zero. A draw begins at the
next whole word and takes as many words as it needs; what is left of its last word is lost. Every
function that draws returns the generator to go on with.
-/

namespace SealedGroups

/-- A random generator: its seed and how many 32-bit words it has given so far. -/
structure Random where
  seed : Octets 32
  drawn : Nat := 0
deriving DecidableEq

namespace Random

/-- The blocks of output from a block on. -/
def blocks (seed : Octets 32) (start count : Nat) : Bytes :=
  (List.range count).flatMap fun i =>
    (ChaCha20.block seed (bytesLE 8 (start + i) ++ bytesLE 8 0)).toList

theorem length_blocks (seed : Octets 32) (start count : Nat) :
    (blocks seed start count).length = 64 * count := by
  unfold blocks
  induction count with
  | zero => rfl
  | succ count ih =>
    rw [List.range_succ, List.flatMap_append, List.length_append, ih]
    simp only [List.flatMap_cons, List.flatMap_nil, List.append_nil, Octets.length_toList]
    omega

def draw (n : Nat) (rng : Random) : Octets n × Random :=
  let words := (n + 3) / 4
  let skipped := rng.drawn % 16
  let output := blocks rng.seed (rng.drawn / 16) ((skipped + words + 15) / 16)
  (.first n (output.drop (4 * skipped)) (by rw [List.length_drop, length_blocks]; omega),
    { rng with drawn := rng.drawn + words })

end Random

end SealedGroups
