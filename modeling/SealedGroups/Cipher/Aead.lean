import SealedGroups.Cipher.ChaCha20
import SealedGroups.Cipher.Poly1305

/-!
# Authenticated encryption

XChaCha20-Poly1305: the first sixteen bytes of a nonce make a subkey, the remaining eight go into
the cipher, and a tag over associated data and ciphertext follows the ciphertext. `sealed` is the
construction; `encrypt` and `decrypt` are what callers use on messages of unknown length, and they
refuse messages for which the block counter would run over.

Opening recomputes the tag and compares it before anything is decrypted, so it accepts exactly
what sealing produces (`decrypt_eq_ok_iff`).
-/

namespace SealedGroups.Aead

abbrev nonceSize : Nat := 24

abbrev tagSize : Nat := 16

abbrev Key := Octets 32

abbrev Nonce := Octets nonceSize

inductive Error where
  | encrypt
  | decrypt
deriving DecidableEq

def Error.message : Error → String
  | .encrypt => "could not encrypt with xchacha20poly1305 aead: aead::Error"
  | .decrypt => "could not decrypt with xchacha20poly1305 aead: aead::Error"

/-- Zeros up to the next multiple of sixteen. -/
def padding (bytes : Bytes) : Bytes :=
  List.replicate ((16 - bytes.length % 16) % 16) 0

/-- What the tag is taken over: both texts padded, then both lengths. -/
def authenticated (aad ciphertext : Bytes) : Bytes :=
  aad ++ padding aad ++ ciphertext ++ padding ciphertext
    ++ bytesLE 8 aad.length ++ bytesLE 8 ciphertext.length

/-- The subkey and the twelve-byte nonce of the cipher. -/
def subkey (key : Key) (nonce : Nonce) : Octets 32 :=
  ChaCha20.subkey key (nonce.toList.take 16)

def innerNonce (nonce : Nonce) : Bytes :=
  [0, 0, 0, 0] ++ nonce.toList.drop 16

def tag (key : Key) (nonce : Nonce) (aad ciphertext : Bytes) : Octets 16 :=
  let keystream := ChaCha20.block (subkey key nonce) (bytesLE 4 0 ++ innerNonce nonce)
  Poly1305.tag (Octets.left (n := 32) 32 keystream) (authenticated aad ciphertext)

/-- The keystream added to a message; the same in both directions. -/
def cipher (key : Key) (nonce : Nonce) (message : Bytes) : Bytes :=
  ChaCha20.apply (subkey key nonce) (innerNonce nonce) message

@[simp] theorem length_cipher (key : Key) (nonce : Nonce) (message : Bytes) :
    (cipher key nonce message).length = message.length :=
  ChaCha20.length_apply ..

theorem cipher_cipher (key : Key) (nonce : Nonce) (message : Bytes) :
    cipher key nonce (cipher key nonce message) = message :=
  ChaCha20.apply_apply ..

/-- Ciphertext followed by its tag. -/
def sealed (key : Key) (nonce : Nonce) (aad plaintext : Bytes) : Bytes :=
  let ciphertext := cipher key nonce plaintext
  ciphertext ++ (tag key nonce aad ciphertext).toList

@[simp] theorem length_sealed (key : Key) (nonce : Nonce) (aad plaintext : Bytes) :
    (sealed key nonce aad plaintext).length = plaintext.length + tagSize := by
  simp [sealed]

/-- Whether the block counter suffices for a message. -/
def fits (message : Bytes) : Bool :=
  message.length / 64 < UInt32.size - 1

/-- Encrypts and authenticates a message. No associated data is empty associated data. -/
def encrypt (key : Key) (nonce : Nonce) (aad : Option Bytes) (plaintext : Bytes) :
    Except Error Bytes :=
  if fits plaintext then .ok (sealed key nonce (aad.getD []) plaintext) else .error .encrypt

/-- Checks the tag at the end of a sealed message and decrypts what is before it. -/
def decrypt (key : Key) (nonce : Nonce) (aad : Option Bytes) (message : Bytes) :
    Except Error Bytes :=
  if message.length < tagSize then .error .decrypt
  else
    let ciphertext := message.take (message.length - tagSize)
    if fits ciphertext
      ∧ (tag key nonce (aad.getD []) ciphertext).toList = message.drop (message.length - tagSize)
    then .ok (cipher key nonce ciphertext) else .error .decrypt

/-- Opening accepts exactly the sealed messages. -/
theorem decrypt_eq_ok_iff {key : Key} {nonce : Nonce} {aad : Option Bytes}
    {message plaintext : Bytes} :
    decrypt key nonce aad message = .ok plaintext ↔
      fits plaintext ∧ message = sealed key nonce (aad.getD []) plaintext := by
  unfold decrypt
  split
  · rename_i short
    simp only [reduceCtorEq, false_iff, not_and]
    rintro - rfl
    simp only [length_sealed, tagSize] at short
    omega
  · rename_i long
    dsimp only
    split
    · rename_i h
      simp only [Except.ok.injEq]
      constructor
      · rintro rfl
        refine ⟨by simpa [fits] using h.1, ?_⟩
        rw [sealed, cipher_cipher, h.2, List.take_append_drop]
      · rintro ⟨-, rfl⟩
        simp [sealed, cipher_cipher]
    · rename_i h
      simp only [reduceCtorEq, false_iff, not_and]
      rintro fit rfl
      refine h ⟨?_, ?_⟩
      · simpa [fits, sealed] using fit
      · simp [sealed]

end SealedGroups.Aead
