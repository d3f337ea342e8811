import SealedGroups.Cipher.Aead

/-!
# Decryption undoes encryption and nothing else

Under one key, nonce and associated data a message is decrypted to a plaintext exactly if the
plaintext is encrypted to the message (`Aead.decrypt_exact`). So a plaintext has one message, a
message at most one plaintext, and whatever encryption does not make is refused. Encryption itself
refuses a plaintext only for its length, from which on the counter of keystream blocks would run
over.
-/

namespace SealedGroups.Aead

variable {key : Key} {nonce : Nonce} {aad : Option Bytes} {message plaintext : Bytes}

/-- Plaintexts are shorter than this: 64 bytes for each value of a counter of 32 bits but the first,
whose keystream goes into the tag. -/
def lengthLimit : Nat := 64 * (UInt32.size - 1)

theorem fits_iff : fits plaintext = true ↔ plaintext.length < lengthLimit := by
  rw [fits, decide_eq_true_iff, lengthLimit, Nat.div_lt_iff_lt_mul (by decide), Nat.mul_comm]

theorem encrypt_eq_ok_iff : encrypt key nonce aad plaintext = .ok message ↔
    fits plaintext ∧ message = sealed key nonce (aad.getD []) plaintext := by
  unfold encrypt
  split
  · rename_i fit
    rw [Except.ok.injEq, and_iff_right fit]
    exact eq_comm
  · rename_i long
    exact iff_of_false nofun fun fit => long fit.1

theorem decrypt_iff_encrypt :
    decrypt key nonce aad message = .ok plaintext ↔ encrypt key nonce aad plaintext = .ok message :=
  decrypt_eq_ok_iff.trans encrypt_eq_ok_iff.symm

theorem length_of_encrypt (encrypted : encrypt key nonce aad plaintext = .ok message) :
    message.length = plaintext.length + tagSize := by
  rw [(encrypt_eq_ok_iff.1 encrypted).2, length_sealed]

theorem exists_encrypt_iff : (∃ message, encrypt key nonce aad plaintext = .ok message) ↔
    plaintext.length < lengthLimit := by
  simp only [encrypt_eq_ok_iff, exists_and_left, exists_eq, and_true, fits_iff]

/-- Whatever is wrong with a message, it is refused for the same reason. -/
theorem decrypt_eq_ok_or_error : (∃ plaintext, decrypt key nonce aad message = .ok plaintext) ∨
    decrypt key nonce aad message = .error .decrypt := by
  unfold decrypt
  -- decrypting fails on the length or on the tag, with the same error
  split
  · exact Or.inr rfl
  · dsimp only
    split
    · exact Or.inl ⟨_, rfl⟩
    · exact Or.inr rfl

theorem decrypt_of_short (short : message.length < tagSize) :
    decrypt key nonce aad message = .error .decrypt := by
  refine decrypt_eq_ok_or_error.resolve_left ?_
  rintro ⟨plaintext, decrypted⟩
  have length := length_of_encrypt (decrypt_iff_encrypt.1 decrypted)
  omega

/-- A message is decrypted to a plaintext exactly if the plaintext is encrypted to it, and is
refused otherwise, as is every message that is shorter than a tag. What is encrypted is longer by a
tag, and everything within the limit is encrypted. No associated data is empty associated data. -/
theorem decrypt_exact (key : Key) (nonce : Nonce) :
    (∀ aad message plaintext, decrypt key nonce aad message = .ok plaintext ↔
        encrypt key nonce aad plaintext = .ok message)
      ∧ (∀ aad message, (∃ plaintext, decrypt key nonce aad message = .ok plaintext) ∨
        decrypt key nonce aad message = .error .decrypt)
      ∧ (∀ aad plaintext, (∃ message, encrypt key nonce aad plaintext = .ok message) ↔
        plaintext.length < lengthLimit)
      ∧ (∀ aad message, message.length < tagSize →
        decrypt key nonce aad message = .error .decrypt)
      ∧ (∀ aad message plaintext, encrypt key nonce aad plaintext = .ok message →
        message.length = plaintext.length + tagSize)
      ∧ ∀ text, encrypt key nonce none text = encrypt key nonce (some []) text
        ∧ decrypt key nonce none text = decrypt key nonce (some []) text := by
  refine ⟨?_, ?_, ?_, ?_, ?_, ?_⟩
  · intro aad message plaintext
    exact decrypt_iff_encrypt
  · intro aad message
    exact decrypt_eq_ok_or_error
  · intro aad plaintext
    exact exists_encrypt_iff
  · intro aad message
    exact decrypt_of_short
  · intro aad message plaintext
    exact length_of_encrypt
  · intro text
    exact ⟨rfl, rfl⟩

/-- A title is sealed, opened again and refused when it is cut off within the tag. -/
theorem decrypt_exact_title :
    let key : Key := .replicate 32 1
    let nonce : Nonce := .replicate 24 2
    let aad := some (utf8 "group")
    let title := utf8 "Our new title"
    let message : Bytes :=
      [131, 19, 68, 207, 196, 18, 139, 109, 212, 8, 21, 253, 23,
        222, 113, 147, 228, 253, 206, 74, 166, 229, 96, 156, 183, 88, 155, 74, 105]
    encrypt key nonce aad title = .ok message
      ∧ decrypt key nonce aad message = .ok title
      ∧ message.length = title.length + 16
      ∧ decrypt key nonce aad (message.take 15) = .error .decrypt := by
  intro key nonce aad title message
  obtain ⟨inverse, -, -, short, length, -⟩ := decrypt_exact key nonce
  have encrypted : encrypt key nonce aad title = .ok message :=
    encrypt_eq_ok_iff.2 (by decide +kernel)
  exact ⟨encrypted, (inverse _ _ _).2 encrypted, length _ _ _ encrypted, short _ _ (by decide)⟩

end SealedGroups.Aead
