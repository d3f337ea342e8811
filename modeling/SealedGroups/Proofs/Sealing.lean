import SealedGroups.Samples
import SealedGroups.Sealing

/-!
# Identities and profile keys have one ciphertext each

Identities and profile keys are encrypted without randomness: the nonce belongs to the plaintext,
and reading computes it again. So whatever was encrypted for a group is read back there, and nothing
else is read: a ciphertext that can be read is the one that encryption makes of what it hides
(`one_ciphertext_each`). This is why invites can be matched by their ciphertexts.
-/

namespace SealedGroups

theorem bind_eq_ok_iff {ε α β : Type} {x : Except ε α} {f : α → Except ε β} {b : β} :
    x >>= f = .ok b ↔ ∃ a, x = .ok a ∧ f a = .ok b := by
  cases x <;> simp [bind, Except.bind]

/-- The keys of a group in examples. -/
def Sample.groupKeys : Keyring where
  masterKey := .replicate 32 0
  identifier := .replicate 32 1
  identityKey := .replicate 32 2
  identityNonceKey := .replicate 32 3
  profileKeyKey := .replicate 32 4
  profileKeyNonceKey := .replicate 32 5
  blobKey := .replicate 32 6
  signingKey := .ofNat 7

namespace Keyring

theorem fits_of_length {bytes : Bytes} (short : bytes.length < 64) : Aead.fits bytes = true := by
  unfold Aead.fits
  rw [Nat.div_eq_of_lt short]
  decide

/-- A message is read with a nonce exactly if it was encrypted under the nonce. -/
theorem openUnder_eq_ok_iff {n : Nat} {plaintext : Octets n} (fits : Aead.fits plaintext.toList)
    {key : Aead.Key} {nonce : Aead.Nonce} {aad : Bytes} {ciphertext : Octets (24 + (n + 16))} :
    openUnder key aad ciphertext = .ok (nonce, plaintext) ↔
      sealedUnder key nonce aad plaintext = ciphertext := by
  constructor
  · intro opened
    simp only [openUnder] at opened
    split at opened
    · cases opened
    · rename_i bytes decrypted
      split at opened
      · cases opened
      · rename_i sized
        cases opened
        have same : plaintext.toList = bytes := Octets.ofList?_eq_some_iff.1 sized
        -- behind the nonce stands what sealing gives for the plaintext
        have tail : (ciphertext.right 24).toList = _ := (Aead.decrypt_eq_ok_iff.1 decrypted).2
        apply Octets.ext_toList
        rw [← ciphertext.left_append_right, tail, ← same]
        rfl
  · rintro rfl
    have opened : Aead.decrypt key nonce (some aad)
        (Aead.sealed key nonce aad plaintext.toList) = .ok plaintext.toList :=
      Aead.decrypt_eq_ok_iff.2 ⟨fits, rfl⟩
    unfold openUnder sealedUnder
    simp only [Octets.left_append, Octets.right_append, opened, Octets.ofList?_toList]

/-! ### Identities -/

/-- An identity is read from one ciphertext only, the one that encryption makes of it. -/
theorem openIdentity_eq_ok_iff {keys : Keyring} {ciphertext : IdentityCiphertext} {id : ServiceId} :
    keys.openIdentity ciphertext = .ok id ↔ keys.sealIdentity id = ciphertext := by
  have fits : ∀ plaintext : Octets 17, Aead.fits plaintext.toList = true := fun plaintext =>
    fits_of_length (by rw [plaintext.length_toList]; decide)
  constructor
  · intro opened
    obtain ⟨⟨nonce, plaintext⟩, under, checked⟩ := bind_eq_ok_iff.1 opened
    dsimp only at checked
    split at checked
    · -- the nonce has to be the one that the plaintext determines
      rename_i expected
      split at checked
      · rename_i parsed
        cases checked
        have plain : id.toFixedWidth = plaintext := ServiceId.ofFixedWidth_eq_ok_iff.1 parsed
        rw [sealIdentity, plain, expected]
        exact (openUnder_eq_ok_iff (fits plaintext)).1 under
      · cases checked
    · cases checked
  · rintro rfl
    -- sealing again gives the same nonce, and opens by the same checks
    refine bind_eq_ok_iff.2 ⟨(keys.identityNonce id.toFixedWidth, id.toFixedWidth), ?_, ?_⟩
    · exact (openUnder_eq_ok_iff (fits _)).2 rfl
    · simp [pure, Except.pure]

/-- An identity that was encrypted for a group is read back there. -/
@[simp] theorem openIdentity_sealIdentity (keys : Keyring) (id : ServiceId) :
    keys.openIdentity (keys.sealIdentity id) = .ok id :=
  openIdentity_eq_ok_iff.2 rfl

theorem sealIdentity_injective (keys : Keyring) : Function.Injective keys.sealIdentity := by
  intro id other same
  have read := keys.openIdentity_sealIdentity id
  rw [same, openIdentity_sealIdentity] at read
  exact (Except.ok.inj read).symm

/-! ### Profile keys -/

/-- A profile key is read from one ciphertext only, next to one account. -/
theorem openProfileKey_eq_ok_iff {keys : Keyring} {ciphertext : ProfileKeyCiphertext} {aci : Uuid}
    {key : ProfileKey} :
    keys.openProfileKey ciphertext aci = .ok key ↔ keys.sealProfileKey key aci = ciphertext := by
  have fits : ∀ plaintext : Octets 32, Aead.fits plaintext.toList = true := fun plaintext =>
    fits_of_length (by rw [plaintext.length_toList]; decide)
  constructor
  · intro opened
    obtain ⟨⟨nonce, plaintext⟩, under, checked⟩ := bind_eq_ok_iff.1 opened
    dsimp only at checked
    split at checked
    · rename_i expected
      cases checked
      rw [sealProfileKey, expected]
      exact (openUnder_eq_ok_iff (fits _)).1 under
    · cases checked
  · rintro rfl
    refine bind_eq_ok_iff.2 ⟨(keys.profileKeyNonce aci key, key), ?_, ?_⟩
    · exact (openUnder_eq_ok_iff (fits _)).2 rfl
    · simp [pure, Except.pure]

/-- A profile key that was encrypted for a group is read back there, next to the same account. -/
@[simp] theorem openProfileKey_sealProfileKey (keys : Keyring) (key : ProfileKey) (aci : Uuid) :
    keys.openProfileKey (keys.sealProfileKey key aci) aci = .ok key :=
  openProfileKey_eq_ok_iff.2 rfl

/-! ### Ciphertexts tell who they hide -/

/-- Two readings of ciphertexts, each of them made by encryption, are equal if the ciphertexts are.
-/
private theorem eq_iff_of_unique {α β ε : Type} {read : α → Except ε β} {make : β → α}
    (unique : ∀ a b, read a = .ok b ↔ make b = a) {first second : α} {b c : β}
    (hfirst : read first = .ok b) (hsecond : read second = .ok c) : first = second ↔ b = c := by
  constructor
  · rintro rfl
    exact Except.ok.inj (hfirst.symm.trans hsecond)
  · rintro rfl
    exact ((unique _ _).1 hfirst).symm.trans ((unique _ _).1 hsecond)

/-- Every identity and every profile key has exactly one ciphertext in a group that can be read, so
that ciphertexts are equal exactly if they hide the same. -/
theorem one_ciphertext_each (keys : Keyring) :
    (∀ ciphertext id, keys.openIdentity ciphertext = .ok id ↔ keys.sealIdentity id = ciphertext)
      ∧ (∀ aci ciphertext key,
        keys.openProfileKey ciphertext aci = .ok key ↔ keys.sealProfileKey key aci = ciphertext)
      ∧ (∀ first second id other, keys.openIdentity first = .ok id →
        keys.openIdentity second = .ok other → (first = second ↔ id = other))
      ∧ ∀ aci first second key other, keys.openProfileKey first aci = .ok key →
        keys.openProfileKey second aci = .ok other → (first = second ↔ key = other) := by
  refine ⟨?_, ?_, ?_, ?_⟩
  · intro ciphertext id
    exact openIdentity_eq_ok_iff
  · intro aci ciphertext key
    exact openProfileKey_eq_ok_iff
  · intro first second id other
    exact eq_iff_of_unique fun _ _ => openIdentity_eq_ok_iff
  · intro aci first second key other
    exact eq_iff_of_unique fun _ _ => openProfileKey_eq_ok_iff

open Sample in
/-- Two accounts have different ciphertexts. -/
theorem one_ciphertext_each_sample :
    let keys := Keyring.derive (.replicate 32 5)
    keys.openIdentity (keys.sealIdentity (.aci (uuid 1))) = .ok (.aci (uuid 1))
      ∧ keys.sealIdentity (.aci (uuid 1)) ≠ keys.sealIdentity (.aci (uuid 2)) := by
  intro keys
  obtain ⟨unique, -, distinct, -⟩ := one_ciphertext_each keys
  have first := (unique _ (.aci (uuid 1))).2 rfl
  have second := (unique _ (.aci (uuid 2))).2 rfl
  refine ⟨first, ?_⟩
  intro same
  exact absurd ((distinct _ _ _ _ first second).1 same) (by decide +kernel)

end Keyring

end SealedGroups
