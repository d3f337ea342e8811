import SealedGroups.Client.Settings
import SealedGroups.Proofs.Schema
import SealedGroups.Proofs.Sealing

/-!
# Attributes survive encryption

A blob opens to what was encrypted for the group under some nonce, and to nothing else
(`openBlob_eq_ok_iff`). So an attribute that can be encrypted at all, which only an enormous text
cannot, is read back as what it was, under its own name and with nothing to note. No bytes fail to
be read, but an attribute comes of them only if they hold it (`Holds`).
-/

namespace SealedGroups

open Wire (Record)

namespace Attribute

/-- Whether the cipher can take an attribute. -/
def fits (content : Attribute) : Bool :=
  Aead.fits (Record.write ({ content } : AttributeBlob))

theorem read?_write {content : Attribute} (fits : content.fits) :
    Record.read? (Record.write ({ content } : AttributeBlob)) =
      some ({ content } : AttributeBlob) := by
  apply Record.mergeBytes_write (Nat.le_refl _)
  -- a plaintext that the cipher takes is short enough for the reader as well
  have blocks : (Record.write ({ content } : AttributeBlob)).length / 64 < UInt32.size - 1 := by
    simpa [Attribute.fits, Aead.fits] using fits
  have enough : (UInt32.size - 1) * 64 ≤ UInt64.size := by decide
  exact Nat.lt_of_lt_of_le ((Nat.div_lt_iff_lt_mul (by decide)).1 blocks) enough

/-- A timer is a number, which is never too long. -/
theorem fits_timer (duration : UInt32) : (timer duration).fits := by
  apply Keyring.fits_of_length
  have key := (Wire.Varint.wellFormed_write (show 8 * 3 + 0 < UInt64.size by decide)).short
  have value := (Wire.Varint.wellFormed_write duration.toUInt64.toNat_lt).short
  have written : Record.write ({ content := timer duration } : AttributeBlob) =
      Wire.Varint.write (8 * 3 + 0) ++ Wire.Varint.write duration.toUInt64.toNat ++ [] := rfl
  simp only [written, List.length_append, List.length_nil]
  omega

end Attribute

namespace Keyring

variable {ε : Type} {keys : Keyring}

/-! ### Blobs -/

/-- A blob opens to what was encrypted under some nonce. -/
theorem openBlob_eq_ok_iff {blob plaintext : Bytes} :
    keys.openBlob blob = .ok plaintext ↔ Aead.fits plaintext = true ∧ ∃ nonce : Aead.Nonce,
      nonce.toList ++ Aead.sealed keys.blobKey nonce keys.identifier.toList plaintext = blob := by
  constructor
  · intro opened
    -- the blob is long enough, its nonce is cut off, and the rest decrypts
    simp only [openBlob] at opened
    split at opened
    · split at opened
      · rename_i found decrypted
        cases opened
        obtain ⟨fits, rest⟩ := Aead.decrypt_eq_ok_iff.1 decrypted
        have long : 24 ≤ blob.length := Nat.le_trans (by decide) ‹minBlobSize ≤ blob.length›
        refine ⟨fits, Octets.first 24 blob long, ?_⟩
        rw [Option.getD_some] at rest
        rw [← rest]
        exact List.take_append_drop 24 blob
      · cases opened
    · cases opened
  · -- a blob that was made is long enough, and starts with its nonce
    rintro ⟨fits, nonce, rfl⟩
    have long : minBlobSize ≤ (nonce.toList
        ++ Aead.sealed keys.blobKey nonce keys.identifier.toList plaintext).length := by
      simp only [List.length_append, nonce.length_toList, Aead.length_sealed, minBlobSize]
      exact Nat.add_le_add_left (Nat.le_add_left _ _) _
    have first : ∀ h, Octets.first 24 (nonce.toList
        ++ Aead.sealed keys.blobKey nonce keys.identifier.toList plaintext) h = nonce :=
      fun _ => Octets.ext_toList (List.take_left' nonce.length_toList)
    have decrypted := Aead.decrypt_eq_ok_iff.2 ⟨fits,
      (rfl : Aead.sealed keys.blobKey nonce ((some keys.identifier.toList).getD []) plaintext = _)⟩
    simp only [openBlob, dif_pos long, first, List.drop_left' nonce.length_toList]
    rw [Option.getD_some] at decrypted
    rw [decrypted]

/-- A blob can be made of whatever fits, and begins with the nonce that is drawn for it. -/
theorem sealBlob_eq_ok_iff {plaintext blob : Bytes} {rng : Random} :
    (keys.sealBlob plaintext rng).1 = .ok blob ↔ Aead.fits plaintext = true ∧
      (rng.draw 24).1.toList ++ Aead.sealed keys.blobKey (rng.draw 24).1 keys.identifier.toList
        plaintext = blob := by
  simp only [sealBlob, Aead.encrypt, Option.getD_some]
  cases fits : Aead.fits plaintext <;> simp

/-! ### What a blob holds -/

/-- A blob holds an attribute: it is a nonce and what a message encrypts to under it, and the
message is decoded as the attribute. -/
def Holds (keys : Keyring) (blob : Bytes) (content : Attribute) : Prop :=
  ∃ (nonce : Aead.Nonce) (plaintext ciphertext : Bytes),
    Aead.encrypt keys.blobKey nonce (some keys.identifier.toList) plaintext = .ok ciphertext
      ∧ blob = nonce.toList ++ ciphertext
      ∧ Record.read? plaintext = some ({ content } : AttributeBlob)

theorem holds_iff {blob : Bytes} {content : Attribute} :
    keys.Holds blob content ↔ ∃ plaintext, keys.openBlob blob = .ok plaintext
      ∧ Record.read? plaintext = some ({ content } : AttributeBlob) := by
  simp only [Holds, openBlob_eq_ok_iff, Aead.encrypt, Option.getD_some]
  constructor
  · rintro ⟨nonce, plaintext, ciphertext, made, rfl, decoded⟩
    split at made
    · cases made
      exact ⟨plaintext, ⟨‹_›, nonce, rfl⟩, decoded⟩
    · cases made
  · rintro ⟨plaintext, ⟨fits, nonce, rfl⟩, decoded⟩
    exact ⟨nonce, plaintext, _, if_pos fits, rfl, decoded⟩

theorem holds_of_sealAttribute {content : Attribute} {rng : Random} {blob : Bytes}
    (made : (keys.sealAttribute content rng).1 = .ok blob) : keys.Holds blob content := by
  obtain ⟨fits, same⟩ := sealBlob_eq_ok_iff.1 made
  exact holds_iff.2 ⟨_, openBlob_eq_ok_iff.2 ⟨fits, _, same⟩, Attribute.read?_write fits⟩

/-- What a blob holds is read without a note. -/
theorem openAttribute_of_holds {blob : Bytes} {content : Attribute}
    (held : keys.Holds blob content) (name : String) :
    (keys.openAttribute name blob : Noted ε _) = pure (some content) := by
  obtain ⟨plaintext, opened, decoded⟩ := holds_iff.1 held
  have some : blob.isEmpty = false := by
    cases blob with
    | nil => cases opened
    | cons => rfl
  simp only [openAttribute, some, Bool.false_eq_true, if_false, opened, decoded]

/-- All bytes are read, and an attribute comes of them only if they hold it. -/
theorem outcome_openAttribute (name : String) (blob : Bytes) :
    ∃ found, (keys.openAttribute name blob : Noted ε _).outcome = .ok found
      ∧ ∀ content, found = some content → keys.Holds blob content := by
  unfold openAttribute
  split
  · exact ⟨none, rfl, nofun⟩
  split
  · exact ⟨none, rfl, nofun⟩
  rename_i plaintext opened
  split
  · rename_i decoded
    refine ⟨_, rfl, fun content held => holds_iff.2 ⟨plaintext, opened, ?_⟩⟩
    rw [decoded, ← held]
  · exact ⟨none, rfl, nofun⟩

/-! ### Attributes -/

/-- An attribute can be encrypted if the cipher can take it. -/
theorem exists_sealAttribute_iff (keys : Keyring) (content : Attribute) (rng : Random) :
    (∃ blob, (keys.sealAttribute content rng).1 = .ok blob) ↔ content.fits = true := by
  simp only [sealAttribute, sealBlob_eq_ok_iff]
  constructor
  · rintro ⟨_, fits, -⟩
    exact fits
  · intro fits
    exact ⟨_, fits, rfl⟩

theorem sealAttribute_of_not_fits {content : Attribute} (long : ¬ content.fits = true)
    (rng : Random) : (keys.sealAttribute content rng).1 = .error (.aead .encrypt) := by
  have refused : ¬ Aead.fits (Record.write ({ content } : AttributeBlob)) = true := long
  simp only [sealAttribute, sealBlob, Aead.encrypt, if_neg refused]

/-- An attribute that was encrypted is read without a note, whatever it is taken for. -/
theorem openAttribute_of_sealAttribute {content : Attribute} {rng : Random} {blob : Bytes}
    (made : (keys.sealAttribute content rng).1 = .ok blob) (name : String) :
    (keys.openAttribute name blob : Noted ε _) = pure (some content) :=
  openAttribute_of_holds (holds_of_sealAttribute made) name

theorem openAs_of_sealAttribute {α : Type} {content : Attribute} {rng : Random} {blob : Bytes}
    (made : (keys.sealAttribute content rng).1 = .ok blob) (name : String)
    {select : Attribute → Option α} {value : α} (selected : select content = some value)
    (default : α) : (keys.openAs name select default blob : Noted ε α) = pure value := by
  rw [openAs, openAttribute_of_sealAttribute made, pure_bind]
  simp only [selected]

theorem openTitle_of_sealAttribute {text : String} {rng : Random} {blob : Bytes}
    (made : (keys.sealAttribute (.title text) rng).1 = .ok blob) :
    (keys.openTitle blob : Noted ε _) = pure text := by
  apply openAs_of_sealAttribute made
  rfl

theorem openDescription_of_sealAttribute {text : String} {rng : Random} {blob : Bytes}
    (made : (keys.sealAttribute (.description text) rng).1 = .ok blob) :
    (keys.openDescription blob : Noted ε _) = pure text := by
  apply openAs_of_sealAttribute made
  rfl

theorem openTimer_of_sealAttribute {duration : UInt32} {rng : Random} {blob : Bytes}
    (made : (keys.sealAttribute (.timer duration) rng).1 = .ok blob) :
    (keys.openTimer blob : Noted ε _) = pure duration := by
  apply openAs_of_sealAttribute made
  rfl

end Keyring

end SealedGroups
