import SealedGroups.Proofs.Answers

/-!
# Which signatures share a nonce

What is hashed into the nonce of a signature is the key, the message and, unless the message is
signed without randomness, 64 fresh bytes, one behind the other. Nothing says where the message
ends. Under one key the nonces of different messages are therefore apart but for one case: a message
is signed with fresh bytes, and what it makes with these very bytes behind it is signed without any
(`Signing.nonceInput_eq_iff`). Two such signatures tell the key.
-/

namespace SealedGroups.Schnorr

variable {G : Curve} {key : SigningKey}

/-- A message that is signed and, unless that happens without randomness, the bytes drawn for it. -/
structure Signing where
  message : Bytes
  drawn : Option (Octets 64)
deriving DecidableEq

namespace Signing

/-- What is mixed into the nonce. -/
def entropy (signing : Signing) : Bytes :=
  match signing.drawn with
  | none => []
  | some bytes => bytes.toList

/-- What is hashed into the nonce. -/
def nonceInput (key : SigningKey) (signing : Signing) : Bytes :=
  Schnorr.nonceInput key signing.message signing.entropy

def nonce (key : SigningKey) (signing : Signing) : Scalar :=
  .ofWide (sha512 (signing.nonceInput key))

def signature (G : Curve) (key : SigningKey) (signing : Signing) : Signature :=
  signWith G key signing.message signing.entropy

/-- The challenge that the signature answers. -/
def challenge (G : Curve) (key : SigningKey) (signing : Signing) : Scalar :=
  challengeOf G key (signing.nonce key) signing.message

theorem signature_sign (message : Bytes) :
    sign G key message = signature G key ⟨message, none⟩ :=
  rfl

theorem signature_signHedged (message : Bytes) (rng : Random) :
    (signHedged G key message rng).1 = signature G key ⟨message, some (rng.draw 64).1⟩ :=
  rfl

theorem signature_eq_answer (signing : Signing) :
    signing.signature G key = answer G key signing.message (signing.nonce key) :=
  rfl

/-- Of two signings, one is without randomness and its message ends in the bytes that were drawn for
the other, behind the message of the other. -/
def Swallows (plain hedged : Signing) : Prop :=
  plain.drawn = none ∧ ∃ bytes, hedged.drawn = some bytes
    ∧ plain.message = hedged.message ++ bytes.toList

theorem Swallows.message_ne {plain hedged : Signing} (swallows : plain.Swallows hedged) :
    plain.message ≠ hedged.message := by
  obtain ⟨-, bytes, -, message⟩ := swallows
  intro same
  have lengths := congrArg List.length (message.symm.trans same)
  rw [List.length_append, bytes.length_toList] at lengths
  omega

/-- One nonce comes from one message and the same fresh bytes, or from fresh bytes that became a
part of the message. -/
theorem nonceInput_eq_iff {first second : Signing} :
    first.nonceInput key = second.nonceInput key ↔
      first = second ∨ first.Swallows second ∨ second.Swallows first := by
  obtain ⟨message, drawn⟩ := first
  obtain ⟨message', drawn'⟩ := second
  simp only [nonceInput, Schnorr.nonceInput, List.append_assoc, List.append_cancel_left_eq,
    entropy, mk.injEq, Swallows]
  -- two of one mode agree or differ as they stand, and of two modes one swallows the other
  cases drawn with
  | none =>
    cases drawn' with
    | none => simp
    | some bytes => simp
  | some bytes =>
    cases drawn' with
    | none => simp [eq_comm]
    | some other =>
      have lengths : bytes.toList.length = other.toList.length := by simp
      simp only [reduceCtorEq, false_and, or_false, Option.some.injEq]
      constructor
      · intro same
        obtain ⟨messages, drawn⟩ := List.append_inj' same lengths
        exact ⟨messages, Octets.ext_toList drawn⟩
      · rintro ⟨rfl, rfl⟩
        rfl

/-- Signatures whose nonces are hashed from the same bytes are of one message and made in the same
way, or one of them was made without randomness and its message ends in what was drawn for the
other. Whoever sees two of them that answer different challenges can compute the key. -/
theorem shared_nonce (G : Curve) (key : SigningKey) (first second : Signing) :
    (first.nonceInput key = second.nonceInput key ↔
        first = second ∨ first.Swallows second ∨ second.Swallows first)
      ∧ (first.nonceInput key = second.nonceInput key →
        first.challenge G key ≠ second.challenge G key → ∃ s t : Scalar,
          scalar? (first.signature G key) = some s ∧ scalar? (second.signature G key) = some t ∧
            (key.value : ZMod Scalar.order) = ((s.value : ZMod Scalar.order) - t.value) *
              (((first.challenge G key).value : ZMod Scalar.order)
                - (second.challenge G key).value)⁻¹) := by
  refine ⟨nonceInput_eq_iff, ?_⟩
  intro same different
  -- equal input to the hash is an equal nonce, and then the two answers share it
  have nonce : second.nonce key = first.nonce key :=
    congrArg (fun input => Scalar.ofWide (sha512 input)) same.symm
  rw [challenge, challenge, nonce] at different ⊢
  rw [signature_eq_answer, signature_eq_answer, nonce]
  have scalar := scalar?_answer (G := G) key first.message (first.nonce key)
  have scalar' := scalar?_answer (G := G) key second.message (first.nonce key)
  exact ⟨_, _, scalar, scalar', key_of_answers scalar scalar' different⟩

end Signing

end SealedGroups.Schnorr

namespace SealedGroups.Sample

open Schnorr (Signing)

/-- A message that is signed with fresh bytes. -/
def hedgedSigning : Signing where
  message := utf8 "group change"
  drawn := some (signerRandom.draw 64).1

/-- The message with these bytes behind it, signed without any. -/
def plainSigning : Signing where
  message := utf8 "group change" ++ (signerRandom.draw 64).1.toList
  drawn := none

theorem plainSigning_swallows : plainSigning.Swallows hedgedSigning :=
  ⟨rfl, _, rfl, rfl⟩

theorem challenge_plainSigning_ne :
    plainSigning.challenge Ristretto.curve issuer.signingKey ≠
      hedgedSigning.challenge Ristretto.curve issuer.signingKey := by
  unfold Signing.challenge Schnorr.challengeOf Schnorr.challenge Schnorr.verifyingKey Signing.nonce
  rw [Ristretto.encodedMultiple_curve]
  unfold Ristretto.compress Ristretto.invSqrt
  rw [Ristretto.mul_eq, Ristretto.fpow_eq, sha512_eq]
  decide +kernel

/-- Two messages are signed under one nonce. -/
theorem nonce_of_two_messages :
    plainSigning.nonceInput issuer.signingKey = hedgedSigning.nonceInput issuer.signingKey
      ∧ plainSigning.message ≠ hedgedSigning.message :=
  ⟨Signing.nonceInput_eq_iff.2 (Or.inr (Or.inl plainSigning_swallows)),
    plainSigning_swallows.message_ne⟩

/-- From the two signatures the issuer's key can be computed. -/
theorem shared_nonce_sample :
    plainSigning.nonceInput issuer.signingKey = hedgedSigning.nonceInput issuer.signingKey
      ∧ ∃ s t : Scalar,
        Schnorr.scalar? (plainSigning.signature Ristretto.curve issuer.signingKey) = some s
          ∧ Schnorr.scalar? (hedgedSigning.signature Ristretto.curve issuer.signingKey) = some t
          ∧ ((issuer.signingKey.value : Nat) : ZMod Scalar.order) =
            ((s.value : ZMod Scalar.order) - t.value) *
              (((plainSigning.challenge Ristretto.curve issuer.signingKey).value :
                  ZMod Scalar.order)
                - (hedgedSigning.challenge Ristretto.curve issuer.signingKey).value)⁻¹ := by
  obtain ⟨shared, tells⟩ :=
    Signing.shared_nonce Ristretto.curve issuer.signingKey plainSigning hedgedSigning
  have same := shared.2 (Or.inr (Or.inl plainSigning_swallows))
  exact ⟨same, tells same challenge_plainSigning_ne⟩

end SealedGroups.Sample
