import SealedGroups.Proofs.Answers

/-!
# A signature cannot be written in another way

A verifying key, a message and the first half of a signature leave no choice for the second half
(`Schnorr.one_second_half`). The first half is the encoding of one nonce, so there is one number
that answers the challenge, and the second half has to be its reduced spelling. There is an answer
whenever both the key and the first half are encodings, that of the zero key among them; every other
second half is refused, a reduced one because it does not answer and all others because they are not
reduced.
-/

namespace SealedGroups

namespace Schnorr

variable {G : Curve} {IsLog : G.Point → ZMod Scalar.order → Prop}
  {key : VerifyingKey} {message : Bytes} {first s t : Octets 32}

/-! ### Second halves that are not reduced -/

/-- Whatever comes before it and whatever number it spells, a second half that is not reduced is
refused. -/
theorem verify_of_not_reduced (large : ¬ s.toNatLE < Scalar.order) :
    verify G key message (first.append s) = .error .invalidArgument := by
  have unread : Scalar.ofCanonical? s = none := dif_neg large
  cases decoded : G.decompress? key with
  | none => simp only [verify, decoded]
  | some A => simp only [verify, decoded, Octets.right_append, unread]

theorem reduced_of_verify (accepted : verify G key message (first.append s) = .ok ()) :
    s.toNatLE < Scalar.order := by
  by_contra large
  rw [verify_of_not_reduced large] at accepted
  cases accepted

/-- Adding the order to the number that a second half spells makes another spelling of the same
number modulo the order, which is not reduced. -/
theorem verify_add_order (accepted : verify G key message (first.append s) = .ok ()) :
    verify G key message (first.append (.ofNatLE 32 (s.toNatLE + Scalar.order))) =
      .error .invalidArgument := by
  have reduced := reduced_of_verify accepted
  -- the order fits twice into 32 bytes, so that adding it once does not wrap
  have room : Scalar.order + Scalar.order ≤ capacity 32 := by decide
  refine verify_of_not_reduced ?_
  rw [Octets.toNatLE_ofNatLE (by omega)]
  omega

/-- What is refused behind a key that is a point is refused for not being reduced, or for not
answering. -/
theorem verify_of_refused {A : G.Point} (decoded : G.decompress? key = some A)
    (refused : verify G key message (first.append t) ≠ .ok ()) :
    verify G key message (first.append t) =
      .error (if t.toNatLE < Scalar.order then .verificationFailed else .invalidArgument) := by
  by_cases reduced : t.toNatLE < Scalar.order
  · have read : Scalar.ofCanonical? t = some ⟨t.toNatLE, reduced⟩ := dif_pos reduced
    rw [if_pos reduced]
    -- the scalar is reduced, so that the equation is what failed
    simp only [verify, decoded, Octets.left_append, Octets.right_append, read] at refused ⊢
    exact if_neg fun same => refused (if_pos same)
  · rw [if_neg reduced]
    exact verify_of_not_reduced reduced

/-! ### The second half that answers -/

/-- A signature is accepted if its first half encodes a nonce and its second half spells the number
that answers the challenge. -/
theorem verify_append_eq_ok_iff (lawful : G.Lawful IsLog) {A : G.Point} {a : ZMod Scalar.order}
    (decoded : G.decompress? key = some A) (log : IsLog A a) :
    verify G key message (first.append s) = .ok () ↔ ∃ nonce answer : Scalar,
      G.encodedMultiple nonce = first ∧ answer.toOctets = s
        ∧ (answer.value : ZMod Scalar.order) =
          nonce.value + (challenge first key message).value * a := by
  rw [verify_eq_ok_iff_of_log lawful decoded log]
  refine exists_congr fun nonce => exists_congr fun answer => ?_
  rw [Octets.append_inj, and_assoc]
  refine and_congr_right ?_
  rintro rfl
  rfl

/-- Only a key that is the encoding of a point accepts anything. -/
theorem exists_log_of_verify (lawful : G.Lawful IsLog)
    (accepted : verify G key message (first.append s) = .ok ()) :
    ∃ A a, G.decompress? key = some A ∧ IsLog A a := by
  cases decoded : G.decompress? key with
  | none => simp only [verify, decoded, reduceCtorEq] at accepted
  | some A =>
    obtain ⟨⟨a, log⟩, -⟩ := lawful.compress_decompress decoded
    exact ⟨A, a, rfl, log⟩

theorem second_half_unique (lawful : G.Lawful IsLog)
    (accepted : verify G key message (first.append s) = .ok ())
    (accepted' : verify G key message (first.append t) = .ok ()) : s = t := by
  obtain ⟨A, a, decoded, log⟩ := exists_log_of_verify lawful accepted
  obtain ⟨nonce, answer, encoded, rfl, answers⟩ :=
    (verify_append_eq_ok_iff lawful decoded log).1 accepted
  obtain ⟨nonce', answer', encoded', rfl, answers'⟩ :=
    (verify_append_eq_ok_iff lawful decoded log).1 accepted'
  -- the point decides the nonce, and the nonce decides the answer
  obtain rfl := (encodedMultiple_inj lawful).1 (encoded.trans encoded'.symm)
  rw [Scalar.toOctets_inj, ← Scalar.cast_inj, answers, answers']

theorem exists_second_half_iff (lawful : G.Lawful IsLog) :
    (∃ s : Octets 32, verify G key message (first.append s) = .ok ()) ↔
      (∃ A, G.decompress? key = some A) ∧ ∃ nonce, G.encodedMultiple nonce = first := by
  constructor
  · rintro ⟨s, accepted⟩
    obtain ⟨A, a, decoded, log⟩ := exists_log_of_verify lawful accepted
    obtain ⟨nonce, -, encoded, -⟩ := (verify_append_eq_ok_iff lawful decoded log).1 accepted
    exact ⟨⟨A, decoded⟩, nonce, encoded⟩
  · rintro ⟨⟨A, decoded⟩, nonce, encoded⟩
    obtain ⟨⟨a, log⟩, -⟩ := lawful.compress_decompress decoded
    -- the answer to be given is known, as a residue, and every residue is a scalar
    obtain ⟨answer, value⟩ := Scalar.exists_value_eq
      ((nonce.value : ZMod Scalar.order) + (challenge first key message).value * a)
    exact ⟨answer.toOctets, (verify_append_eq_ok_iff lawful decoded log).2
      ⟨nonce, answer, encoded, rfl, value⟩⟩

/-- Behind one first half at most one second half is accepted for a key and a message, whatever
bytes they are, and one is accepted exactly if the key and the first half are encodings. Every other
one is refused, also the one that is made by adding the order of the group. -/
theorem one_second_half (lawful : G.Lawful IsLog) (key : VerifyingKey) (message : Bytes)
    (first : Octets 32) :
    (∀ s t : Octets 32, verify G key message (first.append s) = .ok () →
        verify G key message (first.append t) = .ok () → s = t)
      ∧ ((∃ s : Octets 32, verify G key message (first.append s) = .ok ()) ↔
        (∃ A, G.decompress? key = some A) ∧ ∃ nonce, G.encodedMultiple nonce = first)
      ∧ ∀ s : Octets 32, verify G key message (first.append s) = .ok () →
        verify G key message (first.append (.ofNatLE 32 (s.toNatLE + Scalar.order))) =
            .error .invalidArgument
          ∧ ∀ t ≠ s, verify G key message (first.append t) = .error
            (if t.toNatLE < Scalar.order then .verificationFailed else .invalidArgument) := by
  refine ⟨?_, exists_second_half_iff lawful, ?_⟩
  · intro s t
    exact second_half_unique lawful
  · intro s accepted
    refine ⟨verify_add_order accepted, ?_⟩
    intro t other
    obtain ⟨A, -, decoded, -⟩ := exists_log_of_verify lawful accepted
    exact verify_of_refused decoded fun accepted' =>
      other (second_half_unique lawful accepted' accepted)

end Schnorr

namespace Sample

/-- The challenge that the signature of the sample credential answers. -/
def credentialChallenge : Scalar :=
  .ofNat 1921319057164421756029110443720895401977992370753985438690897116467473250179

theorem credentialChallenge_eq :
    Schnorr.challengeOf Ristretto.curve issuer.signingKey credentialNonce
      (credentialMessage (uuid 1) (profileKey 1) expiration) = credentialChallenge := by
  unfold Schnorr.challengeOf Schnorr.challenge Schnorr.verifyingKey
  rw [Ristretto.encodedMultiple_curve]
  unfold credentialMessage ProfileKey.commitment Ristretto.compress Ristretto.invSqrt
  rw [Ristretto.mul_eq, Ristretto.fpow_eq, sha256_eq, sha512_eq]
  decide +kernel

theorem scalar?_credential : Schnorr.scalar? credential.signature =
    some (credentialNonce + credentialChallenge * issuer.signingKey) := by
  rw [credential, Server.issue, Schnorr.sign, Schnorr.signWith_eq_answer, credentialNonce_eq,
    Schnorr.scalar?_answer, credentialChallenge_eq]

/-- On a lawful curve that encodes as Ristretto does, the signature of a credential that was issued
on Ristretto is accepted, but not when the order is added to its scalar, or zero is put in its
place. -/
theorem one_second_half_credential :
    let key := issuer.publicKey Ristretto.curve
    let message := credentialMessage (uuid 1) (profileKey 1) expiration
    let first := Octets.left (n := 32) 32 credential.signature
    let second := Octets.right (n := 32) 32 credential.signature
    Schnorr.verify lookalike key message (first.append second) = .ok ()
      ∧ Schnorr.verify lookalike key message
          (first.append (.ofNatLE 32 (second.toNatLE + Scalar.order))) = .error .invalidArgument
      ∧ Schnorr.verify lookalike key message (first.append (.replicate 32 0)) =
        .error .verificationFailed := by
  intro key message first second
  have whole : first.append second = credential.signature :=
    Octets.ext_toList (Octets.left_append_right (m := 32) (n := 32) credential.signature)
  have accepted : Schnorr.verify lookalike key message (first.append second) = .ok () := by
    have verified :=
      Credential.verify_issue lawful_lookalike issuer (uuid 1) (profileKey 1) expiration
    rw [issue_credential, publicKey_issuer] at verified
    rw [whole]
    exact verifySignature_eq_ok_iff.1 verified
  obtain ⟨-, -, others⟩ := Schnorr.one_second_half lawful_lookalike key message first
  obtain ⟨respelled, others⟩ := others second accepted
  refine ⟨accepted, respelled, others _ ?_⟩
  -- the other half would have to be zero, and it is not
  intro zero
  have read : Scalar.ofCanonical? second = some _ := scalar?_credential
  rw [← zero] at read
  exact absurd read (by decide +kernel)

end Sample

end SealedGroups
