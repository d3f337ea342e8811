import SealedGroups.Proofs.Presentations
import SealedGroups.Proofs.PrimeOrder

/-!
# A signature is the answer to a challenge

Under every key, also one that is reduced to zero, what the signer makes is accepted, and what is
accepted is what the signer makes of some nonce (`Schnorr.verify_signed`). So a signature says as
much as its challenge does. It is accepted for two messages only if they have one challenge, or if
the key is zero (`Schnorr.challenge_eq_of_verify`), and two answers under one nonce to different
challenges tell the key (`Schnorr.key_of_answers`).

The last two divide by scalars, for which the order of the group has to be prime.
-/

namespace SealedGroups

theorem Scalar.cast_eq_zero_iff {a : Scalar} : (a.value : ZMod order) = 0 ↔ a.value = 0 := by
  rw [← Nat.cast_zero, ZMod.natCast_eq_natCast_iff, Nat.ModEq, Nat.mod_eq_of_lt a.lt_order,
    Nat.zero_mod]

namespace Schnorr

variable {G : Curve} {IsLog : G.Point → ZMod Scalar.order → Prop}

/-- Whatever the 64 bytes are that a key is made from, messages signed with fresh bytes and without
them are accepted under it, and of all signatures those are accepted that answer under some nonce.
-/
theorem verify_signed (lawful : G.Lawful IsLog) (wide : Octets 64) (message : Bytes)
    (rng : Random) :
    let key := Scalar.ofWide wide
    verify G (verifyingKey G key) message (signHedged G key message rng).1 = .ok ()
      ∧ verify G (verifyingKey G key) message (sign G key message) = .ok ()
      ∧ ∀ signature, verify G (verifyingKey G key) message signature = .ok () ↔
        ∃ nonce, answer G key message nonce = signature := by
  intro key
  refine ⟨?_, ?_, ?_⟩
  · exact verify_signWith lawful key message _
  · exact verify_signWith lawful key message _
  · intro signature
    exact verify_eq_ok_iff lawful

/-! ### What a signature says -/

/-- The challenge that the key and a nonce make of a message. -/
def challengeOf (G : Curve) (key : SigningKey) (nonce : Scalar) (message : Bytes) : Scalar :=
  challenge (G.encodedMultiple nonce) (verifyingKey G key) message

theorem encodedMultiple_inj (lawful : G.Lawful IsLog) {a b : Scalar} :
    G.encodedMultiple a = G.encodedMultiple b ↔ a = b :=
  (lawful.compress_eq_iff (lawful.multiple a) (lawful.multiple b)).trans Scalar.cast_inj

/-- A signature that is accepted for two messages answers one challenge, unless the key is zero. -/
theorem challenge_eq_of_verify (lawful : G.Lawful IsLog) {key : SigningKey} {first second : Bytes}
    {signature : Signature}
    (accepted : verify G (verifyingKey G key) first signature = .ok ())
    (accepted' : verify G (verifyingKey G key) second signature = .ok ()) :
    key.value = 0 ∨ challenge (Octets.left (n := 32) 32 signature) (verifyingKey G key) first =
      challenge (Octets.left (n := 32) 32 signature) (verifyingKey G key) second := by
  have : Fact Scalar.order.Prime := ⟨Scalar.prime_order⟩
  obtain ⟨nonce, rfl⟩ := (verify_eq_ok_iff lawful).1 accepted
  -- both are answers of the same nonce, since they begin with the same point
  obtain ⟨other, same⟩ := (verify_eq_ok_iff lawful).1 accepted'
  obtain ⟨points, scalars⟩ := Octets.append_inj.1 same
  obtain rfl := (encodedMultiple_inj lawful).1 points
  have sums := congrArg (fun s : Scalar => (s.value : ZMod Scalar.order))
    (Scalar.toOctets_inj.1 scalars)
  simp only [Scalar.cast_add, Scalar.cast_mul, add_right_inj] at sums
  -- the key is multiplied by the challenge, so equal sums leave two ways
  rcases mul_eq_mul_right_iff.1 sums with challenges | zero
  · rw [answer, Octets.left_append]
    exact Or.inr (Scalar.cast_inj.1 challenges).symm
  · exact Or.inl (Scalar.cast_eq_zero_iff.1 zero)

/-- The scalar that a signature ends with. -/
def scalar? (signature : Signature) : Option Scalar :=
  Scalar.ofCanonical? (Octets.right (n := 32) 32 signature)

theorem scalar?_answer (key : SigningKey) (message : Bytes) (nonce : Scalar) :
    scalar? (answer G key message nonce) =
      some (nonce + challengeOf G key nonce message * key) := by
  rw [scalar?, answer, Octets.right_append, Scalar.ofCanonical?_toOctets]
  rfl

/-- Whoever sees two answers under one nonce to different challenges can compute the key. -/
theorem key_of_answers {key : SigningKey} {first second : Bytes} {nonce s t : Scalar}
    (scalar : scalar? (answer G key first nonce) = some s)
    (scalar' : scalar? (answer G key second nonce) = some t)
    (different : challengeOf G key nonce first ≠ challengeOf G key nonce second) :
    (key.value : ZMod Scalar.order) = ((s.value : ZMod Scalar.order) - t.value) *
      (((challengeOf G key nonce first).value : ZMod Scalar.order)
        - (challengeOf G key nonce second).value)⁻¹ := by
  have : Fact Scalar.order.Prime := ⟨Scalar.prime_order⟩
  rw [scalar?_answer, Option.some.injEq] at scalar scalar'
  have nonzero : ((challengeOf G key nonce first).value : ZMod Scalar.order)
      - (challengeOf G key nonce second).value ≠ 0 :=
    sub_ne_zero.2 fun same => different (Scalar.cast_inj.1 same)
  rw [eq_mul_inv_iff_mul_eq₀ nonzero, ← scalar, ← scalar', Scalar.cast_add, Scalar.cast_add,
    Scalar.cast_mul, Scalar.cast_mul]
  ring

end Schnorr

/-! ### A key that is reduced to zero -/

/-- Multiples whose bytes are not among those that were put in another place are encoded as they are
spelled. -/
theorem Curve.encodedMultiple_lookalike_of_not_mem {known : List Scalar} {a : Scalar}
    (other : a.toOctets ∉
      known.map Scalar.toOctets ++ known.map Ristretto.curve.encodedMultiple) :
    (lookalike known).encodedMultiple a = a.toOctets := by
  rw [lookalike, encodedMultiple_ofSpelling]
  exact prod_swap_apply_of_not_mem other

namespace Sample

/-- The order of the group, of which nothing is left when it is reduced. -/
def wideOrder : Octets 64 := .ofNatLE 64 Scalar.order

theorem ofWide_wideOrder : Scalar.ofWide wideOrder = .ofNat 0 := by
  decide +kernel

def signerRandom : Random where
  seed := .replicate 32 3

def hedgedNonce : Scalar :=
  .ofNat 3459735819075904913460843712465793367564099235568797246018249669814227660303

def plainNonce : Scalar :=
  .ofNat 4394912244679501774558812338089762874777411410811455007278231960818004068074

theorem hedgedNonce_eq :
    Scalar.ofWide (sha512 (Schnorr.nonceInput (.ofNat 0) (utf8 "group change")
      (signerRandom.draw 64).1.toList)) = hedgedNonce := by
  rw [sha512_eq]
  decide +kernel

theorem plainNonce_eq :
    Scalar.ofWide (sha512 (Schnorr.nonceInput (.ofNat 0) (utf8 "group change") [])) =
      plainNonce := by
  rw [sha512_eq]
  decide +kernel

/-- The nonces of the two signatures. -/
def signerNonces : List Scalar :=
  [hedgedNonce, plainNonce]

/-- Neither them nor the key are spelled like the encoding of another one. -/
theorem distinct_signerNonces :
    (signerNonces.map Scalar.toOctets ++ signerNonces.map Ristretto.curve.encodedMultiple).Nodup
      ∧ (Scalar.ofNat 0).toOctets ∉
        signerNonces.map Scalar.toOctets ++ signerNonces.map Ristretto.curve.encodedMultiple
      ∧ Ristretto.curve.encodedMultiple (.ofNat 0) = (Scalar.ofNat 0).toOctets := by
  rw [Ristretto.encodedMultiple_curve]
  unfold Ristretto.compress Ristretto.invSqrt
  rw [Ristretto.mul_eq, Ristretto.fpow_eq]
  decide +kernel

/-- A lawful curve that has Ristretto's encodings accepts what is signed on Ristretto with a key
that is reduced to zero. -/
theorem verify_signed_wideOrder :
    let G := Curve.lookalike signerNonces
    let key := Scalar.ofWide wideOrder
    let verifyingKey := Schnorr.verifyingKey Ristretto.curve key
    let message := utf8 "group change"
    Schnorr.verify G verifyingKey message
        (Schnorr.signHedged Ristretto.curve key message signerRandom).1 = .ok ()
      ∧ Schnorr.verify G verifyingKey message (Schnorr.sign Ristretto.curve key message) =
        .ok () := by
  intro G key verifyingKey message
  obtain ⟨distinct, other, zero⟩ := distinct_signerNonces
  have same_key : G.encodedMultiple key = Ristretto.curve.encodedMultiple key := by
    -- the wide key reduces to zero, whose multiple is the same on every such curve
    have reduced : key = .ofNat 0 := ofWide_wideOrder
    rw [reduced, zero]
    exact Curve.encodedMultiple_lookalike_of_not_mem other
  have hedged : G.encodedMultiple hedgedNonce = Ristretto.curve.encodedMultiple hedgedNonce :=
    Curve.encodedMultiple_lookalike distinct (by simp [signerNonces])
  have plain : G.encodedMultiple plainNonce = Ristretto.curve.encodedMultiple plainNonce :=
    Curve.encodedMultiple_lookalike distinct (by simp [signerNonces])
  rw [← hedgedNonce_eq, ← ofWide_wideOrder] at hedged
  rw [← plainNonce_eq, ← ofWide_wideOrder] at plain
  have lawful := Curve.lawful_lookalike signerNonces
  obtain ⟨accepted, accepted', -⟩ := Schnorr.verify_signed lawful wideOrder message signerRandom
  -- what the lookalike curve signs is what Ristretto signs
  have same : Schnorr.verifyingKey G key = verifyingKey := same_key
  have hedgedSignature : Schnorr.signWith G key message (signerRandom.draw 64).1.toList =
      (Schnorr.signHedged Ristretto.curve key message signerRandom).1 :=
    Schnorr.signWith_congr same_key hedged
  have plainSignature : Schnorr.sign G key message = Schnorr.sign Ristretto.curve key message :=
    Schnorr.sign_congr same_key plain
  rw [← same, ← hedgedSignature, ← plainSignature]
  exact ⟨accepted, accepted'⟩

end Sample

end SealedGroups
