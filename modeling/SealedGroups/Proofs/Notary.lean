import SealedGroups.Client.Open
import SealedGroups.Proofs.Opening
import SealedGroups.Proofs.Presentations
import SealedGroups.Proofs.Schema

/-!
# A notarised change is read as it was signed

The server signs the bytes of accepted actions, and those very bytes are what a client checks and
then decodes; nothing is encoded again in between. So whatever actions the server signs, a client
that trusts the server's key reads them as if they had come to it directly (`openChange_notarised`).

Of all other changes a client learns no more by checking than without: a change is refused, or read
as it would be without a look at the signature. The epoch is looked at first, so that a change of a
later one is passed over whatever its bytes and its signature are.
-/

namespace SealedGroups

open Wire (Record)

/-- Actions with the server's signature of their bytes. -/
def Server.notarisedChange (G : Curve) (server : Server) (actions : Sealed.Actions) (rng : Random)
    (epoch : UInt32) : Sealed.SignedChange where
  actions := Record.write actions
  signature := (server.notarise G (Record.write actions) rng).1.toList
  epoch

namespace GroupClient

variable {client : GroupClient} {change : Sealed.SignedChange}

/-! ### The signature -/

/-- A change passes the check if it comes with a signature of its bytes. -/
theorem checkNotary_eq_ok_iff :
    client.checkNotary change = .ok () ↔ ∃ signature : Schnorr.Signature,
      signature.toList = change.signature
        ∧ Schnorr.verify client.curve client.serverKey change.actions signature = .ok () := by
  simp only [checkNotary, Schnorr.signatureOfBytes, mapError_eq_ok_iff, bind_eq_ok_iff,
    verifySignature_eq_ok_iff]
  refine exists_congr fun signature => and_congr_left' ?_
  rw [← Octets.ofList?_eq_some_iff]
  cases Octets.ofList? 64 change.signature <;> simp

/-- Whatever is wrong with a signature, the change is refused for the same reason. -/
theorem checkNotary_of_ne (wrong : client.checkNotary change ≠ .ok ()) :
    client.checkNotary change = .error (.verificationFailed .verificationFailed) := by
  simp only [checkNotary, Schnorr.signatureOfBytes, verifySignature] at wrong ⊢
  cases read : Octets.ofList? 64 change.signature with
  | none => rfl
  | some signature =>
    rw [read] at wrong
    cases verified : Schnorr.verify client.curve client.serverKey change.actions signature with
    | error e => simp [Except.mapError, bind, Except.bind, verified]
    | ok => simp [Except.mapError, bind, Except.bind, verified] at wrong

theorem checkNotary_notarised {IsLog : client.curve.Point → ZMod Scalar.order → Prop}
    {server : Server} (lawful : client.curve.Lawful IsLog)
    (trusted : client.serverKey = server.publicKey client.curve) (actions : Sealed.Actions)
    (rng : Random) (epoch : UInt32) :
    client.checkNotary (server.notarisedChange client.curve actions rng epoch) = .ok () := by
  refine checkNotary_eq_ok_iff.2 ⟨_, rfl, ?_⟩
  rw [trusted]
  exact Schnorr.verify_signWith lawful server.signingKey _ _

/-! ### The order of the checks -/

/-- What the bytes of a change decrypt to, whoever signed them. -/
def openBytes (client : GroupClient) (bytes : Bytes) : Noted ClientError (Option Change) :=
  match Record.read? (R := Sealed.Actions) bytes with
  | none => .fail .undecodable
  | some actions => some <$> client.openActions actions none

theorem openChange_of_newer (newer : client.config.highestEpoch < change.epoch) (verify : Bool) :
    (client.openChange change verify).outcome = .ok none
      ∧ client.openChange change verify = client.openChange change false := by
  simp only [openChange, if_pos newer]
  exact ⟨rfl, trivial⟩

theorem openChange_unchecked (known : change.epoch ≤ client.config.highestEpoch) :
    client.openChange change false = client.openBytes change.actions := by
  simp only [openChange, if_neg (UInt32.not_lt.2 known)]
  rfl

theorem openChange_checked (known : change.epoch ≤ client.config.highestEpoch)
    (signed : client.checkNotary change = .ok ()) :
    client.openChange change true = client.openBytes change.actions := by
  simp only [openChange, if_neg (UInt32.not_lt.2 known), signed]
  rfl

theorem openChange_refused (known : change.epoch ≤ client.config.highestEpoch)
    (wrong : client.checkNotary change ≠ .ok ()) :
    client.openChange change true = .fail (.verificationFailed .verificationFailed) := by
  simp only [openChange, if_neg (UInt32.not_lt.2 known), checkNotary_of_ne wrong]
  rfl

theorem openBytes_ne_none (bytes : Bytes) : (client.openBytes bytes).outcome ≠ .ok none := by
  unfold openBytes
  split
  · exact nofun
  · rename_i actions _
    rw [Noted.outcome_map]
    cases (client.openActions actions none).outcome with
    | error e => exact nofun
    | ok change => exact nofun

/-- What the server signed is read as the actions that it signed. A change is refused for its
signature or read as it would be without a look at it, and nothing comes of it exactly if its epoch
is later than the client knows. The bound on the length holds of all bytes a machine can store. -/
theorem openChange_notarised (client : GroupClient) :
    (∀ (server : Server) (IsLog : client.curve.Point → ZMod Scalar.order → Prop),
      client.curve.Lawful IsLog → client.serverKey = server.publicKey client.curve →
      ∀ (actions : Sealed.Actions) (rng : Random) (epoch : UInt32),
        (Record.write actions).length < UInt64.size → epoch ≤ client.config.highestEpoch →
        client.openChange (server.notarisedChange client.curve actions rng epoch) true =
          some <$> client.openActions actions none)
      ∧ ∀ change : Sealed.SignedChange,
        (client.openChange change true = .fail (.verificationFailed .verificationFailed)
            ∨ client.openChange change true = client.openChange change false)
          ∧ ∀ verify, (client.openChange change verify).outcome = .ok none ↔
            client.config.highestEpoch < change.epoch := by
  constructor
  · -- what the server writes is read back, so that opening it is opening what was signed
    intro server IsLog lawful trusted actions rng epoch short known
    have read : Record.read? (Record.write actions) = some actions :=
      Record.mergeBytes_write (show 0 + 3 ≤ Record.nesting by decide) short
    rw [openChange_checked known (checkNotary_notarised lawful trusted actions rng epoch),
      Server.notarisedChange, openBytes, read]
  · intro change
    by_cases newer : client.config.highestEpoch < change.epoch
    · -- a change of a newer epoch is not even checked
      refine ⟨Or.inr (openChange_of_newer newer true).2, fun verify => ?_⟩
      exact iff_of_true (openChange_of_newer newer verify).1 newer
    · have known := UInt32.not_lt.1 newer
      have unchecked := openChange_unchecked known
      -- the two runs differ in the check alone, which passes or refuses the change
      by_cases signed : client.checkNotary change = .ok ()
      · have checked := openChange_checked known signed
        refine ⟨Or.inr (checked.trans unchecked.symm), fun verify => iff_of_false ?_ newer⟩
        cases verify with
        | true => exact checked ▸ openBytes_ne_none _
        | false => exact unchecked ▸ openBytes_ne_none _
      · have refused := openChange_refused known signed
        refine ⟨Or.inl refused, fun verify => iff_of_false ?_ newer⟩
        cases verify with
        | true => rw [refused]; exact nofun
        | false => exact unchecked ▸ openBytes_ne_none _

end GroupClient

/-! ### A change that was signed on a curve that looks like Ristretto -/

namespace Sample

/-- The group gets a picture. -/
def pictureActions : Sealed.Actions where
  source := (groupKeys.sealIdentity (.aci (uuid 1))).toList
  revision := 7
  avatar := some ⟨"picture"⟩

theorem length_source : pictureActions.source.length = 57 :=
  Octets.length_toList _

theorem write_pictureActions :
    Record.write pictureActions = [10, 57] ++ pictureActions.source
      ++ [16, 7, 90, 9, 10, 7, 112, 105, 99, 116, 117, 114, 101] := by
  have named : pictureActions.source ≠ [] :=
    List.ne_nil_of_length_pos (length_source ▸ Nat.succ_pos 56)
  have picture : Record.write (⟨"picture"⟩ : Sealed.Avatar) =
      [10, 7, 112, 105, 99, 116, 117, 114, 101] := by
    have fields : Record.fields (⟨"picture"⟩ : Sealed.Avatar) =
        [⟨1, .bytes [112, 105, 99, 116, 117, 114, 101]⟩] := by decide +kernel
    rw [Record.write_eq, fields]
    simp [Wire.writeFields, Wire.Field.write, Wire.writeKey, Wire.Varint.write]
  have fields : Record.fields pictureActions =
      (if pictureActions.source = [] then [] else [⟨1, .bytes pictureActions.source⟩]) ++
        [⟨2, .varint 7⟩, ⟨11, .bytes (Record.write (⟨"picture"⟩ : Sealed.Avatar))⟩] := rfl
  rw [Record.write_eq, fields, if_neg named, picture]
  simp [Wire.writeFields, Wire.Field.write, Wire.writeKey, Wire.Varint.write, length_source]

def notaryRandom : Random where
  seed := .replicate 32 3

def notaryNonce : Scalar :=
  .ofNat 5772811923765948429562035682108852499193045296539654839823789300780122071748

theorem notaryNonce_eq :
    Scalar.ofWide (sha512 (Schnorr.nonceInput issuer.signingKey (Record.write pictureActions)
      (notaryRandom.draw 64).1.toList)) = notaryNonce := by
  rw [write_pictureActions]
  unfold pictureActions Keyring.sealIdentity Keyring.identityNonce Keyring.syntheticNonce
  rw [sha256_eq, sha512_eq]
  decide +kernel

/-- The scalars whose multiples of the base point are encoded when the actions are signed. -/
def notarySecrets : List Scalar :=
  [issuer.signingKey, notaryNonce]

theorem distinct_notarySecrets :
    (notarySecrets.map Scalar.toOctets
      ++ notarySecrets.map Ristretto.curve.encodedMultiple).Nodup := by
  rw [Ristretto.encodedMultiple_curve]
  unfold Ristretto.compress Ristretto.invSqrt
  rw [Ristretto.mul_eq, Ristretto.fpow_eq]
  decide +kernel

/-- A client of the issuer, on a lawful curve that encodes them as Ristretto does. -/
def subscriber : GroupClient where
  curve := .lookalike notarySecrets
  serverKey := issuer.publicKey Ristretto.curve
  keys := groupKeys

/-- A change that was signed on Ristretto is read, and one of a later epoch is passed over. -/
theorem openChange_notarised_sample :
    (subscriber.openChange (issuer.notarisedChange Ristretto.curve pictureActions notaryRandom 5)
        true).outcome =
      .ok (some { editor := aci 1, revision := 7, avatar := some ⟨"picture"⟩ })
      ∧ ∀ verify, (subscriber.openChange { actions := [255], epoch := 6 } verify).outcome =
        .ok none := by
  obtain ⟨reads, others⟩ := subscriber.openChange_notarised
  refine ⟨?_, fun verify => ((others _).2 verify).2 (by decide)⟩
  have lawful := Curve.lawful_lookalike notarySecrets
  -- on the two points that the server encodes, the lookalike curve is Ristretto
  have key : subscriber.curve.encodedMultiple issuer.signingKey =
      Ristretto.curve.encodedMultiple issuer.signingKey :=
    Curve.encodedMultiple_lookalike distinct_notarySecrets (by simp [notarySecrets])
  have nonce : subscriber.curve.encodedMultiple notaryNonce =
      Ristretto.curve.encodedMultiple notaryNonce :=
    Curve.encodedMultiple_lookalike distinct_notarySecrets (by simp [notarySecrets])
  rw [← notaryNonce_eq] at nonce
  have notarised : ∀ G : Curve,
      (issuer.notarise G (Record.write pictureActions) notaryRandom).1 =
        Schnorr.signWith G issuer.signingKey (Record.write pictureActions)
          (notaryRandom.draw 64).1.toList := fun _ => rfl
  have signed : issuer.notarisedChange subscriber.curve pictureActions notaryRandom 5 =
      issuer.notarisedChange Ristretto.curve pictureActions notaryRandom 5 := by
    rw [Server.notarisedChange, Server.notarisedChange, notarised, notarised,
      Schnorr.signWith_congr key nonce]
  have short : (Record.write pictureActions).length < UInt64.size := by
    rw [write_pictureActions, List.length_append, List.length_append, length_source]
    decide
  have read := reads issuer _ lawful key.symm pictureActions notaryRandom 5 short (by decide)
  have editor : (subscriber.openIdentity .editor pictureActions.source) = .ok (.aci (uuid 1)) :=
    subscriber.openIdentity_sealIdentity .editor (.aci (uuid 1))
  have opened : (subscriber.openActions pictureActions (some (.aci (uuid 1)))).outcome =
      .ok { editor := aci 1, revision := 7, avatar := some ⟨"picture"⟩ } :=
    GroupClient.openActions_eq_ok_iff.2 ⟨by constructor <;> rfl, rfl⟩
  rw [← signed, read, Noted.outcome_map, GroupClient.openActions_of_source editor, opened]
  rfl

end Sample

end SealedGroups
