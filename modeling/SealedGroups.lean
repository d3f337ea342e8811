import SealedGroups.Cbor.Fields
import SealedGroups.Cbor.Head
import SealedGroups.Cbor.Read
import SealedGroups.Cipher.Aead
import SealedGroups.Cipher.ChaCha20
import SealedGroups.Cipher.Poly1305
import SealedGroups.Client.Attributes
import SealedGroups.Client.Bans
import SealedGroups.Client.Basic
import SealedGroups.Client.Create
import SealedGroups.Client.Membership
import SealedGroups.Client.Open
import SealedGroups.Client.Settings
import SealedGroups.Credential
import SealedGroups.Curve.Basic
import SealedGroups.Curve.Ristretto
import SealedGroups.Curve.Scalar
import SealedGroups.Group.Apply
import SealedGroups.Group.Change
import SealedGroups.Group.Codes
import SealedGroups.Group.Difference
import SealedGroups.Group.Edit
import SealedGroups.Group.Emptiness
import SealedGroups.Group.Lookup
import SealedGroups.Group.Rebase
import SealedGroups.Group.Snapshot
import SealedGroups.Hash.Hkdf
import SealedGroups.Hash.Sha2
import SealedGroups.Keyring
import SealedGroups.Noted
import SealedGroups.Octets
import SealedGroups.Random
import SealedGroups.Samples
import SealedGroups.Schnorr
import SealedGroups.Sealed.Actions
import SealedGroups.Sealed.Group
import SealedGroups.Sealing
import SealedGroups.ServiceId
import SealedGroups.Wire.Field
import SealedGroups.Wire.Record
import SealedGroups.Wire.Varint
import SealedGroups.Proofs.Step.Basic
import SealedGroups.Proofs.Step.Effect
import SealedGroups.Proofs.Difference
import SealedGroups.Proofs.Identity
import SealedGroups.Proofs.Independence
import SealedGroups.Proofs.Decisions
import SealedGroups.Proofs.Rebase
import SealedGroups.Proofs.RebaseApplies
import SealedGroups.Proofs.Portion
import SealedGroups.Proofs.RebasedActions
import SealedGroups.Proofs.RebasedEntries
import SealedGroups.Proofs.Settled
import SealedGroups.Proofs.Superfluous
import SealedGroups.Proofs.Lossless
import SealedGroups.Proofs.Banning
import SealedGroups.Proofs.ConcurrentBans
import SealedGroups.Proofs.Emptiness
import SealedGroups.Proofs.Signatures
import SealedGroups.Proofs.Presentations
import SealedGroups.Proofs.WireFields
import SealedGroups.Proofs.WireRecords
import SealedGroups.Proofs.Schema
import SealedGroups.Proofs.Following
import SealedGroups.Proofs.OpenedGroup
import SealedGroups.Proofs.Extraction
import SealedGroups.Proofs.Intents
import SealedGroups.Proofs.Attributes
import SealedGroups.Proofs.Setup
import SealedGroups.Proofs.Notary
import SealedGroups.Proofs.UpToDate
import SealedGroups.Proofs.Acceptances
import SealedGroups.Proofs.Eviction
import SealedGroups.Proofs.Footprint
import SealedGroups.Proofs.Approvals
import SealedGroups.Proofs.JoinRevisions
import SealedGroups.Proofs.Commands
import SealedGroups.Proofs.Alignment
import SealedGroups.Proofs.Refusals
import SealedGroups.Proofs.Tampering
import SealedGroups.Proofs.Removal
import SealedGroups.Proofs.Answers
import SealedGroups.Proofs.Nonces
import SealedGroups.Proofs.SignedMessages
import SealedGroups.Proofs.TypedBlobs
import SealedGroups.Proofs.Respelling
import SealedGroups.Proofs.Decryption
import SealedGroups.Proofs.Identifiers
