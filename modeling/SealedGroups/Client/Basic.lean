import SealedGroups.Credential
import SealedGroups.Group.Codes

/-!
# Clients

A client works for its groups with the server's key, its limits and, for one group at a time, the
keys of that group. What can go wrong is told apart by cause; a record that cannot be trusted is
described by the part that is wrong and what is wrong with it.
-/

namespace SealedGroups

structure Config where
  /-- The most members a new group may have. -/
  maxGroupSize : Nat := 1001
  /-- The most entries a ban list keeps; the oldest ones make room for new ones. -/
  maxBans : Nat := 10
  /-- Changes of a higher epoch are not understood and ignored. -/
  highestEpoch : UInt32 := 5
deriving DecidableEq

inductive Part where
  | editor
  | addedMember
  | removedMember
  | changedMember
  | member
  | profileKey
  | presentation
  | identifier
  | addedInvite
  | addedRequest
  | refusedRequest
  | approvedRequest
  | addedBan
  | invitedPni
deriving DecidableEq

def Part.text : Part → String
  | .editor => "editor"
  | .addedMember => "added member"
  | .removedMember => "deleted member"
  | .changedMember => "modified member"
  | .member => "member"
  | .profileKey => "profile key"
  | .presentation => "presentation"
  | .identifier => "identifier"
  | .addedInvite => "added pending member"
  | .addedRequest => "added requesting member"
  | .refusedRequest => "deleted requester"
  | .approvedRequest => "approved requester"
  | .addedBan => "added banned member"
  | .invitedPni => "invited PNI"

inductive Flaw where
  | missing
  | notAnAci
  | notAPni
  | sealing (error : SealingError)
deriving DecidableEq

def Flaw.text : Flaw → String
  | .missing => "missing"
  | .notAnAci => "not an ACI"
  | .notAPni => "not a PNI"
  | .sealing error => error.message

/-- Why a client cannot do what it was asked for. -/
inductive ClientError where
  /-- A record is malformed or does not verify; the state cannot be trusted. -/
  | invalidState (part : Part) (flaw : Flaw)
  /-- The server's signature of a change is wrong. -/
  | verificationFailed (error : SealingError)
  /-- The actions of a change are no record. -/
  | undecodable
  | groupTooLarge (size max : Nat)
  | missingCredential (id : ServiceId)
  | candidateMismatch (actions candidates : Nat)
  | sealing (error : SealingError)
deriving DecidableEq

def ClientError.message : ClientError → String
  | .invalidState part flaw => s!"invalid group state: {part.text}: {flaw.text}"
  | .verificationFailed error =>
    s!"group change signature could not be verified: {error.message}"
  | .undecodable => "could not decode group change actions"
  | .groupTooLarge size max => s!"group of {size} members exceeds the maximum of {max}"
  | .missingCredential id => s!"candidate {id.toText} has no profile key credential"
  | .candidateMismatch actions candidates =>
    s!"{candidates} candidates given to replace {actions} add member actions"
  | .sealing error => error.message

/-- Whatever is wrong with the encryption of a part makes the record invalid. -/
def SealingError.inPart (part : Part) {α : Type} : Except SealingError α → Except ClientError α
  | .ok a => .ok a
  | .error e => .error (.invalidState part (.sealing e))

/-- A client, for all of its groups. -/
structure Client where
  curve : Curve
  serverKey : Schnorr.VerifyingKey
  config : Config := {}

/-- A client at work on one group. -/
structure GroupClient extends Client where
  keys : Keyring

def Client.forGroup (client : Client) (keys : Keyring) : GroupClient :=
  { client with keys }

def GroupClient.publicParams (client : GroupClient) : PublicParams :=
  client.keys.publicParams client.curve

end SealedGroups
