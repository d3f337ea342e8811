import SealedGroups.Client.Membership
import SealedGroups.Client.Settings

/-!
# Creating a group

A new group starts at revision 0 under fresh keys. Its creator is the only administrator and needs a
credential; the other candidates join with one role if they have a credential and are invited by the
creator otherwise.
-/

namespace SealedGroups

/-- A group that was just created, ready to be sent to the server. -/
structure NewGroup where
  keys : Keyring
  group : Sealed.Group
deriving DecidableEq

def AccessRules.ofNewGroup : AccessRules where
  attributes := .member
  members := .member
  inviteLink := .unsatisfiable

namespace GroupClient

def enrol (client : GroupClient) (creator : ServiceId) (role : Role) (group : Sealed.Group)
    (candidate : Candidate) : Except ClientError Sealed.Group :=
  match candidate.credential with
  | some credential => do
    let member ← client.memberOf credential role
    return { group with members := group.members ++ [member] }
  | none =>
    let invite := client.inviteOf candidate.id role creator
    .ok { group with invites := group.invites ++ [invite] }

/-- The first state of a group with encrypted title and timer. -/
def firstState (client : GroupClient) (title timer : Bytes) (avatar : Option String)
    (creator : ServiceId) (credential : Credential) (others : List Candidate) (role : Role) :
    Except ClientError Sealed.Group := do
  let administrator ← client.memberOf credential .administrator
  others.foldlM (client.enrol creator role) {
    publicKey := client.publicParams.toOctets.toList
    title
    avatar := avatar.getD ""
    timer
    access := some .ofNewGroup
    members := [administrator] }

end GroupClient

namespace Client

/-- The credential of the creator of a group that is not too large. -/
def creatorCredential (client : Client) (creator : Candidate) (others : List Candidate) :
    Except ClientError Credential :=
  let size := others.length + 1
  if client.config.maxGroupSize < size then .error (.groupTooLarge size client.config.maxGroupSize)
  else
    match creator.credential with
    | some credential => .ok credential
    | none => .error (.missingCredential creator.id)

def createGroup (client : Client) (title : String) (avatar : Option String) (duration : UInt32)
    (creator : Candidate) (others : List Candidate) (role : Role) (rng : Random) :
    Except ClientError NewGroup × Random :=
  match client.creatorCredential creator others with
  | .error e => (.error e, rng)
  | .ok credential =>
    let (keys, rng) := Keyring.generate rng
    let groupClient := client.forGroup keys
    let (title, rng) := groupClient.sealAttribute (.title title) rng
    let (timer, rng) := groupClient.sealAttribute (.timer duration) rng
    let newGroup := do
      let group ← groupClient.firstState (← title) (← timer) avatar creator.id credential
        others role
      return { keys, group }
    (newGroup, rng)

end Client

end SealedGroups
