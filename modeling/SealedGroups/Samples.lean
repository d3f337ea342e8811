import SealedGroups.Client.Membership
import SealedGroups.Group.Change

/-!
# Sample records

A cast of people for examples, each known by the number that their UUID spells, and the records they
appear in. A `Stage` is a server with one group and a client, all from fixed seeds, so whatever is
done on it gives the same bytes every time.
-/

namespace SealedGroups.Sample

/-! ### People -/

/-- The UUID that a number spells. -/
def uuid (n : Nat) : Uuid :=
  ⟨bytesBE 16 n, length_bytesBE 16 n⟩

def aci (n : Nat) : Bytes :=
  (ServiceId.aci (uuid n)).toBinary

/-- The bytes of a person's phone number identity. -/
def pni (n : Nat) : Bytes :=
  (ServiceId.pni (uuid n)).toBinary

/-- A person's profile key: their UUID twice. -/
def profileKey (n : Nat) : ProfileKey :=
  (uuid n).append (uuid n)

/-- Bytes that stand in for a person's ciphertext. -/
def ciphertext (n : Nat) : IdentityCiphertext :=
  (uuid n).append (.replicate 41 0)

/-! ### Records -/

def memberWithProfileKey (n : Nat) (profileKey : Bytes) : Member where
  aci := aci n
  role := .normal
  profileKey

def member (n : Nat) : Member :=
  memberWithProfileKey n (profileKey n).toList

def administrator (n : Nat) : Member :=
  { member n with role := .administrator }

def memberByPni (n number : Nat) : Member :=
  { member n with pni := pni number }

def invite (n : Nat) : Invite where
  invitee := aci n
  role := .normal
  ciphertext := (ciphertext n).toList

def pniInvite (n : Nat) : Invite :=
  { invite n with invitee := pni n }

def revocation (n : Nat) : Revocation where
  invitee := aci n
  ciphertext := (ciphertext n).toList

def request (n : Nat) : JoinRequest where
  aci := aci n
  profileKey := (profileKey n).toList

def ban (n : Nat) (timestamp : UInt64) : Ban where
  serviceId := aci n
  timestamp

def promotion (n : Nat) : RoleChange where
  aci := aci n
  role := .administrator

def demotion (n : Nat) : RoleChange where
  aci := aci n
  role := .normal

def approval (n : Nat) : Approval where
  aci := aci n
  role := .normal

def administratorApproval (n : Nat) : Approval where
  aci := aci n
  role := .administrator

/-! ### A server with a group -/

/-- When sample credentials expire: one day after the Unix epoch. -/
def expiration : UInt64 := 86400

/-- A server, a client of it and the keys of one group. -/
structure Stage where
  server : Server
  keys : Keyring
  client : Client
  serverRandom : Random
  clientRandom : Random

namespace Stage

/-- The stage for a client with these limits. -/
def make (G : Curve) (config : Config) : Stage :=
  let (server, rng) := Server.generate { seed := .replicate 32 1 }
  let (keys, rng) := Keyring.generate rng
  { server
    keys
    client := { curve := G, serverKey := server.publicKey G, config }
    serverRandom := rng
    clientRandom := { seed := .replicate 32 2 } }

def groupClient (stage : Stage) : GroupClient :=
  stage.client.forGroup stage.keys

def credential (stage : Stage) (n : Nat) : Credential :=
  stage.server.issue stage.client.curve (uuid n) (profileKey n) expiration

def candidate (stage : Stage) (n : Nat) : Candidate :=
  (stage.credential n).candidate

def notarise (stage : Stage) (actions : Bytes) : Schnorr.Signature × Stage :=
  let (signature, rng) := stage.server.notarise stage.client.curve actions stage.serverRandom
  (signature, { stage with serverRandom := rng })

end Stage

end SealedGroups.Sample
