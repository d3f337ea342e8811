import SealedGroups.Client.Basic
import SealedGroups.Noted
import SealedGroups.Sealed.Actions

/-!
# Banning

A ban list has a limited number of entries, so those banned longest make room for new ones in the
same change. Age goes by timestamp, among equal ones by position. An entry that holds no identity
cannot be named in an action; it is noted and stays, and the next oldest goes in its place.
-/

namespace SealedGroups

/-- The bans of a list from the oldest to the newest. -/
def oldestFirst (bans : List Ban) : List Ban :=
  bans.mergeSort fun a b => a.timestamp ≤ b.timestamp

/-- The first identities of a ban list, as many as asked for. -/
def firstBanned {ε : Type} : (count : Nat) → List Ban → Noted ε (List ServiceId)
  | 0, _ => pure []
  | _ + 1, [] => pure []
  | count + 1, ban :: rest =>
    match ServiceId.ofBinary ban.serviceId with
    | .ok id => (id :: ·) <$> firstBanned count rest
    | .error e => do
      .warn s!"skipping unreadable entry of the ban list: {e.message}"
      firstBanned (count + 1) rest

namespace GroupClient

variable {ε : Type} (client : GroupClient)

def target (id : ServiceId) : Sealed.Target :=
  { userId := (client.keys.sealIdentity id).toList }

/-- How many entries of a ban list have to make room for more. -/
def spacesToFree (bans : List Ban) (more : Nat) : Nat :=
  bans.length + more - client.config.maxBans

/-- Bans identities, and refuses the join requests of accounts among them if asked to. -/
def ban (ids : List ServiceId) (refuse : Bool) (bans : List Ban) : Noted ε Sealed.Actions := do
  let evicted ← firstBanned (client.spacesToFree bans ids.length) (oldestFirst bans)
  return {
    liftedBans := evicted.map client.target
    refusedRequests := if refuse then (ids.filter (·.isAci)).map client.target else []
    newBans := ids.map fun id => { added := some { userId := (client.target id).userId } } }

def unban (ids : List ServiceId) : Sealed.Actions :=
  { liftedBans := ids.map client.target }

end GroupClient

end SealedGroups
