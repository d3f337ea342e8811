import SealedGroups.Client.Attributes
import SealedGroups.Sealed.Actions

/-!
# Changing settings

Actions that change attributes, rights and the invite link. Nothing is compared with the state of
the group. Title, description and timer are encrypted under a fresh nonce; all else is sent as it
is.
-/

namespace SealedGroups.GroupClient

def sealAttribute (client : GroupClient) (content : Attribute) (rng : Random) :
    Except ClientError Bytes × Random :=
  let (blob, rng) := client.keys.sealAttribute content rng
  (blob.mapError .sealing, rng)

def changeTitle (client : GroupClient) (title : String) (rng : Random) :
    Except ClientError Sealed.Actions × Random :=
  let (blob, rng) := client.sealAttribute (.title title) rng
  (blob.map fun content => { title := some { content } }, rng)

def changeDescription (client : GroupClient) (description : String) (rng : Random) :
    Except ClientError Sealed.Actions × Random :=
  let (blob, rng) := client.sealAttribute (.description description) rng
  (blob.map fun content => { description := some { content } }, rng)

def changeTimer (client : GroupClient) (duration : UInt32) (rng : Random) :
    Except ClientError Sealed.Actions × Random :=
  let (blob, rng) := client.sealAttribute (.timer duration) rng
  (blob.map fun content => { timer := some { content } }, rng)

end SealedGroups.GroupClient

namespace SealedGroups.Sealed.Actions

/-- Sets the place where the encrypted picture is stored. -/
def changeAvatar (location : String) : Actions :=
  { avatar := some { location } }

def changeLinkPassword (password : Bytes) : Actions :=
  { linkPassword := some { password } }

def changeLinkAccess (access : Access) : Actions :=
  { inviteLinkAccess := some { access } }

def changeLinkPasswordAndAccess (password : Bytes) (access : Access) : Actions :=
  { changeLinkPassword password with
    inviteLinkAccess := (changeLinkAccess access).inviteLinkAccess }

def changeMembersAccess (access : Access) : Actions :=
  { membersAccess := some { access } }

def changeAttributesAccess (access : Access) : Actions :=
  { attributesAccess := some { access } }

def changeAnnouncements (announcementsOnly : Bool) : Actions :=
  { announcementsOnly := some { announcementsOnly } }

end SealedGroups.Sealed.Actions
