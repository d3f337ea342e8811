import SealedGroups.Wire.Record

/-!
# Roles and rights

Roles, rights and the announcement state are numbers on the wire. Some numbers are declared and have
a name; a record may hold any other number too, written by a newer client, and keeps it. Such a
number counts as unknown where a meaning is asked for (`declared`).
-/

namespace SealedGroups

/-- What a member may do. -/
structure Role where
  code : Int32
deriving DecidableEq

namespace Role

def unknown : Role := ⟨0⟩

def normal : Role := ⟨1⟩

def administrator : Role := ⟨2⟩

/-- The role, or unknown if its number has no name. -/
def declared (role : Role) : Role :=
  if role = normal ∨ role = administrator then role else unknown

/-- Whether a full member can hold the role. -/
def isHeld (role : Role) : Bool :=
  role.declared != unknown

def slot (tag : Nat) : Wire.Slot Role :=
  (Wire.Slot.int32 tag).wrap mk code

end Role

/-- Who has a right. -/
structure Access where
  code : Int32
deriving DecidableEq

namespace Access

def unknown : Access := ⟨0⟩

def anyone : Access := ⟨1⟩

def member : Access := ⟨2⟩

def administrator : Access := ⟨3⟩

def unsatisfiable : Access := ⟨4⟩

/-- The right, or unknown if its number has no name. -/
def declared (access : Access) : Access :=
  if access = anyone ∨ access = member ∨ access = administrator ∨ access = unsatisfiable
  then access else unknown

/-- Whether a change to this right says anything. -/
def isSet (access : Access) : Bool :=
  access.declared != unknown

def slot (tag : Nat) : Wire.Slot Access :=
  (Wire.Slot.int32 tag).wrap mk code

end Access

/-- Whether only administrators may write. -/
structure Announcements where
  code : Int32
deriving DecidableEq

namespace Announcements

def unknown : Announcements := ⟨0⟩

def enabled : Announcements := ⟨1⟩

def disabled : Announcements := ⟨2⟩

def ofBool (announcementsOnly : Bool) : Announcements :=
  if announcementsOnly then enabled else disabled

/-- The state, or unknown if its number has no name. -/
def declared (state : Announcements) : Announcements :=
  if state = enabled ∨ state = disabled then state else unknown

/-- Whether a change to this state says anything. -/
def isSet (state : Announcements) : Bool :=
  state.declared != unknown

def slot (tag : Nat) : Wire.Slot Announcements :=
  (Wire.Slot.int32 tag).wrap mk code

end Announcements

end SealedGroups
