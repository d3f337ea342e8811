import SealedGroups.Group.Change
import SealedGroups.Proofs.WireRecords
import SealedGroups.Sealed.Actions

/-!
# The records that are exchanged

Every record type that is exchanged is in the `schema`, those of the server and those in plaintext,
and each of them survives encoding: what was written is read again, also by a reader that knows
fewer fields than the writer (`read_of_padded`). For most types there is nothing to show but that
their slots have different tags; `AttributeBlob` has the one slot that is like no other.
-/

namespace SealedGroups

open Wire (Record)

/-! ### Slots of their own -/

section

variable {depth tag : Nat}

instance : (Role.slot tag).Lawful depth := .wrap (fun _ => rfl) fun _ => rfl

instance : (Access.slot tag).Lawful depth := .wrap (fun _ => rfl) fun _ => rfl

instance : (Announcements.slot tag).Lawful depth := .wrap (fun _ => rfl) fun _ => rfl

instance : Attribute.slot.Lawful depth :=
  .of_single fun content => by
    cases content with
    | none => exact Or.inl ⟨rfl, rfl⟩
    | some content =>
      cases content with
      | title text =>
        refine Or.inr ⟨_, rfl, ⟨⟨by simp [Attribute.slot], nofun⟩, fun _ _ => ?_⟩⟩
        exact congrArg (Option.map _) (ofUtf8?_utf8 text)
      | avatar picture => exact Or.inr ⟨_, rfl, ⟨⟨by simp [Attribute.slot], nofun⟩, fun _ _ => rfl⟩⟩
      | timer duration =>
        refine Or.inr ⟨_, rfl, ⟨⟨by simp [Attribute.slot], nofun⟩, fun _ _ => ?_⟩⟩
        exact congrArg (fun duration => some (some (Attribute.timer duration)))
          (UInt32.toUInt32_toUInt64 duration)
      | description text =>
        refine Or.inr ⟨_, rfl, ⟨⟨by simp [Attribute.slot], nofun⟩, fun _ _ => ?_⟩⟩
        exact congrArg (Option.map _) (ofUtf8?_utf8 text)

end

/-! ### Record types -/

section

variable {depth : Nat}

/-! In plaintext. -/

instance : Record.Lawful depth Member where
instance : Record.Lawful depth Invite where
instance : Record.Lawful depth JoinRequest where
instance : Record.Lawful depth Ban where
instance : Record.Lawful depth AccessRules where
instance : Record.Lawful depth Timer where
instance : Record.Lawful depth Text where
instance : Record.Lawful depth RoleChange where
instance : Record.Lawful depth Approval where
instance : Record.Lawful depth Revocation where
instance : Record.Lawful depth JoinInfo where
instance : Record.Lawful (depth + 1) Snapshot where
instance : Record.Lawful (depth + 1) Change where

/-! As the server stores them. -/

instance : Record.Lawful depth AttributeBlob where
instance : Record.Lawful depth Sealed.Member where
instance : Record.Lawful depth Sealed.JoinRequest where
instance : Record.Lawful depth Sealed.Ban where
instance : Record.Lawful depth Sealed.JoinInfo where
instance : Record.Lawful depth Sealed.SignedChange where
instance : Record.Lawful (depth + 1) Sealed.Invite where
instance : Record.Lawful (depth + 2) Sealed.Group where

/-! As they are sent to the server. -/

instance : Record.Lawful depth Sealed.Target where
instance : Record.Lawful depth Sealed.RoleGrant where
instance : Record.Lawful depth Sealed.Identity where
instance : Record.Lawful depth Sealed.PniIdentity where
instance : Record.Lawful depth Sealed.Title where
instance : Record.Lawful depth Sealed.Avatar where
instance : Record.Lawful depth Sealed.Timer where
instance : Record.Lawful depth Sealed.AttributesAccess where
instance : Record.Lawful depth Sealed.MembersAccess where
instance : Record.Lawful depth Sealed.InviteLinkAccess where
instance : Record.Lawful depth Sealed.LinkPassword where
instance : Record.Lawful depth Sealed.Description where
instance : Record.Lawful depth Sealed.AnnouncementsOnly where
instance : Record.Lawful (depth + 1) Sealed.AddMember where
instance : Record.Lawful (depth + 1) Sealed.AddRequest where
instance : Record.Lawful (depth + 1) Sealed.AddBan where
instance : Record.Lawful (depth + 2) Sealed.AddInvite where
instance : Record.Lawful (depth + 3) Sealed.Actions where

end

/-- A type whose values are exchanged. -/
structure Message where
  Value : Type
  [record : Record Value]

attribute [instance] Message.record

/-- All record types that are exchanged. -/
def schema : List Message := [
  ⟨Member⟩, ⟨Invite⟩, ⟨JoinRequest⟩, ⟨Ban⟩, ⟨AccessRules⟩, ⟨Timer⟩, ⟨Text⟩, ⟨RoleChange⟩,
  ⟨Approval⟩,
  ⟨Revocation⟩, ⟨JoinInfo⟩, ⟨Snapshot⟩, ⟨Change⟩, ⟨AttributeBlob⟩, ⟨Sealed.Member⟩, ⟨Sealed.Invite⟩,
  ⟨Sealed.JoinRequest⟩, ⟨Sealed.Ban⟩, ⟨Sealed.Group⟩, ⟨Sealed.SignedChange⟩, ⟨Sealed.JoinInfo⟩,
  ⟨Sealed.Target⟩, ⟨Sealed.RoleGrant⟩, ⟨Sealed.Identity⟩, ⟨Sealed.PniIdentity⟩, ⟨Sealed.Title⟩,
  ⟨Sealed.Avatar⟩, ⟨Sealed.Timer⟩, ⟨Sealed.AttributesAccess⟩, ⟨Sealed.MembersAccess⟩,
  ⟨Sealed.InviteLinkAccess⟩, ⟨Sealed.LinkPassword⟩, ⟨Sealed.Description⟩,
  ⟨Sealed.AnnouncementsOnly⟩, ⟨Sealed.AddMember⟩, ⟨Sealed.AddInvite⟩, ⟨Sealed.AddRequest⟩,
  ⟨Sealed.AddBan⟩, ⟨Sealed.Actions⟩]

theorem lawful_of_mem_schema : ∀ message ∈ schema, Record.Lawful Record.nesting message.Value := by
  unfold schema Record.nesting
  repeat refine List.forall_mem_cons.2 ⟨inferInstance, ?_⟩
  exact List.forall_mem_nil _

/-- Whatever record is written, it is read again, also if fields of tags that its type does not have
stand between its fields. That it is `short` holds of all bytes a machine can store: the lengths of
what a record nests are numbers of 64 bits. -/
theorem read_of_padded {message : Message} (declared : message ∈ schema) (value : message.Value)
    (short : (Record.write value).length < UInt64.size) :
    Record.read? (Record.write value) = some value
      ∧ ∀ bytes, Wire.Padded (Record.tags message.Value) (Record.fields value) bytes →
        Record.read? bytes = some value := by
  have lawful := lawful_of_mem_schema message declared
  refine ⟨Record.mergeBytes_write (Nat.le_refl _) short, ?_⟩
  intro bytes padded
  exact Record.mergeBytes_of_padded (Nat.le_refl _) short padded

namespace Sample

/-- A change with values that are easily lost: an empty entry of a list, an empty text that is
set, and a number for a state that nobody declared. -/
def oddChange : Change where
  removedMembers := [[], [1]]
  title := some {}
  announcements := ⟨-1⟩

theorem fields_oddChange : Record.fields oddChange =
    [⟨4, .bytes []⟩, ⟨4, .bytes [1]⟩, ⟨10, .bytes []⟩, ⟨21, .varint 0xffffffffffffffff⟩] := by
  rfl

theorem write_oddChange : Record.write oddChange = [
    34, 0, 34, 1, 1, 82, 0, 168, 1, 255, 255, 255, 255, 255, 255, 255, 255, 255, 1] := by
  rw [Record.write_eq, fields_oddChange]
  simp [Wire.writeFields, Wire.Field.write, Wire.writeKey, Wire.Varint.write]

/-- Two fields of later versions: a number spelled in more bytes than it needs, and two bytes. -/
theorem spells_later :
    Wire.Field.Spells ⟨1000, .varint 5⟩ [0xC0, 0x3E, 0x85, 0x00]
      ∧ Wire.Field.Spells ⟨25, .bytes [9, 9]⟩ [0xCA, 0x01, 2, 9, 9] := by
  -- two bytes spell a number if the first is marked and the last is not
  have number : ∀ (b c : UInt8) {value : Nat}, 128 ≤ b.toNat → c.toNat < 128 →
      b.toNat - 128 + 128 * c.toNat = value → value < UInt64.size →
      Wire.Varint.WellFormed [b, c] value := by
    rintro b c _ marked unmarked rfl small
    exact ⟨.more marked (.last unmarked), Nat.le_add_left 2 8, small⟩
  constructor
  · have key := number 0xC0 0x3E (by decide) (by decide) rfl (by decide)
    have five := number 0x85 0x00 (by decide) (by decide) rfl (by decide)
    have spells : Wire.Field.Spells ⟨1000, .varint 5⟩ ([0xC0, 0x3E] ++ [0x85, 0x00]) :=
      .intro (by decide) (by decide) key (.varint five)
    exact spells
  · have key := number 0xCA 0x01 (by decide) (by decide) rfl (by decide)
    have two : Wire.Varint.WellFormed [2] 2 := ⟨.last (by decide), by decide, by decide⟩
    have spells : Wire.Field.Spells ⟨25, .bytes [9, 9]⟩ ([0xCA, 0x01] ++ ([2] ++ [9, 9])) :=
      .intro (by decide) (by decide) key (.bytes two)
    exact spells

/-- The change with the two fields in between and behind. -/
def paddedChange : Bytes := [
  34, 0, 0xC0, 0x3E, 0x85, 0x00, 34, 1, 1, 82, 0, 168, 1, 255, 255, 255, 255, 255, 255, 255, 255,
  255, 1, 0xCA, 0x01, 2, 9, 9]

theorem padded_paddedChange :
    Wire.Padded (Record.tags Change) (Record.fields oddChange) paddedChange := by
  obtain ⟨first, last⟩ := spells_later
  -- the undeclared fields stand before the first and after the last of the others
  have padded : Wire.Padded (Record.tags Change)
      [⟨4, .bytes []⟩, ⟨4, .bytes [1]⟩, ⟨10, .bytes []⟩, ⟨21, .varint 0xffffffffffffffff⟩] _ :=
    .own _ <| .foreign (by decide) first <| .own _ <| .own _ <| .own _ <|
      .foreign (by decide) last .nil
  rw [fields_oddChange]
  simpa [paddedChange, Wire.Field.write, Wire.writeKey, Wire.Varint.write] using padded

/-- The change is read from what is written and from bytes with more fields in them. -/
theorem read_of_padded_sample :
    Record.read? (Record.write oddChange) = some oddChange
      ∧ Record.read? paddedChange = some oddChange := by
  have declared : (⟨Change⟩ : Message) ∈ schema := List.mem_of_getElem? (i := 12) rfl
  have short : (Record.write oddChange).length < UInt64.size := by
    rw [write_oddChange]
    decide
  obtain ⟨written, padded⟩ := read_of_padded declared oddChange short
  exact ⟨written, padded paddedChange padded_paddedChange⟩

end Sample

end SealedGroups
