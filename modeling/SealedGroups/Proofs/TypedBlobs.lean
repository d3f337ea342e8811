import SealedGroups.Proofs.Attributes
import SealedGroups.Samples

/-!
# A blob holds one attribute of one kind

Title, picture, timer and description are read by one function each, and these differ in three
things only: the name in the notes, the values that are looked for, and the value of an attribute
that was never set. They are gathered in `Attribute.Kind`, so that one argument serves for all four.

A blob holds an attribute if it is what a message that is decoded as the attribute encrypts to
(`Keyring.Holds`). By its own function the attribute is read as what it is, also if it is empty or
zero, and by the three others as never set. No bytes fail to be read, but all that is read from them
other than what was never set is what they hold (`Keyring.openKind_sealed`).
-/

namespace SealedGroups

/-- Ahead of its content a field has a key and a length, of ten bytes each at most. -/
theorem Wire.length_write_bytes_le {tag : Nat} {content : Bytes} (small : tag < 8)
    (short : content.length < UInt64.size) :
    (writeFields [⟨tag, .bytes content⟩]).length ≤ content.length + 20 := by
  have bounded : 8 * tag + 2 < UInt64.size :=
    Nat.lt_of_lt_of_le (show 8 * tag + 2 < 66 by omega) (by decide)
  have key := (Varint.wellFormed_write bounded).short
  have length := (Varint.wellFormed_write short).short
  have written : writeFields [⟨tag, .bytes content⟩] =
      Varint.write (8 * tag + 2) ++ Varint.write content.length ++ content ++ [] := rfl
  simp only [written, List.length_append, List.length_nil]
  omega

/-! ### Kinds of attributes -/

namespace Attribute

/-- The attributes that a group has. -/
inductive Kind where
  | title
  | avatar
  | timer
  | description
deriving DecidableEq

namespace Kind

/-- What attributes of a kind are set to. -/
def Value : Kind → Type
  | .title => String
  | .avatar => Bytes
  | .timer => UInt32
  | .description => String

/-- The name in the notes. -/
def name : Kind → String
  | .title => "title"
  | .avatar => "avatar"
  | .timer => "timer"
  | .description => "description"

/-- What is read if the attribute was never set. -/
def unset : (kind : Kind) → kind.Value
  | .title => ("" : String)
  | .avatar => ([] : Bytes)
  | .timer => (0 : UInt32)
  | .description => ("" : String)

/-- The attribute of the kind that has a value. -/
def content : (kind : Kind) → kind.Value → Attribute
  | .title, text => .title text
  | .avatar, picture => .avatar picture
  | .timer, duration => .timer duration
  | .description, text => .description text

/-- The value, if an attribute is of the kind. -/
def select : (kind : Kind) → Attribute → Option kind.Value
  | .title => fun | .title text => some text | _ => none
  | .avatar => fun | .avatar picture => some picture | _ => none
  | .timer => fun | .timer duration => some duration | _ => none
  | .description => fun | .description text => some text | _ => none

theorem select_eq_some_iff {kind : Kind} {found : Attribute} {value : kind.Value} :
    kind.select found = some value ↔ found = kind.content value := by
  constructor
  · intro selected
    cases kind <;> cases found <;> cases selected <;> rfl
  · rintro rfl
    cases kind <;> rfl

theorem select_content_of_ne {kind other : Kind} (differs : other ≠ kind) (value : kind.Value) :
    other.select (kind.content value) = none := by
  cases kind <;> cases other <;> first | rfl | exact absurd rfl differs

end Kind

/-- How many bytes an attribute has of its own. -/
def size : Attribute → Nat
  | .title text => (utf8 text).length
  | .avatar picture => picture.length
  | .timer _ => 0
  | .description text => (utf8 text).length

/-- The cipher takes attributes of almost 256 GiB. -/
theorem fits_of_size {content : Attribute} (small : content.size + 84 < 64 * UInt32.size) :
    content.fits := by
  -- a text or a path is one field of bytes, and these three kinds differ by the tag alone
  have field {tag : Nat} {bytes : Bytes} (known : tag < 8)
      (small : bytes.length + 84 < 64 * UInt32.size) :
      Aead.fits (Wire.writeFields [⟨tag, .bytes bytes⟩]) = true := by
    have short : bytes.length < UInt64.size :=
      Nat.lt_trans (Nat.lt_of_le_of_lt (Nat.le_add_right _ 84) small) (by decide)
    have written := Wire.length_write_bytes_le known short
    simp only [Aead.fits, UInt32.size, decide_eq_true_eq] at small ⊢
    omega
  cases content with
  | title text => exact field (by decide) small
  | avatar picture => exact field (by decide) small
  | timer duration => exact fits_timer duration
  | description text => exact field (by decide) small

end Attribute

/-! ### Reading by kind -/

open Attribute (Kind)

namespace Keyring

variable {ε : Type} {keys : Keyring} {blob : Bytes} {kind : Kind}

/-- The function that reads attributes of a kind. -/
def openKind (keys : Keyring) : (kind : Kind) → Bytes → Noted ε kind.Value
  | .title => keys.openTitle
  | .avatar => keys.openAvatar
  | .timer => keys.openTimer
  | .description => keys.openDescription

theorem openKind_eq (kind : Kind) (blob : Bytes) :
    (keys.openKind kind blob : Noted ε _) = keys.openAs kind.name kind.select kind.unset blob := by
  cases kind <;> rfl

theorem openKind_of_holds {value : kind.Value} (held : keys.Holds blob (kind.content value)) :
    (keys.openKind kind blob : Noted ε _) = pure value := by
  rw [openKind_eq, openAs, openAttribute_of_holds held, pure_bind]
  simp only [Kind.select_eq_some_iff.2 rfl]

theorem openKind_of_holds_other {value : kind.Value} (held : keys.Holds blob (kind.content value))
    {other : Kind} (differs : other ≠ kind) :
    (keys.openKind other blob : Noted ε _) = do
      .warn s!"{other.name} blob holds another attribute"
      return other.unset := by
  rw [openKind_eq, openAs, openAttribute_of_holds held, pure_bind]
  simp only [Kind.select_content_of_ne differs]

/-- What is read is held by the blob, or stands for an attribute that was never set. -/
theorem outcome_openKind (keys : Keyring) (kind : Kind) (blob : Bytes) :
    ∃ value, (keys.openKind kind blob : Noted ε _).outcome = .ok value
      ∧ (value = kind.unset ∨ keys.Holds blob (kind.content value)) := by
  obtain ⟨found, read, held⟩ := outcome_openAttribute (ε := ε) kind.name blob
  rw [openKind_eq, openAs, Noted.outcome_bind, read]
  cases found with
  | none => exact ⟨_, rfl, Or.inl rfl⟩
  | some found =>
    cases selected : kind.select found with
    | none => exact ⟨kind.unset, by simp [bind, Except.bind, selected], Or.inl rfl⟩
    | some value =>
      refine ⟨value, by simp [bind, Except.bind, selected], Or.inr ?_⟩
      exact held _ (congrArg some (Kind.select_eq_some_iff.1 selected))

/-- Other than what was never set, all that is read is what the blob holds. -/
theorem openKind_eq_ok_iff {value : kind.Value} (given : value ≠ kind.unset) :
    (keys.openKind kind blob : Noted ε _).outcome = .ok value ↔
      keys.Holds blob (kind.content value) := by
  constructor
  · intro read
    obtain ⟨found, read', source⟩ := outcome_openKind (ε := ε) keys kind blob
    obtain rfl : found = value := Except.ok.inj (read'.symm.trans read)
    exact source.resolve_left given
  · intro held
    rw [openKind_of_holds held]
    rfl

/-- Whatever an attribute is set to, it is encrypted unless it is enormous, and read as what it is
by the function of its kind and as never set by the others. All bytes are read as an attribute of
every kind, and what is read other than what was never set is what they hold. -/
theorem openKind_sealed (ε : Type) (keys : Keyring) :
    (∀ (kind : Kind) (value : kind.Value) (rng : Random),
      (∃ blob, (keys.sealAttribute (kind.content value) rng).1 = .ok blob
          ∧ (keys.openKind kind blob : Noted ε _) = pure value
          ∧ ∀ other, other ≠ kind → (keys.openKind other blob : Noted ε _) = do
            .warn s!"{other.name} blob holds another attribute"
            return other.unset)
        ∨ ((keys.sealAttribute (kind.content value) rng).1 = .error (.aead .encrypt)
          ∧ 64 * UInt32.size ≤ (kind.content value).size + 84))
      ∧ ∀ (kind : Kind) (blob : Bytes),
        (∃ value, (keys.openKind kind blob : Noted ε _).outcome = .ok value)
          ∧ ∀ value, value ≠ kind.unset →
            ((keys.openKind kind blob : Noted ε _).outcome = .ok value ↔
              keys.Holds blob (kind.content value)) := by
  constructor
  · intro kind value rng
    -- sealing fails for one reason, that the content is too long for the cipher
    by_cases fits : (kind.content value).fits = true
    · obtain ⟨blob, made⟩ := (exists_sealAttribute_iff keys _ rng).2 fits
      have held := holds_of_sealAttribute made
      exact Or.inl ⟨blob, made, openKind_of_holds held, fun _ => openKind_of_holds_other held⟩
    · refine Or.inr ⟨sealAttribute_of_not_fits fits rng, ?_⟩
      exact Nat.not_lt.1 fun small => fits (Attribute.fits_of_size small)
  · intro kind blob
    obtain ⟨value, read, -⟩ := outcome_openKind (ε := ε) keys kind blob
    exact ⟨⟨value, read⟩, fun _ => openKind_eq_ok_iff⟩

end Keyring

/-! ### An empty title, and one that is not -/

namespace Sample

def attributeRandom : Random where
  seed := .replicate 32 5

/-- An empty title is not taken for a timer that is zero. -/
theorem openKind_sealed_title :
    (∃ blob, (groupKeys.sealAttribute (.title "") attributeRandom).1 = .ok blob
        ∧ (groupKeys.openTitle blob : Noted ClientError _) = pure ""
        ∧ (groupKeys.openTimer blob : Noted ClientError _) = do
          .warn "timer blob holds another attribute"
          return 0)
      ∧ ∃ blob, (groupKeys.sealAttribute (.title "Climbing") attributeRandom).1 = .ok blob
        ∧ groupKeys.Holds blob (.title "Climbing") := by
  obtain ⟨made, read⟩ := groupKeys.openKind_sealed ClientError
  constructor
  · obtain ⟨blob, made, opened, others⟩ | ⟨-, enormous⟩ := made .title "" attributeRandom
    · exact ⟨blob, made, opened, others .timer (by decide)⟩
    · exact absurd enormous (by decide)
  · obtain ⟨blob, made, opened, -⟩ | ⟨-, enormous⟩ := made .title "Climbing" attributeRandom
    · have given : ("Climbing" : String) ≠ "" := by decide
      have outcome := congrArg Noted.outcome opened
      exact ⟨blob, made, ((read .title blob).2 "Climbing" given).1 outcome⟩
    · exact absurd enormous (by decide)

end Sample

end SealedGroups
