import SealedGroups.Group.Lookup
import SealedGroups.Samples
import Mathlib.Logic.Function.Basic

/-!
# Identities are matched by their bytes

Plaintext records hold identities in the binary form, ciphertexts hide them in the fixed-width form.
Each codec reads what it writes and nothing else, and what it refuses is refused for the reason that
its length gives (`ServiceId.codecs_exact`). So an identity has one spelling in each of the forms,
and whoever compares stored bytes compares identities: a look at the bytes finds the entry that is
read as the person sought (`Snapshot.invite?_eq`).

The forms do not mean the same by a first byte. In the fixed-width form it marks every identity, in
the binary form phone number identities only, so that seventeen bytes that begin with the mark of an
account are an account in one form and nobody in the other. Otherwise the two read the same identity
in the same bytes, and refuse the same (`ServiceId.ofFixedWidth_eq`).
-/

namespace SealedGroups

namespace ServiceId

variable {bytes : Bytes} {id : ServiceId} {uuid : Uuid} {e : Error}

theorem toBinary_injective : Function.Injective toBinary := by
  intro id other same
  have read := ofBinary_toBinary id
  rw [same, ofBinary_toBinary] at read
  exact (Except.ok.inj read).symm

/-- Bytes hold an identity if they are its binary form. -/
theorem toOption_ofBinary_eq_some_iff :
    (ofBinary bytes).toOption = some id ↔ id.toBinary = bytes := by
  rw [← ofBinary_eq_ok_iff]
  cases ofBinary bytes <;> simp [Except.toOption]

/-! ### What is refused -/

/-- Why bytes are refused that are the binary form of nobody. -/
def refusal (bytes : Bytes) : Error :=
  if bytes.length = 0 then .empty
  else if bytes.length = 17 then .unknownKind (bytes.headD 0)
  else .invalidLength bytes.length

theorem ofBinary_of_nobody (nobody : ∀ id : ServiceId, bytes ≠ id.toBinary) :
    ofBinary bytes = .error (refusal bytes) := by
  have noAccount : Octets.ofList? 16 bytes = none :=
    Octets.ofList?_eq_none_iff.2 fun sized => nobody (.aci ⟨bytes, sized⟩) rfl
  cases bytes with
  | nil => rfl
  | cons kind rest =>
    simp only [ofBinary, noAccount]
    by_cases sized : rest.length = 16
    · -- seventeen bytes that begin with the kind of a phone number identity would be one
      have unmarked : kind ≠ pniKind := by
        rintro rfl
        exact nobody (.pni ⟨rest, sized⟩) rfl
      simp [Octets.ofList?, refusal, sized, unmarked]
    · simp [Octets.ofList?, refusal, sized]

/-- Bytes are refused if they are the binary form of nobody, and their length tells the reason. -/
theorem ofBinary_eq_error_iff :
    ofBinary bytes = .error e ↔ (∀ id : ServiceId, bytes ≠ id.toBinary) ∧ refusal bytes = e := by
  constructor
  · intro refused
    have nobody : ∀ id : ServiceId, bytes ≠ id.toBinary := by
      rintro id rfl
      rw [ofBinary_toBinary] at refused
      cases refused
    exact ⟨nobody, Except.error.inj ((ofBinary_of_nobody nobody).symm.trans refused)⟩
  · rintro ⟨nobody, rfl⟩
    exact ofBinary_of_nobody nobody

/-! ### Accounts -/

theorem aciOfBinary_eq_ok_iff :
    aciOfBinary bytes = .ok uuid ↔ ofBinary bytes = .ok (.aci uuid) := by
  unfold aciOfBinary
  split <;> simp_all

/-- Where an account is expected, a phone number identity is refused as such and all else as it is
anywhere. -/
theorem aciOfBinary_eq_error_iff : aciOfBinary bytes = .error e ↔
    ((∃ uuid, ofBinary bytes = .ok (.pni uuid)) ∧ .notAnAci = e) ∨ ofBinary bytes = .error e := by
  unfold aciOfBinary
  split <;> simp_all

/-! ### The two forms -/

/-- What is read in the fixed-width form is what is read in the binary form, but for the mark of an
account, which the binary form does not have. -/
theorem ofFixedWidth_eq (bytes : Octets 17) :
    ofFixedWidth bytes = if bytes.toList.headD 0 = aciKind then ofBinary bytes.toList.tail
      else ofBinary bytes.toList := by
  obtain ⟨_ | ⟨kind, rest⟩, sized⟩ := bytes
  · cases sized
  have rest_sized : rest.length = 16 := Nat.succ.inj sized
  change (if kind = aciKind then Except.ok (aci ⟨rest, rest_sized⟩)
      else if kind = pniKind then .ok (pni ⟨rest, rest_sized⟩)
      else .error (.unknownKind kind)) =
    if kind = aciKind then ofBinary rest else ofBinary (kind :: rest)
  -- what follows the kind of an account is its binary form
  by_cases account : kind = aciKind
  · rw [if_pos account, if_pos account]
    exact (ofBinary_toBinary (.aci ⟨rest, rest_sized⟩)).symm
  · rw [if_neg account, if_neg account]
    simp [ofBinary, Octets.ofList?, rest_sized]

/-- Each codec reads what it writes and nothing else. What the binary codec refuses is refused for
the reason that its length gives, the fixed-width codec reads and refuses as the binary one does,
but for the mark of an account, and where an account is expected no phone number identity is
accepted. So bytes that hold identities are the same exactly if the identities are. -/
theorem codecs_exact :
    (∀ bytes (id : ServiceId), ofBinary bytes = .ok id ↔ bytes = id.toBinary)
      ∧ (∀ bytes e, ofBinary bytes = .error e ↔
        (∀ id : ServiceId, bytes ≠ id.toBinary) ∧ refusal bytes = e)
      ∧ (∀ bytes (id : ServiceId), ofFixedWidth bytes = .ok id ↔ bytes = id.toFixedWidth)
      ∧ (∀ bytes : Octets 17, ofFixedWidth bytes =
        if bytes.toList.headD 0 = aciKind then ofBinary bytes.toList.tail
        else ofBinary bytes.toList)
      ∧ (∀ bytes uuid, aciOfBinary bytes = .ok uuid ↔ bytes = (aci uuid).toBinary)
      ∧ (∀ bytes e, aciOfBinary bytes = .error e ↔
        ((∃ uuid, bytes = (pni uuid).toBinary) ∧ .notAnAci = e) ∨ ofBinary bytes = .error e)
      ∧ ∀ bytes bytes' id id', ofBinary bytes = .ok id → ofBinary bytes' = .ok id' →
        (bytes = bytes' ↔ id = id') := by
  have accepted : ∀ bytes (id : ServiceId), ofBinary bytes = .ok id ↔ bytes = id.toBinary :=
    fun bytes id => ofBinary_eq_ok_iff.trans eq_comm
  refine ⟨accepted, ?_, ?_, ofFixedWidth_eq, ?_, ?_, ?_⟩
  · intro bytes e
    exact ofBinary_eq_error_iff
  · intro bytes id
    exact ofFixedWidth_eq_ok_iff.trans eq_comm
  · intro bytes uuid
    exact aciOfBinary_eq_ok_iff.trans (accepted bytes (aci uuid))
  · intro bytes e
    simp only [aciOfBinary_eq_error_iff, accepted]
  · intro bytes bytes' id id' read read'
    rw [(accepted bytes id).1 read, (accepted bytes' id').1 read']
    exact toBinary_injective.eq_iff

/-- A phone number identity begins with sixteen bytes that are an account. -/
theorem codecs_exact_overlapping :
    let phone := Sample.pni 5
    let account := phone.take 16
    ofBinary phone = .ok (pni (Sample.uuid 5))
      ∧ ofBinary account = .ok (aci ⟨account, rfl⟩)
      ∧ phone ≠ account
      ∧ aciOfBinary phone = .error .notAnAci
      ∧ ofFixedWidth ⟨phone, rfl⟩ = .ok (pni (Sample.uuid 5))
      ∧ ofBinary (List.replicate 17 7) = .error (.unknownKind 7) := by
  intro phone account
  obtain ⟨accepted, refused, -, forms, -, accountRefused, same⟩ := codecs_exact
  have read : ofBinary phone = .ok (pni (Sample.uuid 5)) := (accepted _ _).2 rfl
  have read' : ofBinary account = .ok (aci ⟨account, rfl⟩) := (accepted _ _).2 rfl
  refine ⟨read, read', ?_, ?_, ?_, ?_⟩
  · -- the one is a prefix of the other, but an account is no phone number identity
    intro overlap
    cases (same _ _ _ _ read read').1 overlap
  · exact (accountRefused _ _).2 (Or.inl ⟨⟨Sample.uuid 5, rfl⟩, rfl⟩)
  · exact (forms ⟨phone, rfl⟩).trans read
  · refine (refused _ _).2 ⟨?_, rfl⟩
    rintro (uuid | uuid) same
    · exact absurd (congrArg List.length same) (by simp [toBinary])
    · exact absurd (congrArg List.head? same) (by simp [toBinary, pniKind])

/-! ### Looking someone up -/

/-- Whether bytes are those of an identity is whether they hold it. -/
theorem beq_toBinary (bytes : Bytes) (id : ServiceId) :
    (bytes == id.toBinary) = ((ofBinary bytes).toOption == some id) := by
  rw [Bool.eq_iff_iff, beq_iff_eq, beq_iff_eq, toOption_ofBinary_eq_some_iff, eq_comm]

end ServiceId

namespace Snapshot

variable (group : Snapshot) (aci : Uuid)

/-- Who is looked up by bytes is found in the first entry that is read as the identity. -/
theorem invite?_eq (id : ServiceId) : group.invite? id =
    group.invites.find? fun entry => (ServiceId.ofBinary entry.invitee).toOption == some id := by
  simp only [← ServiceId.beq_toBinary]
  rfl

theorem member?_eq : group.member? aci =
    group.members.find? fun entry =>
      (ServiceId.ofBinary entry.aci).toOption == some (.aci aci) := by
  simp only [← ServiceId.beq_toBinary]
  rfl

theorem request?_eq : group.request? aci =
    group.requests.find? fun entry =>
      (ServiceId.ofBinary entry.aci).toOption == some (.aci aci) := by
  simp only [← ServiceId.beq_toBinary]
  rfl

end Snapshot

end SealedGroups
