import SealedGroups.Proofs.Difference.Members

/-!
# The inferred invites and acceptances

Of the earlier invites those are left that the later snapshot has, since every other one has been
revoked, or accepted by the invitee or by the account behind the invited phone number identity.
-/

namespace SealedGroups

namespace Change

variable {old new : Snapshot} {member : Member}

theorem run_newInvites (hold : old.WellFormed) (hnew : new.WellFormed)
    (comparable : Comparable old new) {group : Snapshot}
    (members : group.members = withProfileKeys old new) (invites : group.invites = old.invites) :
    group.run ((between old new).newInvites.map .invite) =
      .ok { group with invites := old.invites ++ (between old new).newInvites } := by
  apply Snapshot.run_eq_ok_iff.2
  constructor
  · apply Snapshot.admits_invites
    -- who is invited is no member of the new snapshot, and so none by now
    intro entry mem named member
    have invited : entry.invitee ∈ new.invitees :=
      List.mem_map_of_mem (List.mem_of_mem_filter mem)
    apply hnew.once.invitee_not_member named invited
    rw [Snapshot.memberAcis, members] at member
    obtain ⟨m, hm, same⟩ := List.mem_map.1 member
    exact List.mem_map.2 ⟨m, mem_members_of_mem_withProfileKeys hold hnew comparable hm, same⟩
  · have fresh : (group.ciphertexts ++ (between old new).newInvites.map (·.ciphertext)).Nodup := by
      rw [Snapshot.ciphertexts, invites]
      apply hold.once.ciphertexts.append ((List.filter_sublist.map _).nodup hnew.once.ciphertexts)
      intro ciphertext there new
      obtain ⟨invite, mem, rfl⟩ := List.mem_map.1 new
      have unknown := List.of_mem_filter mem
      exact not_any_key_iff.1 unknown there
    rw [Snapshot.after_invites fresh, invites]

/-- Whether an invite was taken back, and not accepted. -/
def Revokes (old new : Snapshot) (invite : Invite) : Prop :=
  invite.ciphertext ∉ new.ciphertexts
    ∧ ¬ (invite.invitee ≠ [] ∧ invite.invitee ∈ new.memberAcis)
    ∧ invite.invitee ∉ (between old new).acceptedPniInvites.map (·.pni)

theorem mem_revokedInvites {ciphertext : Bytes} :
    ciphertext ∈ (between old new).revokedInvites.map (·.ciphertext) ↔
      ∃ invite ∈ old.invites, Revokes old new invite ∧ invite.ciphertext = ciphertext := by
  have revokes : ∀ invite : Invite,
      (!new.invites.any (·.ciphertext == invite.ciphertext)
        && !(!invite.invitee.isEmpty && new.members.any (·.aci == invite.invitee))
        && !(between old new).acceptedPniInvites.any (·.pni == invite.invitee)) = true ↔
        Revokes old new invite := by
    intro invite
    simp only [Bool.and_eq_true, Bool.not_eq_true', ← Bool.not_eq_true, any_key_iff, and_assoc,
      Revokes, Snapshot.ciphertexts, Snapshot.memberAcis]
    simp
  have entries : (between old new).revokedInvites.map (·.ciphertext) =
      (old.invites.filter fun invite =>
        (!new.invites.any (·.ciphertext == invite.ciphertext)
        && !(!invite.invitee.isEmpty && new.members.any (·.aci == invite.invitee))
        && !(between old new).acceptedPniInvites.any (·.pni == invite.invitee))).map
          (·.ciphertext) := by
    change List.map _ (List.map _ _) = _
    rw [List.map_map]
    rfl
  rw [entries]
  simp only [List.mem_map, List.mem_filter, revokes, and_assoc]

/-- The earlier invites that were not taken back. -/
def notRevoked (old new : Snapshot) : List Invite :=
  old.invites.filter fun invite =>
    !((between old new).revokedInvites.map (·.ciphertext)).contains invite.ciphertext

theorem mem_notRevoked (hold : old.WellFormed) {invite : Invite} :
    invite ∈ notRevoked old new ↔ invite ∈ old.invites ∧ ¬ Revokes old new invite := by
  rw [notRevoked, List.mem_filter, not_contains_iff, mem_revokedInvites]
  apply and_congr_right
  intro mem
  apply not_congr
  constructor
  · -- a ciphertext is that of one invite, so the test of it is the test of the invite
    rintro ⟨other, hother, revoked, same⟩
    rwa [List.inj_on_of_nodup_map hold.once.ciphertexts hother mem same] at revoked
  · intro revoked
    exact ⟨invite, mem, revoked, rfl⟩

theorem run_revokedInvites (hold : old.WellFormed) {group : Snapshot}
    (invites : group.invites = old.invites ++ (between old new).newInvites) :
    group.run ((between old new).revokedInvites.map .revoke) =
      .ok { group with invites := notRevoked old new ++ (between old new).newInvites } := by
  have entries : ((between old new).revokedInvites.map (·.ciphertext)).Sublist old.ciphertexts := by
    change (List.map _ (List.map _ _)).Sublist _
    rw [List.map_map]
    exact List.filter_sublist.map _
  apply Snapshot.run_eq_ok_iff.2
  constructor
  · exact Snapshot.admits_of_always fun _ _ => trivial
  · rw [Snapshot.after_revokes, invites,
      foldl_eraseP_append (entries.nodup hold.once.ciphertexts)]
    · rfl
    · intro ciphertext mem
      exact List.count_eq_one_of_mem hold.once.ciphertexts (entries.subset mem)

/-- The earlier invites that were neither taken back nor accepted by the invitee. -/
def notAccepted (old new : Snapshot) : List Invite :=
  (notRevoked old new).filter fun invite =>
    !((between old new).acceptedInvites.map (·.aci)).contains invite.invitee

theorem aci_ne_nil (h : new.WellFormed) (mem : member ∈ new.members) : member.aci ≠ [] := by
  intro empty
  have length := h.member_length member mem
  rw [empty] at length
  cases length

/-- An invite of someone readable that is among the earlier ones is there once. -/
theorem count_invitee_eq_one (hold : old.WellFormed) {invites : List Invite}
    (sub : invites.Sublist old.invites) {id : Bytes} (named : id ≠ [])
    (there : ∃ invite ∈ invites, invite.invitee = id) : (invites.map (·.invitee)).count id = 1 := by
  have most : (invites.map (·.invitee)).count id ≤ 1 :=
    Nat.le_trans ((sub.map _).count_le id) (hold.once.invitee named)
  have least : 0 < (invites.map (·.invitee)).count id := by
    obtain ⟨invite, mem, same⟩ := there
    exact List.count_pos_iff.2 (List.mem_map.2 ⟨invite, mem, same⟩)
  omega

theorem run_acceptedInvites (hold : old.WellFormed) (hnew : new.WellFormed) {group : Snapshot}
    (invites : group.invites = notRevoked old new ++ (between old new).newInvites) :
    group.run ((between old new).acceptedInvites.map .accept) =
      .ok { group with
        members := group.members ++ (between old new).acceptedInvites
        invites := notAccepted old new ++ (between old new).newInvites } := by
  have distinct : ((between old new).acceptedInvites.map (·.aci)).Nodup :=
    (List.filter_sublist.map _).nodup hnew.once.members
  have there : ∀ m ∈ (between old new).acceptedInvites,
      ∃ invite ∈ notRevoked old new, invite.invitee = m.aci := by
    -- the invite that is accepted was not revoked, as its invitee became a member
    intro m mem
    obtain ⟨hm, -, invited⟩ := mem_acceptedInvites.1 mem
    obtain ⟨invite, hinvite, same⟩ := List.mem_map.1 invited
    refine ⟨invite, (mem_notRevoked hold).2 ⟨hinvite, ?_⟩, same⟩
    intro revoked
    exact revoked.2.1 ⟨same ▸ aci_ne_nil hnew hm, same ▸ List.mem_map_of_mem hm⟩
  apply Snapshot.run_eq_ok_iff.2
  constructor
  · apply Snapshot.admits_accepts distinct
    intro m mem
    obtain ⟨invite, hinvite, same⟩ := there m mem
    rw [Snapshot.invitees, invites]
    exact List.mem_map.2 ⟨invite, List.mem_append_left _ hinvite, same⟩
  · rw [Snapshot.after_accepts, invites, foldl_eraseP_append distinct]
    · rfl
    · intro aci accepted
      obtain ⟨m, mem, rfl⟩ := List.mem_map.1 accepted
      exact count_invitee_eq_one hold List.filter_sublist
        (aci_ne_nil hnew (mem_acceptedInvites.1 mem).1) (there m mem)

/-- The earlier invites that were neither taken back nor accepted. -/
def notPniAccepted (old new : Snapshot) : List Invite :=
  (notAccepted old new).filter fun invite =>
    !((between old new).acceptedPniInvites.map (·.pni)).contains invite.invitee

theorem run_acceptedPniInvites (hold : old.WellFormed) (hnew : new.WellFormed) {group : Snapshot}
    (invites : group.invites = notAccepted old new ++ (between old new).newInvites) :
    group.run ((between old new).acceptedPniInvites.map .acceptPni) =
      .ok { group with
        members := group.members ++ (between old new).acceptedPniInvites
        invites := notPniAccepted old new ++ (between old new).newInvites } := by
  have distinct : ((between old new).acceptedPniInvites.map (·.pni)).Nodup := by
    have readable :
        ((between old new).acceptedPniInvites.map (·.pni)).filter (fun pni => !pni.isEmpty) =
          (between old new).acceptedPniInvites.map (·.pni) := by
      apply List.filter_eq_self.2
      intro pni accepted
      obtain ⟨m, mem, rfl⟩ := List.mem_map.1 accepted
      simpa using (mem_acceptedPniInvites.1 mem).2.2.2.1
    rw [← readable]
    exact ((List.filter_sublist.map _).filter _).nodup hnew.pni_distinct
  have there : ∀ m ∈ (between old new).acceptedPniInvites,
      ∃ invite ∈ notAccepted old new, invite.invitee = m.pni := by
    intro m mem
    obtain ⟨hm, -, -, named, invited⟩ := mem_acceptedPniInvites.1 mem
    obtain ⟨invite, hinvite, same⟩ := List.mem_map.1 invited
    -- an invite that was taken by phone number is not reported as revoked
    have stays : invite ∈ notRevoked old new := by
      refine (mem_notRevoked hold).2 ⟨hinvite, ?_⟩
      intro revoked
      exact revoked.2.2 (same ▸ List.mem_map_of_mem mem)
    refine ⟨invite, List.mem_filter.2 ⟨stays, ?_⟩, same⟩
    rw [not_contains_iff]
    intro accepted
    -- accounts have another length than phone number identities
    obtain ⟨other, hother, eq⟩ := List.mem_map.1 accepted
    have short := hnew.member_length other (mem_acceptedInvites.1 hother).1
    have long := hnew.pni_length m hm named
    rw [eq, same, long] at short
    cases short
  apply Snapshot.run_eq_ok_iff.2
  constructor
  · apply Snapshot.admits_pniAccepts distinct
    intro m mem
    obtain ⟨invite, hinvite, same⟩ := there m mem
    rw [Snapshot.invitees, invites]
    exact List.mem_map.2 ⟨invite, List.mem_append_left _ hinvite, same⟩
  · rw [Snapshot.after_pniAccepts, invites, foldl_eraseP_append distinct]
    · rfl
    · intro pni accepted
      obtain ⟨m, mem, rfl⟩ := List.mem_map.1 accepted
      exact count_invitee_eq_one hold (List.filter_sublist.trans List.filter_sublist)
        (mem_acceptedPniInvites.1 mem).2.2.2.1 (there m mem)

/-- Of the earlier invites those are left that the later snapshot has. -/
theorem mem_notPniAccepted (hold : old.WellFormed) (hnew : new.WellFormed)
    (comparable : Comparable old new) {i : Invite} :
    i ∈ notPniAccepted old new ↔ i ∈ old.invites ∧ i.ciphertext ∈ new.ciphertexts := by
  simp only [notPniAccepted, notAccepted, List.mem_filter, mem_notRevoked hold, and_assoc,
    not_contains_iff]
  apply and_congr_right
  intro hi
  constructor
  · rintro ⟨notRevoked, notAccepted, notByPni⟩
    by_contra gone
    apply notRevoked
    -- nobody else took it, so its ciphertext would have been revoked
    refine ⟨gone, ?_, notByPni⟩
    rintro ⟨named, member⟩
    obtain ⟨n, hn, same⟩ := List.mem_map.1 member
    have invited : i.invitee ∈ old.invitees := List.mem_map_of_mem hi
    apply notAccepted
    rw [← same]
    apply List.mem_map_of_mem
    apply mem_acceptedInvites.2
    rw [same]
    exact ⟨hn, hold.once.invitee_not_member named invited, invited⟩
  · intro there
    obtain ⟨j, hj, ciphertext⟩ := List.mem_map.1 there
    -- an invite that is still there is the same one, and its invitee no member yet
    have same : i = j := comparable.same_invite i hi j hj ciphertext.symm
    have invited : i.invitee ∈ new.invitees := same ▸ List.mem_map_of_mem hj
    refine ⟨fun revoked => revoked.1 there, ?_, ?_⟩
    · intro accepted
      obtain ⟨m, mem, eq⟩ := List.mem_map.1 accepted
      have hm := (mem_acceptedInvites.1 mem).1
      have named : i.invitee ≠ [] := eq ▸ aci_ne_nil hnew hm
      exact hnew.once.invitee_not_member named invited (eq ▸ List.mem_map_of_mem hm)
    · intro accepted
      obtain ⟨m, mem, eq⟩ := List.mem_map.1 accepted
      obtain ⟨hm, -, -, named, -⟩ := mem_acceptedPniInvites.1 mem
      exact hnew.pni_not_invited m hm named (eq ▸ invited)

theorem invites_perm (hold : old.WellFormed) (hnew : new.WellFormed)
    (comparable : Comparable old new) :
    (notPniAccepted old new ++ (between old new).newInvites).Perm new.invites := by
  apply perm_of_stays hold.once.ciphertexts hnew.once.ciphertexts comparable.same_invite
  · exact List.filter_sublist.trans (List.filter_sublist.trans List.filter_sublist)
  · intro i
    exact mem_notPniAccepted hold hnew comparable
  · exact List.filter_sublist
  · intro i
    simp only [between, List.mem_filter, not_any_key_iff]

end Change

end SealedGroups
