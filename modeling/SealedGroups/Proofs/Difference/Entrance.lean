import SealedGroups.Group.Difference
import SealedGroups.Proofs.Identity
import SealedGroups.Proofs.Step.Frame
import Mathlib.Data.List.Nodup

/-!
# Which snapshots a change leads between, and how members come in

A change can be inferred from two snapshots that are well formed, and comparable: what no change can
say must not differ. Every member of the later one has then come in in exactly one way
(`members_perm`).
-/

namespace SealedGroups

/-! ### Which snapshots are meant -/

/-- What holds of a snapshot that a server sends. -/
structure Snapshot.WellFormed (group : Snapshot) : Prop where
  once : group.OneStanding
  member_length : ∀ member ∈ group.members, member.aci.length = 16
  requester_length : ∀ request ∈ group.requests, request.aci.length = 16
  role_declared : ∀ member ∈ group.members, member.role = .normal ∨ member.role = .administrator
  pni_length : ∀ member ∈ group.members, member.pni ≠ [] → member.pni.length = 17
  pni_distinct : ((group.members.map (·.pni)).filter fun pni => !pni.isEmpty).Nodup
  pni_not_invited : ∀ member ∈ group.members, member.pni ≠ [] → member.pni ∉ group.invitees

/-- Rights that a change can give a group that has the others: each of them is as before or has a
name, and not all of them are unset if there were none. -/
structure AccessRules.CanFollow (new : AccessRules) (old : Option AccessRules) : Prop where
  attributes : (old.getD {}).attributes = new.attributes ∨ new.attributes.isSet = true
  members : (old.getD {}).members = new.members ∨ new.members.isSet = true
  inviteLink : (old.getD {}).inviteLink = new.inviteLink ∨ new.inviteLink.isSet = true
  some_set : old.isSome = true ∨ new.attributes.isSet = true ∨ new.members.isSet = true
    ∨ new.inviteLink.isSet = true

/-- What a change can lead from one snapshot to the other. -/
structure Comparable (old new : Snapshot) : Prop where
  same_invite : ∀ i ∈ old.invites, ∀ j ∈ new.invites, i.ciphertext = j.ciphertext → i = j
  same_member : ∀ m ∈ old.members, ∀ n ∈ new.members,
    m.aci = n.aci → m.joinedAt = n.joinedAt ∧ m.pni = n.pni
  same_ban : ∀ a ∈ old.bans, ∀ b ∈ new.bans, a.serviceId = b.serviceId → a.timestamp = b.timestamp
  /-- An approval cannot say that the new member accepted an invite to a phone number identity. -/
  requester_pni : ∀ member ∈ new.members, member.aci ∉ old.memberAcis →
    member.aci ∈ old.requesters → member.pni = [] ∨ member.pni ∈ old.invitees
  timer : old.timer = new.timer ∨ new.timer.isSome = true
  access : old.access = new.access ∨ ∃ rules, new.access = some rules ∧ rules.CanFollow old.access
  linkPassword : old.linkPassword = new.linkPassword ∨ new.linkPassword ≠ []
  announcements : old.announcements = new.announcements ∨ new.announcements.isSet = true

/-- Whether two snapshots say the same, whatever the order of their entries is. -/
structure Snapshot.SameUpToOrder (first second : Snapshot) : Prop where
  bare : first.bare = second.bare
  members : first.members.Perm second.members
  invites : first.invites.Perm second.invites
  requests : first.requests.Perm second.requests
  bans : first.bans.Perm second.bans

theorem Snapshot.WellFormed.role_held {group : Snapshot} (h : group.WellFormed) {member : Member}
    (mem : member ∈ group.members) : member.role.isHeld = true := by
  rcases h.role_declared member mem with normal | administrator
  · rw [normal]
    decide
  · rw [administrator]
    decide

/-- A role that members have is granted as it is. -/
theorem Approval.granted_of_held {entry : Approval} (held : entry.role.isHeld = true) :
    entry.granted = entry.role := by
  apply if_neg
  intro unknown
  rw [unknown] at held
  exact absurd held (by decide)

/-! ### Lists up to order -/

section

variable {α : Type}

/-- Entries of a list with distinct keys are the list up to order if their keys are. -/
theorem perm_of_keys {key : α → Bytes} {first second : List α} (distinct : (second.map key).Nodup)
    (keys : (first.map key).Perm (second.map key)) (mem : ∀ a ∈ first, a ∈ second) :
    first.Perm second := by
  have distinct_first := (keys.nodup_iff).2 distinct
  apply (List.perm_ext_iff_of_nodup distinct_first.of_map distinct.of_map).2
  intro a
  constructor
  · exact mem a
  · intro there
    -- whoever has the key is in the first list as well, and is the same in the second
    obtain ⟨b, hb, same⟩ := List.mem_map.1 (keys.mem_iff.2 (List.mem_map_of_mem there))
    have eq : b = a := List.inj_on_of_nodup_map distinct (mem b hb) there same
    exact eq ▸ hb

theorem filterMap_map_sublist {β γ : Type} {f : α → Option β} {about : β → γ} {key : α → γ}
    (h : ∀ a b, f a = some b → about b = key a) (entries : List α) :
    ((entries.filterMap f).map about).Sublist (entries.map key) := by
  induction entries with
  | nil => exact List.Sublist.refl _
  | cons a rest ih =>
    cases made : f a with
    | none =>
      rw [List.filterMap_cons_none made]
      exact ih.cons _
    | some b =>
      rw [List.filterMap_cons_some made, List.map_cons, List.map_cons, h a b made]
      exact ih.cons_cons _

/-- What stays of a list and what is new make up the list that is to come. -/
theorem perm_of_stays {β : Type} {key : α → β} {old new stays added : List α}
    (hold : (old.map key).Nodup) (hnew : (new.map key).Nodup)
    (same : ∀ a ∈ old, ∀ b ∈ new, key a = key b → a = b)
    (stays_sublist : stays.Sublist old) (mem_stays : ∀ a, a ∈ stays ↔ a ∈ old ∧ key a ∈ new.map key)
    (added_sublist : added.Sublist new)
    (mem_added : ∀ a, a ∈ added ↔ a ∈ new ∧ key a ∉ old.map key) :
    (stays ++ added).Perm new := by
  have distinct : (stays ++ added).Nodup := by
    apply (stays_sublist.nodup hold.of_map).append (added_sublist.nodup hnew.of_map)
    -- who stayed has an old key, who came has a new one
    intro a stayed came
    exact ((mem_added a).1 came).2 (List.mem_map_of_mem (stays_sublist.subset stayed))
  apply (List.perm_ext_iff_of_nodup distinct hnew.of_map).2
  intro a
  rw [List.mem_append, mem_stays, mem_added]
  constructor
  · rintro (⟨there, known⟩ | ⟨mem, -⟩)
    · obtain ⟨b, hb, eq⟩ := List.mem_map.1 known
      rwa [same a there b hb eq.symm]
    · exact mem
  · intro mem
    by_cases known : key a ∈ old.map key
    · -- an old key: the entry has stayed, and is the same on both sides
      obtain ⟨b, hb, eq⟩ := List.mem_map.1 known
      have eq : b = a := same b hb a mem eq
      exact Or.inl ⟨eq ▸ hb, List.mem_map_of_mem mem⟩
    · exact Or.inr ⟨mem, known⟩

variable [BEq α] [LawfulBEq α]

theorem filter_contains_perm {a b : List α} (ha : a.Nodup) (hb : b.Nodup) :
    (a.filter b.contains).Perm (b.filter a.contains) := by
  apply (List.perm_ext_iff_of_nodup (ha.filter _) (hb.filter _)).2
  intro x
  simp only [List.mem_filter, List.contains_iff_mem, and_comm]

end

/-! ### How a member came in -/

namespace Change

variable {old new : Snapshot} {member : Member}

theorem entrance_of_mem {old : Snapshot} (new : Snapshot) {member : Member}
    (there : member.aci ∈ old.memberAcis) :
    ∃ previous ∈ old.members, previous.aci = member.aci
      ∧ entrance old new member = .stayed previous := by
  unfold entrance
  cases found : old.members.find? (·.aci == member.aci) with
  | none =>
    obtain ⟨previous, mem, same⟩ := List.mem_map.1 there
    exact absurd (beq_iff_eq.2 same) (List.find?_eq_none.1 found previous mem)
  | some previous =>
    exact ⟨previous, List.mem_of_find?_eq_some found, by simpa using List.find?_some found, rfl⟩

theorem entrance_of_not_mem (absent : member.aci ∉ old.memberAcis) :
    entrance old new member =
      if member.aci ∈ old.invitees then .acceptedInvite
      else if member.pni ≠ [] ∧ member.pni ∈ old.invitees then .acceptedPniInvite
      else if (∃ request ∈ old.requests, request.aci = member.aci
          ∧ request.profileKey = member.profileKey) ∧ member.joinedAt = new.revision then .approved
      else .added := by
  -- nobody of the name was a member, so the three tests that follow decide
  have none : old.members.find? (·.aci == member.aci) = none := by
    apply List.find?_eq_none.2
    intro previous mem fit
    exact absent (List.mem_map.2 ⟨previous, mem, beq_iff_eq.1 fit⟩)
  have invited : (old.invites.any (·.invitee == member.aci)) = true ↔ member.aci ∈ old.invitees :=
    any_key_iff
  have byPni : (!member.pni.isEmpty && old.invites.any (·.invitee == member.pni)) = true ↔
      member.pni ≠ [] ∧ member.pni ∈ old.invitees := by
    rw [Bool.and_eq_true, any_key_iff]
    simp [Snapshot.invitees]
  have approved : (old.requests.any fun request => request.aci == member.aci
      && request.profileKey == member.profileKey && member.joinedAt == new.revision) = true ↔
      (∃ request ∈ old.requests, request.aci = member.aci
        ∧ request.profileKey = member.profileKey) ∧ member.joinedAt = new.revision := by
    simp only [List.any_eq_true, Bool.and_eq_true, beq_iff_eq]
    constructor
    · rintro ⟨request, mem, ⟨aci, key⟩, joined⟩
      exact ⟨⟨request, mem, aci, key⟩, joined⟩
    · rintro ⟨⟨request, mem, aci, key⟩, joined⟩
      exact ⟨request, mem, ⟨aci, key⟩, joined⟩
  unfold entrance
  simp only [none, invited, byPni, approved]

/-- Whoever stayed was a member before. -/
theorem mem_of_entrance {previous : Member} (stayed : entrance old new member = .stayed previous) :
    member.aci ∈ old.memberAcis := by
  by_cases there : member.aci ∈ old.memberAcis
  · exact there
  · rw [entrance_of_not_mem there] at stayed
    split_ifs at stayed

/-- The members of the later snapshot whose requests were approved. -/
def approvedMembers (old new : Snapshot) : List Member :=
  new.members.filter fun m => entrance old new m matches .approved

/-- The members of the later snapshot who were members before. -/
def stayedMembers (old new : Snapshot) : List Member :=
  new.members.filter fun m => entrance old new m matches .stayed _

theorem stayed_iff : (entrance old new member matches .stayed _) = true ↔
    member.aci ∈ old.memberAcis := by
  by_cases there : member.aci ∈ old.memberAcis
  · obtain ⟨previous, -, -, stayed⟩ := entrance_of_mem new there
    simp [stayed, there]
  · rw [entrance_of_not_mem there]
    split_ifs <;> simp [there]

theorem stayedMembers_acis (old new : Snapshot) :
    (stayedMembers old new).map (·.aci) = new.memberAcis.filter old.memberAcis.contains := by
  unfold stayedMembers Snapshot.memberAcis
  rw [List.filter_map]
  congr 1
  apply List.filter_congr
  intro m _
  rw [Bool.eq_iff_iff, stayed_iff]
  exact List.contains_iff_mem.symm

theorem of_mem_newMembers (h : member ∈ (between old new).newMembers) :
    member ∈ new.members ∧ member.aci ∉ old.memberAcis ∧ member.aci ∉ old.invitees := by
  obtain ⟨mem, came⟩ := List.mem_filter.1 h
  by_cases there : member.aci ∈ old.memberAcis
  · obtain ⟨previous, -, -, stayed⟩ := entrance_of_mem new there
    rw [stayed] at came
    cases came
  · rw [entrance_of_not_mem there] at came
    -- of the four ways in only the last one is an addition
    split_ifs at came with invited
    exact ⟨mem, there, invited⟩

theorem mem_acceptedInvites : member ∈ (between old new).acceptedInvites ↔ member ∈ new.members
    ∧ member.aci ∉ old.memberAcis ∧ member.aci ∈ old.invitees := by
  simp only [between, List.mem_filter]
  apply and_congr_right'
  by_cases there : member.aci ∈ old.memberAcis
  · obtain ⟨previous, -, -, stayed⟩ := entrance_of_mem new there
    simp [stayed, there]
  · -- whoever came in did so by the first of four ways whose test they pass
    rw [entrance_of_not_mem there]
    split_ifs <;> simp_all

theorem mem_acceptedPniInvites :
    member ∈ (between old new).acceptedPniInvites ↔ member ∈ new.members
      ∧ member.aci ∉ old.memberAcis ∧ member.aci ∉ old.invitees
      ∧ member.pni ≠ [] ∧ member.pni ∈ old.invitees := by
  simp only [between, List.mem_filter]
  apply and_congr_right'
  by_cases there : member.aci ∈ old.memberAcis
  · obtain ⟨previous, -, -, stayed⟩ := entrance_of_mem new there
    simp [stayed, there]
  · rw [entrance_of_not_mem there]
    split_ifs <;> simp_all

theorem of_mem_approvedMembers (h : member ∈ approvedMembers old new) :
    member ∈ new.members ∧ member.aci ∉ old.memberAcis
      ∧ ¬ (member.pni ≠ [] ∧ member.pni ∈ old.invitees)
      ∧ (∃ request ∈ old.requests, request.aci = member.aci
        ∧ request.profileKey = member.profileKey) ∧ member.joinedAt = new.revision := by
  obtain ⟨mem, came⟩ := List.mem_filter.1 h
  by_cases there : member.aci ∈ old.memberAcis
  · obtain ⟨previous, -, -, stayed⟩ := entrance_of_mem new there
    rw [stayed] at came
    cases came
  · rw [entrance_of_not_mem there] at came
    split_ifs at came with invited byPni approved
    exact ⟨mem, there, byPni, approved⟩

private theorem count_filter_eq {keep : Member → Bool} (members : List Member) (member : Member) :
    (members.filter keep).count member = if keep member then members.count member else 0 := by
  by_cases kept : keep member = true
  · rw [if_pos kept, List.count_filter kept]
  · rw [if_neg kept]
    apply List.count_eq_zero.2
    intro mem
    exact kept (List.of_mem_filter mem)

/-- Everyone in the later snapshot came in in one way. -/
theorem members_perm (old new : Snapshot) :
    new.members.Perm (stayedMembers old new ++ (between old new).newMembers
      ++ (between old new).acceptedInvites ++ approvedMembers old new
      ++ (between old new).acceptedPniInvites) := by
  apply List.perm_iff_count.2
  intro member
  simp only [stayedMembers, approvedMembers, between, List.count_append, count_filter_eq]
  cases entrance old new member <;> simp

end Change

end SealedGroups
