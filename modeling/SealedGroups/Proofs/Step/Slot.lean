import SealedGroups.Proofs.Step.Effect
import Mathlib.Data.List.Nodup

/-!
# What the entries of one slot do together

The steps of a change come in runs of one kind. Here is what such a run does to a group, list by
list, and when it can be performed: steps of one kind do not get in each other's way as long as they
are about different people (`admits_of_stable`).
-/

namespace SealedGroups

namespace Snapshot

/-! ### What a run of one kind does -/

/-- New members join at the end, and leave their invites and requests. -/
theorem after_adds {group : Snapshot} {new : List Member}
    (fresh : (group.memberAcis ++ new.map (·.aci)).Nodup) :
    group.after (new.map .add) =
      { group with
        members := group.members ++ new
        invites := group.invites.filter fun invite => !new.any (·.aci == invite.invitee)
        requests := group.requests.filter fun request => !new.any (·.aci == request.aci) } := by
  induction new generalizing group with
  | nil =>
    rw [List.filter_eq_self.2 (by simp), List.filter_eq_self.2 (by simp), List.append_nil]
    rfl
  | cons member rest ih =>
    rw [List.map_cons, List.append_cons] at fresh
    -- whoever comes next is not there yet, not even among those who came before
    have placed : placeMember group.members member = group.members ++ [member] :=
      if_neg (not_any_key_of_nodup fresh)
    have keys : ((Step.add member).effect group).memberAcis = group.memberAcis ++ [member.aci] := by
      rw [memberAcis, Step.effect, Step.onMembers, placed, List.map_append]
      rfl
    rw [List.map_cons, after_cons, ih (keys ▸ fresh)]
    simp only [Step.effect, Step.onMembers, Step.onInvites, Step.onRequests, Step.onBans,
      Step.onAttributes, placed, List.filter_filter, List.any_cons, Bool.not_or, bne, Bool.and_comm,
      List.append_assoc, List.singleton_append]

theorem after_removes (group : Snapshot) (acis : List Bytes) :
    group.after (acis.map .remove) =
      { group with
        members := acis.foldl
          (fun members aci => members.eraseP (·.aci == aci)) group.members } := by
  induction acis generalizing group with
  | nil => rfl
  | cons aci rest ih => exact ih _

theorem after_changeRoles (group : Snapshot) (entries : List RoleChange) :
    group.after (entries.map .changeRole) =
      { group with
        members := entries.foldl (fun members entry =>
          modifyFirst (·.aci == entry.aci) ({ · with role := entry.role }) members)
          group.members } := by
  induction entries generalizing group with
  | nil => rfl
  | cons entry rest ih => exact ih _

theorem after_changeProfileKeys (group : Snapshot) (entries : List Member) :
    group.after (entries.map .changeProfileKey) =
      { group with
        members := entries.foldl (fun members entry =>
          modifyFirst (·.aci == entry.aci) ({ · with profileKey := entry.profileKey }) members)
          group.members } := by
  induction entries generalizing group with
  | nil => rfl
  | cons entry rest ih => exact ih _

/-- Invites under new ciphertexts are put at the end. -/
theorem after_invites {group : Snapshot} {new : List Invite}
    (fresh : (group.ciphertexts ++ new.map (·.ciphertext)).Nodup) :
    group.after (new.map .invite) = { group with invites := group.invites ++ new } := by
  induction new generalizing group with
  | nil => rw [List.append_nil]; rfl
  | cons invite rest ih =>
    rw [List.map_cons, List.append_cons] at fresh
    have made : (Step.invite invite).effect group =
        { group with invites := group.invites ++ [invite] } := by
      rw [Step.effect, Step.onInvites, if_neg (not_any_key_of_nodup fresh)]
      rfl
    have keys : ((Step.invite invite).effect group).ciphertexts =
        group.ciphertexts ++ [invite.ciphertext] := by
      rw [made, ciphertexts, List.map_append]
      rfl
    rw [List.map_cons, after_cons, ih (keys ▸ fresh), made]
    simp only [List.append_assoc, List.singleton_append]

theorem after_revokes (group : Snapshot) (entries : List Revocation) :
    group.after (entries.map .revoke) =
      { group with
        invites := (entries.map (·.ciphertext)).foldl
          (fun invites ciphertext => invites.eraseP (·.ciphertext == ciphertext))
          group.invites } := by
  induction entries generalizing group with
  | nil => rfl
  | cons entry rest ih => exact ih _

theorem after_accepts (group : Snapshot) (members : List Member) :
    group.after (members.map .accept) =
      { group with
        members := group.members ++ members
        invites := (members.map (·.aci)).foldl
          (fun invites id => invites.eraseP (·.invitee == id)) group.invites } := by
  induction members generalizing group with
  | nil => rw [List.append_nil]; rfl
  | cons member rest ih =>
    rw [List.append_cons]
    exact ih _

theorem after_requests (group : Snapshot) (entries : List JoinRequest) :
    group.after (entries.map .request) = { group with requests := group.requests ++ entries } := by
  induction entries generalizing group with
  | nil => rw [List.append_nil]; rfl
  | cons entry rest ih =>
    rw [List.append_cons]
    exact ih _

theorem after_refusals (group : Snapshot) (acis : List Bytes) :
    group.after (acis.map .refuse) =
      { group with
        requests := acis.foldl (fun requests aci => requests.eraseP (·.aci == aci))
          group.requests } := by
  induction acis generalizing group with
  | nil => rfl
  | cons aci rest ih => exact ih _

/-- Approvals of different accounts all look at the requests as they are at first. -/
theorem after_approvals {group : Snapshot} (revision : UInt32) {entries : List Approval}
    (distinct : (entries.map (·.aci)).Nodup) :
    group.after (entries.map (.approve revision)) =
      { group with
        members := group.members ++ entries.flatMap fun entry =>
          ((group.requests.find? (·.aci == entry.aci)).map (entry.toMember revision)).toList
        requests := (entries.map (·.aci)).foldl
          (fun requests aci => requests.eraseP (·.aci == aci)) group.requests } := by
  induction entries generalizing group with
  | nil =>
    rw [List.flatMap_nil, List.append_nil]
    rfl
  | cons entry rest ih =>
    rw [List.map_cons, List.nodup_cons] at distinct
    -- the requests of the others are still found when the first one is gone
    have found : ∀ other ∈ rest,
        (group.requests.eraseP (·.aci == entry.aci)).find? (·.aci == other.aci) =
          group.requests.find? (·.aci == other.aci) := by
      intro other hother
      apply find_eraseP_of_ne
      intro same
      exact distinct.1 (same ▸ List.mem_map_of_mem hother)
    have admitted : (rest.flatMap fun other =>
        (((group.requests.eraseP (·.aci == entry.aci)).find? (·.aci == other.aci)).map
          (other.toMember revision)).toList) =
        rest.flatMap fun other =>
          ((group.requests.find? (·.aci == other.aci)).map (other.toMember revision)).toList := by
      apply List.flatMap_congr
      intro other hother
      rw [found other hother]
    rw [List.map_cons, after_cons, ih distinct.2]
    -- both sides are spelled out now, but for the requests that the others are found among
    simp only [Step.effect, Step.onMembers, Step.onInvites, Step.onRequests, Step.onBans,
      Step.onAttributes, List.flatMap_cons, List.append_assoc, List.map_cons, List.foldl_cons]
    rw [admitted]

/-- Bans of identities that are not banned yet are put at the end, whoever else is banned twice. -/
theorem after_bans {group : Snapshot} {new : List Ban} (distinct : (new.map (·.serviceId)).Nodup)
    (fresh : ∀ id ∈ new.map (·.serviceId), id ∉ group.banned) :
    group.after (new.map .ban) = { group with bans := group.bans ++ new } := by
  induction new generalizing group with
  | nil => rw [List.append_nil]; rfl
  | cons ban rest ih =>
    rw [List.map_cons, List.nodup_cons] at distinct
    have unknown : ¬ group.bans.any (·.serviceId == ban.serviceId) = true :=
      mt any_key_iff.1 (fresh ban.serviceId List.mem_cons_self)
    have made : (Step.ban ban).effect group = { group with bans := group.bans ++ [ban] } := by
      rw [Step.effect, Step.onBans, if_neg unknown]
      rfl
    -- the next bans are not among those made before them either
    have stillFresh : ∀ id ∈ rest.map (·.serviceId), id ∉ ((Step.ban ban).effect group).banned := by
      intro id mem known
      rw [made, banned, List.map_append] at known
      rcases List.mem_append.1 known with old | last
      · exact fresh id (List.mem_cons_of_mem _ mem) old
      · rw [List.mem_singleton.1 last] at mem
        exact distinct.1 mem
    rw [List.map_cons, after_cons, ih distinct.2 stillFresh, made]
    simp only [List.append_assoc, List.singleton_append]

theorem after_liftedBans (group : Snapshot) (entries : List Ban) :
    group.after (entries.map .liftBan) =
      { group with
        bans := (entries.map (·.serviceId)).foldl
          (fun bans id => bans.eraseP (·.serviceId == id)) group.bans } := by
  induction entries generalizing group with
  | nil => rfl
  | cons entry rest ih => exact ih _

theorem after_pniAccepts (group : Snapshot) (members : List Member) :
    group.after (members.map .acceptPni) =
      { group with
        members := group.members ++ members
        invites := (members.map (·.pni)).foldl
          (fun invites id => invites.eraseP (·.invitee == id)) group.invites } := by
  induction members generalizing group with
  | nil => rw [List.append_nil]; rfl
  | cons member rest ih =>
    rw [List.append_cons]
    exact ih _

/-! ### When a run of one kind can be performed -/

section

variable {α : Type} {step : α → Step} {group : Snapshot} {entries : List α}

/-- Steps of one kind can be performed if each is ready at first and none gets in the way of
another. -/
theorem admits_of_stable (ready : ∀ a ∈ entries, (step a).ready group)
    (stable : entries.Pairwise fun a b =>
      ∀ group, (step b).ready group → (step b).ready ((step a).effect group)) :
    group.admits (entries.map step) := by
  induction entries generalizing group with
  | nil => exact trivial
  | cons a rest ih =>
    obtain ⟨keeps, stable⟩ := List.pairwise_cons.1 stable
    refine ⟨ready a List.mem_cons_self, ih ?_ stable⟩
    intro b hb
    -- the step that is taken leaves the later ones ready
    exact keeps b hb group (ready b (List.mem_cons_of_mem _ hb))

theorem admits_of_unaffected (ready : ∀ a ∈ entries, (step a).ready group)
    (unaffected : ∀ a b group, (step b).ready group → (step b).ready ((step a).effect group)) :
    group.admits (entries.map step) :=
  admits_of_stable ready (List.pairwise_of_forall unaffected)

theorem admits_of_always (always : ∀ a group, (step a).ready group) :
    group.admits (entries.map step) :=
  admits_of_unaffected (fun a _ => always a group) fun _ b _ _ => always b _

/-- Steps that each use up an entry can be performed if they use different ones. -/
theorem admits_of_used {keys : Snapshot → List Bytes} {key : α → Bytes}
    (ready_iff : ∀ a group, (step a).ready group ↔ key a ∈ keys group)
    (uses : ∀ a group, keys ((step a).effect group) = (keys group).erase (key a))
    (distinct : (entries.map key).Nodup) (there : ∀ a ∈ entries, key a ∈ keys group) :
    group.admits (entries.map step) := by
  apply admits_of_stable
  · intro a mem
    exact (ready_iff a group).2 (there a mem)
  · refine (List.pairwise_map.1 distinct).imp ?_
    intro a b ne group ready
    rw [ready_iff, uses]
    exact (List.mem_erase_of_ne (Ne.symm ne)).2 ((ready_iff b group).1 ready)

end

theorem admits_removes {group : Snapshot} {acis : List Bytes} (distinct : acis.Nodup)
    (there : ∀ aci ∈ acis, aci ∈ group.memberAcis) : group.admits (acis.map .remove) := by
  rw [← List.map_id acis] at distinct
  refine admits_of_used (fun _ _ => Iff.rfl) ?_ distinct there
  intro aci group
  exact memberAcis_effect group (.remove aci)

theorem admits_changeRoles {group : Snapshot} {entries : List RoleChange}
    (there : ∀ entry ∈ entries, entry.role.isHeld ∧ entry.aci ∈ group.memberAcis) :
    group.admits (entries.map .changeRole) := by
  refine admits_of_unaffected there ?_
  intro a b group ready
  refine ⟨ready.1, ?_⟩
  rw [memberAcis_effect]
  exact ready.2

theorem admits_changeProfileKeys {group : Snapshot} {entries : List Member}
    (there : ∀ entry ∈ entries, entry.aci ∈ group.memberAcis) :
    group.admits (entries.map .changeProfileKey) := by
  refine admits_of_unaffected there ?_
  intro a b group ready
  change b.aci ∈ ((Step.changeProfileKey a).effect group).memberAcis
  rw [memberAcis_effect]
  exact ready

theorem admits_invites {group : Snapshot} {entries : List Invite}
    (strangers : ∀ entry ∈ entries, entry.invitee ≠ [] → entry.invitee ∉ group.memberAcis) :
    group.admits (entries.map .invite) :=
  admits_of_unaffected strangers fun _ _ _ ready => ready

/-- Invites are accepted one after the other if everyone accepts another one. -/
theorem admits_accepts {group : Snapshot} {members : List Member}
    (distinct : (members.map (·.aci)).Nodup)
    (invited : ∀ member ∈ members, member.aci ∈ group.invitees) :
    group.admits (members.map .accept) := by
  refine admits_of_used (fun _ _ => Iff.rfl) ?_ distinct invited
  intro member group
  exact map_eraseP_key _ _ _

theorem admits_pniAccepts {group : Snapshot} {members : List Member}
    (distinct : (members.map (·.pni)).Nodup)
    (invited : ∀ member ∈ members, member.pni ∈ group.invitees) :
    group.admits (members.map .acceptPni) := by
  refine admits_of_used (fun _ _ => Iff.rfl) ?_ distinct invited
  intro member group
  exact map_eraseP_key _ _ _

theorem admits_approvals {group : Snapshot} (revision : UInt32) {entries : List Approval}
    (held : ∀ entry ∈ entries, entry.granted.isHeld) :
    group.admits (entries.map (.approve revision)) :=
  admits_of_unaffected held fun _ _ _ ready => ready

end Snapshot

end SealedGroups
