import SealedGroups.Group.Emptiness
import SealedGroups.Proofs.Identity
import SealedGroups.Proofs.Rebase
import SealedGroups.Proofs.Step.Frame

/-!
# A change that has happened leaves nothing to do

Rebased onto the group it has led to, a change is empty, its link password apart, which is always
sent again (`rebase_applied_isEmpty`). For every entry there is something in the group to tell that
it has happened (`Step.done`): who was added is a member, who was removed is none. This is so right
after the entry is performed, and stays so as long as no other entry is about the same person or
invite.
-/

namespace SealedGroups

/-! ### Changes that name everyone once -/

namespace Step

/-- A member's role and profile key may change together. -/
def sharesMember : Step → Step → Bool
  | .changeRole _, .changeProfileKey _ => true
  | .changeProfileKey _, .changeRole _ => true
  | _, _ => false

/-- Whether two steps may stand in one change. -/
def Compatible (s t : Step) : Prop :=
  s.Apart t ∨ s.sharesMember t = true

instance (s t : Step) : Decidable (s.Compatible t) :=
  inferInstanceAs (Decidable (_ ∨ _))

theorem Compatible.symm {s t : Step} (h : s.Compatible t) : t.Compatible s := by
  rcases h with apart | shares
  · exact Or.inl apart.symm
  · right
    cases s <;> cases t <;> first | rfl | cases shares

/-- Apart from a role and a profile key of one member, compatible steps have nothing in common. -/
theorem Compatible.apart {s t : Step} (h : s.Compatible t) (alone : s.sharesMember t = false) :
    s.Apart t := by
  rcases h with apart | shares
  · exact apart
  · rw [alone] at shares
    cases shares

/-- Whether a step says whom it is about. A revocation may leave that to the ciphertext. -/
def Identified : Step → Prop
  | .revoke _ => True
  | step => [] ∉ step.ids

instance : DecidablePred Identified
  | .revoke _ => inferInstanceAs (Decidable True)
  | .add _ | .remove _ | .changeRole _ | .changeProfileKey _ | .invite _ | .accept _
  | .setAttributes _ | .request _ | .refuse _ | .approve _ _ | .ban _ | .liftBan _ | .acceptPni _ =>
    inferInstanceAs (Decidable ([] ∉ _))

end Step

/-- Whether no two entries of a change are about the same person, invite or ban, a role and a
profile key of one member apart. -/
def Change.NamesOnce (change : Change) : Prop :=
  change.steps.Pairwise Step.Compatible

instance (change : Change) : Decidable change.NamesOnce :=
  inferInstanceAs (Decidable (List.Pairwise _ _))

/-- Whether invitees and ciphertexts correspond: a ciphertext stands for one invitee, and a readable
invitee has one ciphertext. -/
def Coherent (sealings : List (Bytes × Bytes)) : Prop :=
  ∀ p ∈ sealings, ∀ q ∈ sealings, (p.2 = q.2 → p.1 = q.1) ∧ (p.1 ≠ [] → p.1 = q.1 → p.2 = q.2)

instance (sealings : List (Bytes × Bytes)) : Decidable (Coherent sealings) :=
  inferInstanceAs (Decidable (∀ p ∈ sealings, ∀ q ∈ sealings, _))

/-- The invitees of a group with their ciphertexts. -/
def Snapshot.sealings (group : Snapshot) : List (Bytes × Bytes) :=
  group.invites.map fun invite => (invite.invitee, invite.ciphertext)

/-- The invitees of a change with their ciphertexts. -/
def Change.sealings (change : Change) : List (Bytes × Bytes) :=
  (change.newInvites.map fun invite => (invite.invitee, invite.ciphertext))
    ++ change.revokedInvites.map fun entry => (entry.invitee, entry.ciphertext)

/-- The invitee and the ciphertext that a step names. -/
def Step.sealings : Step → List (Bytes × Bytes)
  | .invite entry => [(entry.invitee, entry.ciphertext)]
  | .revoke entry => [(entry.invitee, entry.ciphertext)]
  | _ => []

theorem Change.sealings_of_mem_steps {change : Change} {step : Step} (h : step ∈ change.steps) :
    step.sealings ⊆ change.sealings := by
  intro sealing mem
  cases step with
  | invite entry =>
    have there : entry ∈ change.newInvites := mem_steps.1 h
    exact List.mem_append_left _ (List.mem_map.2 ⟨entry, there, (List.mem_singleton.1 mem).symm⟩)
  | revoke entry =>
    have there : entry ∈ change.revokedInvites := mem_steps.1 h
    exact List.mem_append_right _ (List.mem_map.2 ⟨entry, there, (List.mem_singleton.1 mem).symm⟩)
  | _ => cases mem

/-! ### What tells that a step has happened -/

/-- Whether nothing is left to do for a step. -/
def Step.done (group : Snapshot) : Step → Prop
  | .add member => member.aci ∈ group.memberAcis
  | .remove aci => aci ∉ group.memberAcis
  | .changeRole entry => ∀ member ∈ group.members, member.aci = entry.aci → member.role = entry.role
  | .changeProfileKey entry =>
    ∀ member ∈ group.members, member.aci = entry.aci → member.profileKey = entry.profileKey
  | .invite entry => entry.invitee ≠ [] ∧ entry.invitee ∈ group.invitees
  | .revoke entry =>
    entry.ciphertext ∉ group.ciphertexts ∧ (entry.invitee ≠ [] → entry.invitee ∉ group.invitees)
  | .accept member => member.aci ∉ group.invitees
  | .setAttributes change => group.setAttributes change = group
  | .request entry => entry.aci ∈ group.requesters
  | .refuse aci => aci ∉ group.requesters
  | .approve _ entry => entry.aci ∉ group.requesters
  | .ban entry => entry.serviceId ∈ group.banned
  | .liftBan entry => entry.serviceId ∉ group.banned
  | .acceptPni member => member.aci ∈ group.memberAcis

namespace Snapshot

/-! ### Members -/

section

variable {group : Snapshot} {before later : List Step}

/-- A key that one step puts there stays, if no other step is about it. -/
theorem mem_around {keys : Snapshot → List Bytes} {id : Bytes} {step : Step}
    (others : ∀ s ∈ before ++ later, ∀ group,
      (keys (s.effect group)).count id = (keys group).count id)
    (made : ∀ group, id ∈ keys (step.effect group)) :
    id ∈ keys (group.after (before ++ step :: later)) := by
  have last := (after_eq_around (fun g => (keys g).count id) others group step).2
  rw [← List.count_pos_iff, last, List.count_pos_iff]
  exact made _

/-- A key that was there once and that one step takes away stays away, if no other step is about
it. -/
theorem not_mem_around {keys : Snapshot → List Bytes} {id : Bytes} {step : Step}
    (once : (keys group).Nodup)
    (others : ∀ s ∈ before ++ later, ∀ group,
      (keys (s.effect group)).count id = (keys group).count id)
    (takes : ∀ group, keys (step.effect group) = (keys group).erase id) :
    id ∉ keys (group.after (before ++ step :: later)) := by
  obtain ⟨first, last⟩ := after_eq_around (fun g => (keys g).count id) others group step
  have once := List.nodup_iff_count_le_one.1 once id
  rw [takes, List.count_erase_self] at last
  apply List.count_eq_zero.1
  omega

/-- Whoever a step makes a member stays one. -/
theorem mem_memberAcis_around {id : Bytes} {step : Step}
    (others : ∀ s ∈ before ++ later, id ∉ s.memberIds)
    (made : ∀ group : Snapshot, id ∈ (step.effect group).memberAcis) :
    id ∈ (group.after (before ++ step :: later)).memberAcis :=
  mem_around (fun s hs => count_memberAcis_effect (others s hs)) made

theorem remove_done {aci : Bytes} (once : group.memberAcis.Nodup)
    (others : ∀ s ∈ before ++ later, aci ∉ s.memberIds) :
    aci ∉ (group.after (before ++ .remove aci :: later)).memberAcis := by
  apply not_mem_around once fun s hs => count_memberAcis_effect (others s hs)
  intro group
  exact memberAcis_effect group (.remove aci)

/-- Members with an account that a step is not about were there before it. -/
theorem mem_members_of_effect {step : Step} {member : Member} (apart : member.aci ∉ step.memberIds)
    (h : member ∈ (step.effect group).members) : member ∈ group.members := by
  have same : (step.effect group).members.filter (·.aci == member.aci) =
      group.members.filter (·.aci == member.aci) :=
    filter_members_effect (fun m fit => beq_iff_eq.1 fit ▸ apart) group
  have selected : member ∈ (step.effect group).members.filter (·.aci == member.aci) :=
    List.mem_filter.2 ⟨h, beq_self_eq_true member.aci⟩
  rw [same] at selected
  exact List.mem_of_mem_filter selected

/-- A value of members that a step changes only for others, or not at all, stays. -/
theorem value_effect {β : Type} {value : Member → β} {new : β} {id : Bytes} {s : Step}
    (others : id ∉ s.memberIds ∨ (s.effect group).members.map (fun m => (m.aci, value m)) =
      group.members.map fun m => (m.aci, value m))
    (set : ∀ member ∈ group.members, member.aci = id → value member = new) :
    ∀ member ∈ (s.effect group).members, member.aci = id → value member = new := by
  intro member mem aci
  rcases others with apart | shares
  · exact set member (mem_members_of_effect (aci ▸ apart) mem) aci
  · -- the step may be about the member, but leaves this value as it is
    have pair := List.mem_map_of_mem (f := fun m => (m.aci, value m)) mem
    rw [shares] at pair
    obtain ⟨old, there, same⟩ := List.mem_map.1 pair
    obtain ⟨same, kept⟩ := Prod.mk.inj same
    rw [← kept]
    exact set old there (same.trans aci)

/-- What a step changes of the one member with an account, and what no other step changes again. -/
theorem value_around {β : Type} {value : Member → β} {new : β} {f : Member → Member} {id : Bytes}
    {step : Step} (once : group.memberAcis.Nodup)
    (others : ∀ s ∈ before ++ later, id ∉ s.memberIds ∨ ∀ group : Snapshot,
      (s.effect group).members.map (fun m => (m.aci, value m)) =
        group.members.map fun m => (m.aci, value m))
    (changes : ∀ group : Snapshot,
      (step.effect group).members = modifyFirst (·.aci == id) f group.members)
    (changed : ∀ member, (f member).aci = member.aci ∧ value (f member) = new) :
    ∀ member ∈ (group.after (before ++ step :: later)).members, member.aci = id →
      value member = new := by
  -- whoever is there once stays so up to the step, so the first match is the only one
  have before_once : (group.after before).memberAcis.count id ≤ 1 := by
    have same : (group.after before).memberAcis.count id = group.memberAcis.count id := by
      apply after_eq (fun g => g.memberAcis.count id)
      intro s hs group
      rcases others s (List.mem_append_left _ hs) with apart | shares
      · exact count_memberAcis_effect apart group
      · have acis := congrArg (List.map Prod.fst) (shares group)
        rw [List.map_map, List.map_map] at acis
        exact congrArg (List.count id) acis
    rw [same]
    exact List.nodup_iff_count_le_one.1 once id
  rw [after_append, after_cons]
  apply after_keeps (P := fun g => ∀ member ∈ g.members, member.aci = id → value member = new)
  · intro s hs group set
    exact value_effect ((others s (List.mem_append_right _ hs)).imp_right
      fun shares => shares group)
      set
  · intro member mem aci
    rw [changes] at mem
    obtain ⟨old, -, rfl⟩ := changed_of_mem_modifyFirst before_once aci mem
    exact (changed old).2

theorem changeRole_done {entry : RoleChange} (once : group.memberAcis.Nodup)
    (others : ∀ s ∈ before ++ later, entry.aci ∉ s.memberIds ∨ ∃ m, s = .changeProfileKey m) :
    (Step.changeRole entry).done (group.after (before ++ .changeRole entry :: later)) := by
  refine value_around once ?_ (fun _ => rfl) (fun _ => ⟨rfl, rfl⟩)
  intro s hs
  rcases others s hs with apart | ⟨m, rfl⟩
  · exact Or.inl apart
  · right
    intro group
    apply map_modifyFirst
    intro member _
    rfl

theorem changeProfileKey_done {entry : Member} (once : group.memberAcis.Nodup)
    (others : ∀ s ∈ before ++ later, entry.aci ∉ s.memberIds ∨ ∃ e, s = .changeRole e) :
    (Step.changeProfileKey entry).done
      (group.after (before ++ .changeProfileKey entry :: later)) := by
  refine value_around once ?_ (fun _ => rfl) (fun _ => ⟨rfl, rfl⟩)
  intro s hs
  rcases others s hs with apart | ⟨e, rfl⟩
  · exact Or.inl apart
  · right
    intro group
    apply map_modifyFirst
    intro member _
    rfl

/-! ### Requests and bans -/

theorem request_done {entry : JoinRequest}
    (others : ∀ s ∈ before ++ later, entry.aci ∉ s.requestIds) :
    entry.aci ∈ (group.after (before ++ .request entry :: later)).requesters := by
  apply mem_around fun s hs => count_requesters_effect (others s hs)
  intro group
  rw [requesters_effect]
  exact List.mem_append_right _ List.mem_cons_self

/-- Whoever's one request a step takes out asks no more. -/
theorem not_mem_requesters_around {id : Bytes} {step : Step} (once : group.requesters.Nodup)
    (others : ∀ s ∈ before ++ later, id ∉ s.requestIds)
    (takes : ∀ requesters : List Bytes, step.onRequesters requesters = requesters.erase id) :
    id ∉ (group.after (before ++ step :: later)).requesters := by
  apply not_mem_around once fun s hs => count_requesters_effect (others s hs)
  intro group
  rw [requesters_effect, takes]

theorem ban_done {entry : Ban} (others : ∀ s ∈ before ++ later, entry.serviceId ∉ s.bannedIds) :
    entry.serviceId ∈ (group.after (before ++ .ban entry :: later)).banned := by
  apply mem_around fun s hs => count_banned_effect (others s hs)
  intro group
  simp only [banned, Step.effect, Step.onBans]
  split
  · rename_i known
    exact any_key_iff.1 known
  · rw [List.map_append]
    exact List.mem_append_right _ List.mem_cons_self

theorem liftBan_done {entry : Ban} (once : group.banned.Nodup)
    (others : ∀ s ∈ before ++ later, entry.serviceId ∉ s.bannedIds) :
    entry.serviceId ∉ (group.after (before ++ .liftBan entry :: later)).banned := by
  apply not_mem_around once fun s hs => count_banned_effect (others s hs)
  intro group
  exact map_eraseP_key _ _ _

/-! ### Invites -/

theorem invite_done {entry : Invite}
    (others : ∀ s ∈ before ++ later, entry.invitee ∉ s.ids ∧ entry.ciphertext ∉ s.ciphertexts)
    (coherent : ∀ i ∈ group.invites, i.ciphertext = entry.ciphertext → i.invitee = entry.invitee) :
    entry.invitee ∈ (group.after (before ++ .invite entry :: later)).invitees := by
  have made : ∃ i ∈ ((Step.invite entry).effect (group.after before)).invites,
      i.invitee = entry.invitee ∧ i.ciphertext = entry.ciphertext := by
    simp only [Step.effect, Step.onInvites]
    split
    · -- the ciphertext is there already: no step before made it, so it was there at first
      rename_i known
      obtain ⟨i, there, same⟩ := List.any_eq_true.1 known
      have ciphertext := beq_iff_eq.1 same
      rcases mem_invites_after there with old | new
      · exact ⟨i, there, coherent i old ciphertext, ciphertext⟩
      · have apart := (others _ (List.mem_append_left _ new)).2
        exact absurd (List.mem_singleton.2 ciphertext.symm) apart
    · exact ⟨entry, List.mem_append_right _ List.mem_cons_self, rfl, rfl⟩
  -- nobody later takes the invite away, as it would have to be named
  have stays : ∃ i ∈ (group.after (before ++ .invite entry :: later)).invites,
      i.invitee = entry.invitee ∧ i.ciphertext = entry.ciphertext := by
    rw [after_append, after_cons]
    apply after_keeps (P := fun g => ∃ i ∈ g.invites,
      i.invitee = entry.invitee ∧ i.ciphertext = entry.ciphertext) _ made
    rintro s hs g ⟨i, there, invitee, ciphertext⟩
    refine ⟨i, mem_invites_effect_of_not_touches ?_ there, invitee, ciphertext⟩
    obtain ⟨ids, ciphertexts⟩ := others s (List.mem_append_right _ hs)
    intro touches
    rcases Step.mem_ids_or_mem_ciphertexts_of_touchesInvite touches with named | named
    · exact ids (invitee ▸ named)
    · exact ciphertexts (ciphertext ▸ named)
  obtain ⟨i, there, invitee, -⟩ := stays
  exact List.mem_map.2 ⟨i, there, invitee⟩

theorem revoke_done {entry : Revocation} (once : group.ciphertexts.Nodup)
    (others : ∀ s ∈ before ++ later, entry.ciphertext ∉ s.ciphertexts
      ∧ (entry.invitee ≠ [] → entry.invitee ∉ s.ids))
    (coherent : ∀ i ∈ group.invites, entry.invitee ≠ [] → i.invitee = entry.invitee →
      i.ciphertext = entry.ciphertext) :
    (Step.revoke entry).done (group.after (before ++ .revoke entry :: later)) := by
  have absent :
      entry.ciphertext ∉ (group.after (before ++ .revoke entry :: later)).ciphertexts := by
    intro known
    obtain ⟨i, there, same⟩ := List.mem_map.1 known
    rw [after_append, after_cons] at there
    rcases mem_invites_after there with left | new
    · -- a ciphertext that is there once is gone when it is erased
      have nodup : (group.after before).ciphertexts.Nodup :=
        after_keeps (P := fun g => g.ciphertexts.Nodup)
          (fun s _ _ nodup => ciphertexts_effect_nodup nodup s) once
      have erased : ((Step.revoke entry).effect (group.after before)).ciphertexts =
          (group.after before).ciphertexts.erase entry.ciphertext := map_eraseP_key _ _ _
      have mem : entry.ciphertext ∈ ((Step.revoke entry).effect (group.after before)).ciphertexts :=
        List.mem_map.2 ⟨i, left, same⟩
      rw [erased] at mem
      exact nodup.not_mem_erase mem
    · exact (others _ (List.mem_append_right _ new)).1 (List.mem_singleton.2 same.symm)
  refine ⟨absent, ?_⟩
  -- another invite of the invitee could only be an old one, under the ciphertext that is gone
  intro readable invited
  obtain ⟨i, there, same⟩ := List.mem_map.1 invited
  rcases mem_invites_after there with old | new
  · exact absent (List.mem_map.2 ⟨i, there, coherent i old readable same⟩)
  · rcases List.mem_append.1 new with early | late
    · exact (others _ (List.mem_append_left _ early)).2 readable (List.mem_singleton.2 same.symm)
    · rcases List.mem_cons.1 late with this | late
      · cases this
      · exact (others _ (List.mem_append_right _ late)).2 readable (List.mem_singleton.2 same.symm)

/-- Only an invite of someone makes their invites more. -/
theorem count_invitees_effect_le {step : Step} {id : Bytes} (h : id ∉ step.ids) (group : Snapshot) :
    (step.effect group).invitees.count id ≤ group.invitees.count id := by
  cases step with
  | add member => exact (List.filter_sublist.map _).count_le id
  | revoke entry => exact (List.eraseP_sublist.map _).count_le id
  | accept member => exact (List.eraseP_sublist.map _).count_le id
  | acceptPni member => exact (List.eraseP_sublist.map _).count_le id
  | invite entry =>
    simp only [invitees, Step.effect, Step.onInvites]
    split
    · exact Nat.le_refl _
    · have none : (List.map (·.invitee) [entry]).count id = 0 := List.count_eq_zero.2 h
      rw [List.map_append, List.count_append, none]
      exact Nat.le_refl _
  | _ => exact Nat.le_refl _

theorem accept_done {member : Member} (once : group.invitees.count member.aci ≤ 1)
    (others : ∀ s ∈ before ++ later, member.aci ∉ s.ids) :
    member.aci ∉ (group.after (before ++ .accept member :: later)).invitees := by
  have still_once : (group.after before).invitees.count member.aci ≤ 1 :=
    after_keeps (P := fun g => g.invitees.count member.aci ≤ 1)
      (fun s hs g le =>
        Nat.le_trans (count_invitees_effect_le (others s (List.mem_append_left _ hs)) g) le) once
  -- the invitee has one invite at most, and it is the one that is taken
  have taken :
      ((Step.accept member).effect (group.after before)).invitees.count member.aci = 0 := by
    have erased : ((Step.accept member).effect (group.after before)).invitees =
        (group.after before).invitees.erase member.aci := map_eraseP_key _ _ _
    rw [erased, List.count_erase_self]
    omega
  rw [after_append, after_cons]
  apply List.count_eq_zero.1
  exact after_keeps (P := fun g => g.invitees.count member.aci = 0)
    (fun s hs g none => Nat.le_zero.1
      (none ▸ count_invitees_effect_le (others s (List.mem_append_right _ hs)) g)) taken

end

/-! ### Attributes -/

private theorem orKeep_orKeep (new old : Access) :
    new.orKeep (new.orKeep old) = new.orKeep old := by
  by_cases set : new.isSet = true
  · simp only [Access.orKeep, if_pos set]
  · simp only [Access.orKeep, if_neg set]

private theorem accessAfter_idem (group : Snapshot) (change : Change) :
    (group.setAttributes change).accessAfter change = group.accessAfter change := by
  by_cases set : (change.attributesAccess.isSet || change.membersAccess.isSet
      || change.inviteLinkAccess.isSet) = true
  · simp only [setAttributes, accessAfter, if_pos set, Option.getD_some, orKeep_orKeep]
  · simp only [setAttributes, accessAfter, if_neg set]

/-- Setting the same attributes again changes nothing. -/
theorem setAttributes_idem (group : Snapshot) (change : Change) :
    (group.setAttributes change).setAttributes change = group.setAttributes change := by
  have access := accessAfter_idem group change
  -- an attribute that is set does not depend on what was there before
  have text : ∀ (new : Option Text) (old : String),
      (new.map (·.value)).getD ((new.map (·.value)).getD old) = (new.map (·.value)).getD old := by
    intro new old
    cases new <;> rfl
  have timer : (change.timer.orElse fun _ => change.timer.orElse fun _ => group.timer) =
      change.timer.orElse fun _ => group.timer := by
    cases change.timer <;> rfl
  rw [setAttributes, access]
  simp only [setAttributes, text, timer]
  congr 1
  · split <;> rfl
  · split <;> rfl

/-- Whether attributes are set already does not depend on the lists. -/
theorem setAttributes_eq_self {group : Snapshot} {change : Change}
    (h : group.bare.setAttributes change = group.bare) : group.setAttributes change = group :=
  congrArg (fun attributes : Snapshot =>
    { attributes with
      members := group.members
      invites := group.invites
      requests := group.requests
      bans := group.bans }) h

theorem setAttributes_done (group : Snapshot) (change : Change) :
    (Step.setAttributes change).done (group.after change.steps) := by
  apply setAttributes_eq_self
  rw [bare_after_steps, setAttributes_idem]

/-! ### Every step of a change -/

/-- If all others are about someone else, a step that has been performed is done at the end. -/
theorem done_after {group : Snapshot} {before later : List Step} {step : Step}
    {sealings : List (Bytes × Bytes)} (once : group.OneStanding) (identified : step.Identified)
    (others : ∀ s ∈ before ++ later, step.Compatible s)
    (attributes : ∀ change, step ≠ .setAttributes change)
    (coherent : Coherent (group.sealings ++ sealings)) (sealed : step.sealings ⊆ sealings) :
    step.done (group.after (before ++ step :: later)) := by
  -- a step that shares nobody is the only one about its people
  have apart : (∀ s, step.sharesMember s = false) → ∀ s ∈ before ++ later, step.Apart s :=
    fun alone s hs => (others s hs).apart (alone s)
  have strangers : (∀ s, step.sharesMember s = false) → [] ∉ step.ids →
      ∀ id ∈ step.ids, ∀ s ∈ before ++ later, id ∉ s.ids := by
    intro alone named id hid s hs
    exact (apart alone s hs).1 id hid (fun empty => named (empty ▸ hid))
  -- what the group holds agrees with what the step says belongs together
  have agree : ∀ i ∈ group.invites, ∀ q ∈ step.sealings,
      (i.ciphertext = q.2 → i.invitee = q.1)
        ∧ (q.1 ≠ [] → i.invitee = q.1 → i.ciphertext = q.2) := by
    intro i hi q hq
    have known : (i.invitee, i.ciphertext) ∈ group.sealings ++ sealings :=
      List.mem_append_left _ (List.mem_map.2 ⟨i, hi, rfl⟩)
    have same := coherent _ known q (List.mem_append_right _ (sealed hq))
    exact ⟨same.1, fun named eq => same.2 (eq ▸ named) eq⟩
  cases step with
  | add member =>
    have others := strangers (fun _ => rfl) identified _ List.mem_cons_self
    apply mem_memberAcis_around fun s hs h => others s hs (s.memberIds_subset_ids h)
    intro group
    rw [memberAcis_effect, Step.onAcis]
    split
    · assumption
    · exact List.mem_append_right _ List.mem_cons_self
  | remove aci =>
    have others := strangers (fun _ => rfl) identified _ List.mem_cons_self
    exact remove_done once.members fun s hs h => others s hs (s.memberIds_subset_ids h)
  | changeRole entry =>
    apply changeRole_done once.members
    intro s hs
    rcases others s hs with apart | shares
    · left
      intro about
      exact apart.1 _ List.mem_cons_self (fun empty => identified (List.mem_singleton.2 empty.symm))
        (s.memberIds_subset_ids about)
    · -- only a new profile key may be about the same member, and it leaves the role alone
      right
      cases s with
      | changeProfileKey m => exact ⟨m, rfl⟩
      | _ => cases shares
  | changeProfileKey entry =>
    apply changeProfileKey_done once.members
    intro s hs
    rcases others s hs with apart | shares
    · left
      intro about
      exact apart.1 _ List.mem_cons_self (fun empty => identified (List.mem_singleton.2 empty.symm))
        (s.memberIds_subset_ids about)
    · -- only a new role may be about the same member, and it leaves the profile key alone
      right
      cases s with
      | changeRole e => exact ⟨e, rfl⟩
      | _ => cases shares
  | invite entry =>
    have others := strangers (fun _ => rfl) identified _ List.mem_cons_self
    refine ⟨fun empty => identified (List.mem_singleton.2 empty.symm), invite_done ?_ ?_⟩
    · intro s hs
      exact ⟨others s hs, (apart (fun _ => rfl) s hs).2.1 _ List.mem_cons_self⟩
    · intro i hi same
      exact (agree i hi _ List.mem_cons_self).1 same
  | revoke entry =>
    apply revoke_done once.ciphertexts
    · intro s hs
      have apart := apart (fun _ => rfl) s hs
      exact ⟨apart.2.1 _ List.mem_cons_self, apart.1 _ List.mem_cons_self⟩
    · intro i hi readable same
      exact (agree i hi _ List.mem_cons_self).2 readable same
  | accept member =>
    have others := strangers (fun _ => rfl) identified _ List.mem_cons_self
    have named : member.aci ≠ [] := fun empty => identified (List.mem_singleton.2 empty.symm)
    exact accept_done (once.invitee named) others
  | setAttributes change => exact absurd rfl (attributes change)
  | request entry =>
    have others := strangers (fun _ => rfl) identified _ List.mem_cons_self
    exact request_done fun s hs h => others s hs (s.requestIds_subset_ids h)
  | refuse aci =>
    have others := strangers (fun _ => rfl) identified _ List.mem_cons_self
    exact not_mem_requesters_around once.requests
      (fun s hs h => others s hs (s.requestIds_subset_ids h)) fun _ => rfl
  | approve revision entry =>
    have others := strangers (fun _ => rfl) identified _ List.mem_cons_self
    exact not_mem_requesters_around once.requests
      (fun s hs h => others s hs (s.requestIds_subset_ids h)) fun _ => rfl
  | ban entry => exact ban_done fun s hs => (apart (fun _ => rfl) s hs).2.2 _ List.mem_cons_self
  | liftBan entry =>
    exact liftBan_done once.banned fun s hs => (apart (fun _ => rfl) s hs).2.2 _ List.mem_cons_self
  | acceptPni member =>
    have others := strangers (fun _ => rfl) identified _ List.mem_cons_self
    apply mem_memberAcis_around fun s hs h => others s hs (s.memberIds_subset_ids h)
    intro group
    rw [memberAcis_effect]
    exact List.mem_append_right _ List.mem_cons_self

/-- In a change that names everyone once, every step is done after the change. -/
theorem done_after_steps {group : Snapshot} {change : Change} (once : group.OneStanding)
    (names : change.NamesOnce) (identified : ∀ step ∈ change.steps, step.Identified)
    (coherent : Coherent (group.sealings ++ change.sealings)) :
    ∀ step ∈ change.steps, step.done (group.after change.steps) := by
  intro step mem
  -- attributes are settled by the change as a whole, everything else next to its neighbours
  by_cases attributes : ∃ c, step = .setAttributes c
  · obtain ⟨c, rfl⟩ := attributes
    have same : c = change := Change.mem_steps.1 mem
    rw [same]
    exact setAttributes_done group change
  · have named := identified step mem
    have sealed := Change.sealings_of_mem_steps mem
    obtain ⟨before, later, split⟩ := List.append_of_mem mem
    rw [Change.NamesOnce, split, List.pairwise_append, List.pairwise_cons] at names
    rw [split]
    apply done_after once named _ (fun c eq => attributes ⟨c, eq⟩) coherent sealed
    intro s hs
    rcases List.mem_append.1 hs with early | late
    · exact (names.2.2 s early step List.mem_cons_self).symm
    · exact names.2.1.1 s late

end Snapshot

namespace Change

/-! ### What is left when every step has happened -/

private theorem text_cleared {new : Option Text} {old : String}
    (h : (new.map (·.value)).getD old = old) :
    (if new.any (·.value == old) then none else new).isNone = true := by
  cases new with
  | none => rfl
  | some text =>
    have same : text.value = old := h
    simp [same]

private theorem access_cleared {new held : Access} (h : new.isSet = true → held = new) :
    (!(if new = held then Access.unknown else new).isSet) = true := by
  by_cases set : new.isSet = true
  · rw [if_pos (h set).symm]
    rfl
  · split
    · rfl
    · simpa using set

private theorem announcements_cleared {new held : Announcements}
    (h : (if new.isSet then new else held) = held) :
    (!(if new = held then Announcements.unknown else new).isSet) = true := by
  by_cases set : new.isSet = true
  · rw [if_pos set] at h
    rw [if_pos h]
    rfl
  · split
    · rfl
    · simpa using set

/-- A right that the group has after the change is not set again. -/
private theorem attributes_access_done {change : Change} {group : Snapshot}
    (attributes : group.setAttributes change = group) :
    (change.attributesAccess.isSet = true →
        (group.access.getD {}).attributes = change.attributesAccess)
      ∧ (change.membersAccess.isSet = true → (group.access.getD {}).members = change.membersAccess)
      ∧ (change.inviteLinkAccess.isSet = true →
        (group.access.getD {}).inviteLink = change.inviteLinkAccess) := by
  have kept : group.access = group.accessAfter change := (congrArg Snapshot.access attributes).symm
  refine ⟨?_, ?_, ?_⟩
  · intro set
    rw [kept, Snapshot.accessAfter, if_pos (by simp [set])]
    exact if_pos set
  · intro set
    rw [kept, Snapshot.accessAfter, if_pos (by simp [set])]
    exact if_pos set
  · intro set
    rw [kept, Snapshot.accessAfter, if_pos (by simp [set])]
    exact if_pos set

/-- With every step done, no entry and no value passes the test of the rebase. -/
theorem isEmpty_remainder {change : Change} {group : Snapshot}
    (done : ∀ step ∈ change.steps, step.done group) :
    { change.remainder group with linkPassword := [] }.isEmpty = true := by
  have added : ∀ member ∈ change.newMembers, group.hasMember member.aci = true := fun member mem =>
    Snapshot.hasMember_iff.2 (done (.add member) (mem_steps.2 mem))
  have asked : ∀ request ∈ change.newRequests, group.hasRequest request.aci = true :=
    fun request mem => Snapshot.hasRequest_iff.2 (done (.request request) (mem_steps.2 mem))
  have attributes : group.setAttributes change = group :=
    done (.setAttributes change) (mem_steps.2 rfl)
  obtain ⟨attributesAccess, membersAccess, inviteLinkAccess⟩ := attributes_access_done attributes
  simp only [isEmpty, isEmptyExceptProfileKeys, keepsMembershipAndAttributes, remainder,
    Bool.and_eq_true, List.isEmpty_iff, List.filter_eq_nil_iff, List.append_eq_nil_iff,
    List.reverse_eq_nil_iff, List.map_eq_nil_iff, and_assoc, true_and]
  refine ⟨?profileKeyChanges, ?newBans, ?liftedBans, ?newMembers, ?removedMembers, ?roleChanges,
    ?newInvites, ?revokedInvites, ?acceptedInvites, ?acceptedByAdd, ?acceptedByRequest, ?title,
    ?avatar, ?timer, access_cleared attributesAccess, access_cleared membersAccess,
    access_cleared inviteLinkAccess, ?newRequests, ?refusedRequests, ?approvedRequests,
    ?description, ?announcements, ?acceptedPniInvites⟩
  case profileKeyChanges =>
    intro entry mem kept
    -- an entry is left only if the last member of that name has another key
    obtain ⟨member, last, other⟩ := (Option.any_eq_true _ _).1 kept
    obtain ⟨there, same⟩ := Snapshot.lastMember_mem last
    have key := done (.changeProfileKey entry) (mem_steps.2 mem) member there same
    simp [key] at other
  case newBans =>
    intro ban mem
    have banned := Snapshot.hasBan_iff.2 (done (.ban ban) (mem_steps.2 mem))
    simp [banned]
  case liftedBans =>
    intro ban mem banned
    exact done (.liftBan ban) (mem_steps.2 mem) (Snapshot.hasBan_iff.1 banned)
  case newMembers =>
    intro member mem
    simp [Snapshot.stillToAdd, added member mem]
  case removedMembers =>
    intro aci mem member
    exact done (.remove aci) (mem_steps.2 mem) (Snapshot.hasMember_iff.1 member)
  case roleChanges =>
    intro entry mem kept
    obtain ⟨member, last, other⟩ := (Option.any_eq_true _ _).1 kept
    obtain ⟨there, same⟩ := Snapshot.lastMember_mem last
    have role := done (.changeRole entry) (mem_steps.2 mem) member there same
    simp [role] at other
  case newInvites =>
    intro invite mem
    have invited := Snapshot.hasInvitee_iff.2 (done (.invite invite) (mem_steps.2 mem))
    simp [invited]
  case revokedInvites =>
    intro entry mem
    obtain ⟨ciphertext, invitee⟩ := done (.revoke entry) (mem_steps.2 mem)
    -- a revocation is left if its ciphertext is there, or else its invitee where this can be read
    rw [Bool.or_eq_true, Snapshot.hasInvite_iff, Snapshot.hasInvitee_iff]
    rintro (there | ⟨readable, there⟩)
    · exact ciphertext there
    · exact invitee readable there
  case acceptedInvites =>
    intro member mem invited
    exact done (.accept member) (mem_steps.2 mem) (Snapshot.hasInvitee_iff.1 invited).2
  case acceptedByAdd =>
    intro member mem
    simp [Snapshot.acceptsInstead, added member mem]
  case acceptedByRequest =>
    intro request mem
    simp [Snapshot.acceptsInsteadOfAsking, asked request mem]
  case title => exact text_cleared (congrArg Snapshot.title attributes)
  case avatar => exact text_cleared (congrArg Snapshot.avatar attributes)
  case timer =>
    have set : (change.timer.orElse fun _ => group.timer) = group.timer :=
      congrArg Snapshot.timer attributes
    cases timer : change.timer with
    | none => rfl
    | some new =>
      rw [timer] at set
      have same : group.duration = new.duration := by rw [Snapshot.duration, ← set]; rfl
      simp [same]
  case newRequests =>
    intro request mem
    simp [Snapshot.stillToRequest, asked request mem]
  case refusedRequests =>
    intro aci mem requesting
    exact done (.refuse aci) (mem_steps.2 mem) (Snapshot.hasRequest_iff.1 requesting)
  case approvedRequests =>
    intro entry mem requesting
    exact done (.approve change.revision entry) (mem_steps.2 ⟨mem, rfl⟩)
      (Snapshot.hasRequest_iff.1 requesting)
  case description => exact text_cleared (congrArg Snapshot.description attributes)
  case announcements => exact announcements_cleared (congrArg Snapshot.announcements attributes)
  case acceptedPniInvites =>
    intro member mem
    have there := Snapshot.hasMember_iff.2 (done (.acceptPni member) (mem_steps.2 mem))
    simp [there]

end Change

namespace Snapshot

/-- A change that has been applied rebases to nothing but its link password. -/
theorem rebase_applied_isEmpty {group result : Snapshot} {change : Change}
    (once : group.OneStanding) (applied : group.apply change = .ok result)
    (names : change.NamesOnce)
    (identified : ∀ step ∈ change.steps, step.Identified)
    (coherent : Coherent (group.sealings ++ change.sealings)) :
    { change.rebase result with linkPassword := [] }.isEmpty = true := by
  obtain ⟨-, rfl⟩ := apply_eq_ok_iff.1 applied
  rw [Change.rebase_eq_remainder]
  apply Change.isEmpty_remainder
  -- the revision is set first, and is no part of what is said
  have once : (group.atRevision change.revision).OneStanding :=
    ⟨once.identities, once.ciphertexts, once.banned⟩
  exact done_after_steps once names identified coherent

open Sample in
/-- One change with an entry of every kind. -/
theorem rebase_applied_sample_isEmpty :
    let group : Snapshot := {
      members := [administrator 1, member 2, member 3]
      invites := [invite 4, invite 5, pniInvite 6]
      requests := [request 7, request 8]
      bans := [ban 9 0] }
    let change : Change := {
      revision := 1
      newMembers := [member 10]
      removedMembers := [aci 2]
      roleChanges := [promotion 3]
      profileKeyChanges := [memberWithProfileKey 3 [1]]
      newInvites := [invite 11]
      revokedInvites := [revocation 4]
      acceptedInvites := [member 5]
      title := some ⟨"new"⟩
      membersAccess := .administrator
      newRequests := [request 12]
      refusedRequests := [aci 7]
      approvedRequests := [approval 8]
      linkPassword := [1]
      newBans := [ban 13 0]
      liftedBans := [ban 9 0]
      acceptedPniInvites := [memberByPni 14 6] }
    ∃ result, group.apply change = .ok result ∧
      { change.rebase result with linkPassword := [] }.isEmpty = true := by
  intro group change
  have once : group.OneStanding := by
    constructor <;> decide +kernel
  have names : change.NamesOnce := by
    unfold Change.NamesOnce
    decide +kernel
  have identified : ∀ step ∈ change.steps, step.Identified := by decide +kernel
  have coherent : Coherent (group.sealings ++ change.sealings) := by
    unfold Coherent
    decide +kernel
  have accepted : (group.apply change).toOption.isSome = true := by decide +kernel
  cases applied : group.apply change with
  | ok result => exact ⟨result, rfl, rebase_applied_isEmpty once applied names identified coherent⟩
  | error e => rw [applied] at accepted; cases accepted

end Snapshot

end SealedGroups
