import SealedGroups.Proofs.Step.Effect

/-!
# What a step leaves alone

A step is about few entries of the group: the members and requests with certain accounts, the
invites with a certain invitee or ciphertext, the bans of one identity. All others stay as they are
and in their order. This is stated for the part of each list that a test selects: if the test
selects nothing the step is about, the selected part does not change (`filter_members_effect` and
its kin).
-/

namespace SealedGroups

namespace Step

/-! ### What a step is about -/

/-- The accounts whose membership a step changes. -/
def memberIds : Step → List Bytes
  | .add member => [member.aci]
  | .remove aci => [aci]
  | .changeRole entry => [entry.aci]
  | .changeProfileKey entry => [entry.aci]
  | .accept member => [member.aci]
  | .approve _ entry => [entry.aci]
  | .acceptPni member => [member.aci]
  | _ => []

/-- Whether a step brings in an invite with this ciphertext or may take out this invite. -/
def touchesInvite : Step → Invite → Prop
  | .add member, known => known.invitee = member.aci
  | .invite entry, known => known.ciphertext = entry.ciphertext
  | .revoke entry, known => known.ciphertext = entry.ciphertext
  | .accept member, known => known.invitee = member.aci
  | .acceptPni member, known => known.invitee = member.pni
  | _, _ => False

/-- The accounts whose requests a step brings in or takes out. -/
def requestIds : Step → List Bytes
  | .add member => [member.aci]
  | .request entry => [entry.aci]
  | .refuse aci => [aci]
  | .approve _ entry => [entry.aci]
  | _ => []

/-- The identities that a step bans or whose ban it lifts. -/
def bannedIds : Step → List Bytes
  | .ban entry => [entry.serviceId]
  | .liftBan entry => [entry.serviceId]
  | _ => []

/-! ### Steps that have nothing to do with each other -/

/-- Everyone in the group whom a step names. Only a revocation may leave out whom it is about. -/
def ids : Step → List Bytes
  | .add member => [member.aci]
  | .remove aci => [aci]
  | .changeRole entry => [entry.aci]
  | .changeProfileKey entry => [entry.aci]
  | .invite entry => [entry.invitee]
  | .revoke entry => [entry.invitee]
  | .accept member => [member.aci]
  | .request entry => [entry.aci]
  | .refuse aci => [aci]
  | .approve _ entry => [entry.aci]
  | .acceptPni member => [member.aci, member.pni]
  | _ => []

/-- The ciphertexts that a step names. -/
def ciphertexts : Step → List Bytes
  | .invite entry => [entry.ciphertext]
  | .revoke entry => [entry.ciphertext]
  | _ => []

/-- Whether two steps name nobody and no invite in common. -/
def Apart (s t : Step) : Prop :=
  (∀ id ∈ s.ids, id ≠ [] → id ∉ t.ids) ∧ (∀ c ∈ s.ciphertexts, c ∉ t.ciphertexts)
    ∧ ∀ id ∈ s.bannedIds, id ∉ t.bannedIds

instance (s t : Step) : Decidable (s.Apart t) :=
  inferInstanceAs (Decidable (_ ∧ _ ∧ _))

theorem Apart.symm {s t : Step} (h : s.Apart t) : t.Apart s := by
  obtain ⟨ids, ciphertexts, banned⟩ := h
  refine ⟨?_, ?_, ?_⟩
  · intro id ht named hs
    exact ids id hs named ht
  · intro c ht hs
    exact ciphertexts c hs ht
  · intro id ht hs
    exact banned id hs ht

theorem memberIds_subset_ids (step : Step) : step.memberIds ⊆ step.ids := by
  cases step <;> simp [memberIds, ids]

theorem requestIds_subset_ids (step : Step) : step.requestIds ⊆ step.ids := by
  cases step <;> simp [requestIds, ids]

/-- An invite is touched by way of its invitee or of its ciphertext. -/
theorem mem_ids_or_mem_ciphertexts_of_touchesInvite {step : Step} {invite : Invite}
    (h : step.touchesInvite invite) :
    invite.invitee ∈ step.ids ∨ invite.ciphertext ∈ step.ciphertexts := by
  cases step with
  | add member => exact Or.inl (List.mem_singleton.2 h)
  | invite entry => exact Or.inr (List.mem_singleton.2 h)
  | revoke entry => exact Or.inr (List.mem_singleton.2 h)
  | accept member => exact Or.inl (List.mem_singleton.2 h)
  | acceptPni member => exact Or.inl (List.mem_cons_of_mem _ (List.mem_singleton.2 h))
  | _ => exact absurd h id

end Step

/-! ### One step -/

namespace Snapshot

variable {step : Step}

private theorem filter_append_of_none {α : Type} {keep : α → Bool} {entries new : List α}
    (h : ∀ a ∈ new, keep a = false) : (entries ++ new).filter keep = entries.filter keep := by
  have none : new.filter keep = [] := by
    apply List.filter_eq_nil_iff.2
    intro a ha
    rw [h a ha]
    exact Bool.false_ne_true
  rw [List.filter_append, none, List.append_nil]

/-- Members with other accounts stay. -/
theorem filter_members_effect {keep : Member → Bool}
    (h : ∀ member, keep member = true → member.aci ∉ step.memberIds) (group : Snapshot) :
    (step.effect group).members.filter keep = group.members.filter keep := by
  -- matches of the step are not kept, neither as they were nor as they become
  have out : ∀ member : Member, member.aci ∈ step.memberIds → keep member = false := by
    intro member about
    apply Bool.eq_false_iff.2
    exact fun kept => h member kept about
  cases step with
  | add member =>
    have self := out member List.mem_cons_self
    simp only [Step.effect, Step.onMembers, placeMember]
    split
    · apply filter_modifyFirst_of_disjoint
      intro old fit
      rw [beq_iff_eq] at fit
      exact ⟨out old (List.mem_singleton.2 fit), self⟩
    · exact filter_append_of_none fun a ha => List.mem_singleton.1 ha ▸ self
  | remove aci =>
    apply filter_eraseP_of_disjoint
    intro member _ kept
    apply Bool.eq_false_iff.2
    intro fit
    exact h member kept (List.mem_singleton.2 (beq_iff_eq.1 fit))
  | changeRole entry =>
    apply filter_modifyFirst_of_disjoint
    intro old fit
    have about : old.aci ∈ [entry.aci] := List.mem_singleton.2 (beq_iff_eq.1 fit)
    exact ⟨out old about, out _ about⟩
  | changeProfileKey entry =>
    apply filter_modifyFirst_of_disjoint
    intro old fit
    have about : old.aci ∈ [entry.aci] := List.mem_singleton.2 (beq_iff_eq.1 fit)
    exact ⟨out old about, out _ about⟩
  | accept member =>
    exact filter_append_of_none fun a ha => List.mem_singleton.1 ha ▸ out member List.mem_cons_self
  | approve revision entry =>
    apply filter_append_of_none
    intro member admitted
    -- whoever is approved is the one who asked
    apply out
    have aci := List.mem_map_of_mem (f := (·.aci)) admitted
    rw [map_find_toMember] at aci
    split at aci
    · exact aci
    · cases aci
  | acceptPni member =>
    exact filter_append_of_none fun a ha => List.mem_singleton.1 ha ▸ out member List.mem_cons_self
  | _ => rfl

/-- Invites that a step does not touch stay. -/
theorem filter_invites_effect {keep : Invite → Bool} {group : Snapshot}
    (h : ∀ invite, invite ∈ group.invites ∨ step = .invite invite → keep invite = true →
      ¬ step.touchesInvite invite) :
    (step.effect group).invites.filter keep = group.invites.filter keep := by
  cases step with
  | add member =>
    simp only [Step.effect, Step.onInvites, List.filter_filter]
    apply List.filter_congr
    intro invite mem
    cases kept : keep invite with
    | false => rfl
    | true =>
      have other : invite.invitee ≠ member.aci := h invite (Or.inl mem) kept
      simp [other.symm]
  | invite entry =>
    -- a known ciphertext adds nothing; otherwise the new invite is not one that is kept
    simp only [Step.effect, Step.onInvites]
    split
    · rfl
    · apply filter_append_of_none
      intro a ha
      apply Bool.eq_false_iff.2
      intro kept
      rw [List.mem_singleton.1 ha] at kept
      exact h entry (Or.inr rfl) kept rfl
  | revoke entry =>
    apply filter_eraseP_of_disjoint
    intro invite mem kept
    exact beq_eq_false_iff_ne.2 (h invite (Or.inl mem) kept)
  | accept member =>
    apply filter_eraseP_of_disjoint
    intro invite mem kept
    exact beq_eq_false_iff_ne.2 (h invite (Or.inl mem) kept)
  | acceptPni member =>
    apply filter_eraseP_of_disjoint
    intro invite mem kept
    exact beq_eq_false_iff_ne.2 (h invite (Or.inl mem) kept)
  | _ => rfl

/-- Requests from other accounts stay. -/
theorem filter_requests_effect {keep : JoinRequest → Bool}
    (h : ∀ request, keep request = true → request.aci ∉ step.requestIds) (group : Snapshot) :
    (step.effect group).requests.filter keep = group.requests.filter keep := by
  have apart : ∀ {id : Bytes}, step.requestIds = [id] → ∀ request ∈ group.requests,
      keep request = true → (request.aci == id) = false := by
    intro id about request _ kept
    apply beq_eq_false_iff_ne.2
    intro same
    apply h request kept
    rw [about]
    exact List.mem_singleton.2 same
  cases step with
  | add member =>
    simp only [Step.effect, Step.onRequests, List.filter_filter]
    apply List.filter_congr
    intro request _
    cases kept : keep request with
    | false => rfl
    | true =>
      have other : request.aci ≠ member.aci := fun same =>
        h request kept (List.mem_singleton.2 same)
      simp [other.symm]
  | request entry =>
    apply filter_append_of_none
    intro a ha
    apply Bool.eq_false_iff.2
    intro kept
    exact h a kept (by rw [List.mem_singleton.1 ha]; exact List.mem_cons_self)
  | refuse aci => exact filter_eraseP_of_disjoint (apart rfl)
  | approve revision entry => exact filter_eraseP_of_disjoint (apart rfl)
  | _ => rfl

/-- Bans of other identities stay. -/
theorem filter_bans_effect {keep : Ban → Bool}
    (h : ∀ ban, keep ban = true → ban.serviceId ∉ step.bannedIds) (group : Snapshot) :
    (step.effect group).bans.filter keep = group.bans.filter keep := by
  cases step with
  | ban entry =>
    simp only [Step.effect, Step.onBans]
    split
    · rfl
    · apply filter_append_of_none
      intro a ha
      apply Bool.eq_false_iff.2
      intro kept
      exact h a kept (by rw [List.mem_singleton.1 ha]; exact List.mem_cons_self)
  | liftBan entry =>
    apply filter_eraseP_of_disjoint
    intro ban _ kept
    exact beq_eq_false_iff_ne.2 fun same => h ban kept (List.mem_singleton.2 same)
  | _ => rfl

theorem count_map_key {α : Type} (key : α → Bytes) (entries : List α) (id : Bytes) :
    (entries.map key).count id = (entries.filter (key · == id)).length := by
  rw [List.count_eq_countP, List.countP_map, List.countP_eq_length_filter]
  rfl

theorem count_memberAcis_effect {id : Bytes} (h : id ∉ step.memberIds) (group : Snapshot) :
    (step.effect group).memberAcis.count id = group.memberAcis.count id := by
  have same :
      (step.effect group).members.filter (·.aci == id) = group.members.filter (·.aci == id) :=
    filter_members_effect (fun member fit => beq_iff_eq.1 fit ▸ h) group
  rw [memberAcis, memberAcis, count_map_key, count_map_key, same]

theorem count_requesters_effect {id : Bytes} (h : id ∉ step.requestIds) (group : Snapshot) :
    (step.effect group).requesters.count id = group.requesters.count id := by
  have same :
      (step.effect group).requests.filter (·.aci == id) = group.requests.filter (·.aci == id) :=
    filter_requests_effect (fun request fit => beq_iff_eq.1 fit ▸ h) group
  rw [requesters, requesters, count_map_key, count_map_key, same]

theorem count_banned_effect {id : Bytes} (h : id ∉ step.bannedIds) (group : Snapshot) :
    (step.effect group).banned.count id = group.banned.count id := by
  have same :
      (step.effect group).bans.filter (·.serviceId == id) = group.bans.filter (·.serviceId == id) :=
    filter_bans_effect (fun ban fit => beq_iff_eq.1 fit ▸ h) group
  rw [banned, banned, count_map_key, count_map_key, same]

/-- The group without its lists. -/
def bare (group : Snapshot) : Snapshot :=
  { group with members := [], invites := [], requests := [], bans := [] }

/-- All steps but one leave the attributes. -/
theorem bare_effect (h : ∀ change, step ≠ .setAttributes change) (group : Snapshot) :
    (step.effect group).bare = group.bare := by
  cases step with
  | setAttributes change => exact absurd rfl (h change)
  | _ => rfl

/-! ### Steps one after the other -/

/-- What no step changes, steps one after the other do not change. -/
theorem after_eq {β : Type} (view : Snapshot → β) {steps : List Step}
    (h : ∀ step ∈ steps, ∀ group, view (step.effect group) = view group) (group : Snapshot) :
    view (group.after steps) = view group := by
  apply after_keeps (P := fun next => view next = view group)
  · intro step hs next same
    exact (h step hs next).trans same
  · rfl

theorem filter_members_after {keep : Member → Bool} {steps : List Step}
    (h : ∀ member, keep member = true → member.aci ∉ steps.flatMap Step.memberIds)
    (group : Snapshot) : (group.after steps).members.filter keep = group.members.filter keep := by
  apply after_eq fun g => g.members.filter keep
  intro step hs
  apply filter_members_effect
  intro member kept about
  exact h member kept (List.mem_flatMap.2 ⟨step, hs, about⟩)

theorem filter_invites_after {keep : Invite → Bool} {steps : List Step}
    (h : ∀ invite, keep invite = true → ∀ step ∈ steps, ¬ step.touchesInvite invite)
    (group : Snapshot) : (group.after steps).invites.filter keep = group.invites.filter keep := by
  apply after_eq fun g => g.invites.filter keep
  intro step hs group
  apply filter_invites_effect
  intro invite _ kept
  exact h invite kept step hs

theorem filter_requests_after {keep : JoinRequest → Bool} {steps : List Step}
    (h : ∀ request, keep request = true → request.aci ∉ steps.flatMap Step.requestIds)
    (group : Snapshot) :
    (group.after steps).requests.filter keep = group.requests.filter keep := by
  apply after_eq fun g => g.requests.filter keep
  intro step hs
  apply filter_requests_effect
  intro request kept about
  exact h request kept (List.mem_flatMap.2 ⟨step, hs, about⟩)

theorem filter_bans_after {keep : Ban → Bool} {steps : List Step}
    (h : ∀ ban, keep ban = true → ban.serviceId ∉ steps.flatMap Step.bannedIds)
    (group : Snapshot) : (group.after steps).bans.filter keep = group.bans.filter keep := by
  apply after_eq fun g => g.bans.filter keep
  intro step hs
  apply filter_bans_effect
  intro ban kept about
  exact h ban kept (List.mem_flatMap.2 ⟨step, hs, about⟩)

/-- What only one of several steps changes is there before it as at first, and stays as it leaves
it. -/
theorem after_eq_around {β : Type} (view : Snapshot → β) {before later : List Step}
    (h : ∀ step ∈ before ++ later, ∀ group, view (step.effect group) = view group)
    (group : Snapshot) (step : Step) :
    view (group.after before) = view group
      ∧ view (group.after (before ++ step :: later)) = view (step.effect (group.after before)) := by
  constructor
  · exact after_eq view (fun s hs => h s (List.mem_append_left _ hs)) group
  · rw [after_append, after_cons]
    exact after_eq view (fun s hs => h s (List.mem_append_right _ hs)) _

theorem mem_invites_after {group : Snapshot} {steps : List Step} {invite : Invite}
    (h : invite ∈ (group.after steps).invites) :
    invite ∈ group.invites ∨ .invite invite ∈ steps := by
  induction steps generalizing group with
  | nil => exact Or.inl h
  | cons step rest ih =>
    -- an invite that is there in the end was there after the first step, or came with a later one
    rcases ih h with old | new
    · rcases mem_invites_effect old with old | rfl
      · exact Or.inl old
      · exact Or.inr List.mem_cons_self
    · exact Or.inr (List.mem_cons_of_mem _ new)

/-- A member stays one until removed. -/
theorem mem_memberAcis_after {group : Snapshot} {steps : List Step} {id : Bytes}
    (member : id ∈ group.memberAcis) (stays : .remove id ∉ steps) :
    id ∈ (group.after steps).memberAcis := by
  apply after_keeps (P := fun g => id ∈ g.memberAcis) _ member
  intro step hs g there
  rw [memberAcis_effect]
  cases step with
  | add new =>
    simp only [Step.onAcis]
    split
    · exact there
    · exact List.mem_append_left _ there
  | remove aci =>
    -- only a removal takes a member away, and it is another one
    have other : id ≠ aci := fun same => stays (same ▸ hs)
    exact (List.mem_erase_of_ne other).2 there
  | accept new => exact List.mem_append_left _ there
  | approve revision entry => exact List.mem_append_left _ there
  | acceptPni new => exact List.mem_append_left _ there
  | _ => exact there

/-- Nobody becomes a member by a step that is not about them. -/
theorem not_mem_memberAcis_effect {group : Snapshot} {step : Step} {id : Bytes}
    (other : id ∉ step.memberIds) (stranger : id ∉ group.memberAcis) :
    id ∉ (step.effect group).memberAcis := by
  rw [← List.count_eq_zero] at stranger ⊢
  exact (count_memberAcis_effect other group).trans stranger

theorem mem_invites_effect_of_not_touches {group : Snapshot} {step : Step} {invite : Invite}
    (apart : ¬ step.touchesInvite invite) (h : invite ∈ group.invites) :
    invite ∈ (step.effect group).invites := by
  -- the invite is followed as the list of its copies
  have same : (step.effect group).invites.filter (· = invite) =
      group.invites.filter (· = invite) := by
    apply filter_invites_effect
    intro other _ fit
    rw [of_decide_eq_true fit]
    exact apart
  have selected : invite ∈ group.invites.filter (· = invite) :=
    List.mem_filter.2 ⟨h, decide_eq_true rfl⟩
  rw [← same] at selected
  exact List.mem_of_mem_filter selected

/-- Whoever is invited stays so until they come in or the invite is revoked. -/
theorem mem_invitees_after {group : Snapshot} {steps : List Step} {id : Bytes}
    (invited : id ∈ group.invitees) (notAdded : ∀ member, .add member ∈ steps → member.aci ≠ id)
    (notRevoked : ∀ entry, .revoke entry ∈ steps → ∀ invite ∈ group.invites,
      invite.ciphertext = entry.ciphertext → invite.invitee ≠ id)
    (notAccepted : ∀ member, .accept member ∈ steps → member.aci ≠ id)
    (notPniAccepted : ∀ member, .acceptPni member ∈ steps → member.pni ≠ id) :
    id ∈ (group.after steps).invitees := by
  obtain ⟨invite, there, rfl⟩ := List.mem_map.1 invited
  apply List.mem_map_of_mem
  -- the invite itself is followed, as its entry does not change while it is there
  apply after_keeps (P := fun g => invite ∈ g.invites) _ there
  intro step hs g mem
  cases step with
  | invite entry =>
    -- the one step that touches an invite by its ciphertext and leaves it
    simp only [Step.effect, Step.onInvites]
    split
    · exact mem
    · exact List.mem_append_left _ mem
  | add member => exact mem_invites_effect_of_not_touches (notAdded member hs ∘ Eq.symm) mem
  | revoke entry =>
    exact mem_invites_effect_of_not_touches
      (fun same => notRevoked entry hs invite there same rfl) mem
  | accept member => exact mem_invites_effect_of_not_touches (notAccepted member hs ∘ Eq.symm) mem
  | acceptPni member =>
    exact mem_invites_effect_of_not_touches (notPniAccepted member hs ∘ Eq.symm) mem
  | _ => exact mem

private theorem bare_after_map {α : Type} {step : α → Step}
    (h : ∀ entry change, step entry ≠ .setAttributes change) (group : Snapshot) (entries : List α) :
    (group.after (entries.map step)).bare = group.bare := by
  apply after_eq bare
  intro s hs group
  obtain ⟨entry, -, rfl⟩ := List.mem_map.1 hs
  exact bare_effect (h entry) group

/-- A change sets the attributes as if it did nothing else. -/
theorem bare_after_steps (group : Snapshot) (change : Change) :
    (group.after change.steps).bare = group.bare.setAttributes change := by
  have sets : ∀ group : Snapshot,
      (group.after [.setAttributes change]).bare = group.bare.setAttributes change := fun _ => rfl
  simp only [Change.steps, after_append, bare_after_map, sets, ne_eq, reduceCtorEq,
    not_false_eq_true, implies_true]

end Snapshot

end SealedGroups
