import SealedGroups.Proofs.Settled

/-!
# Portions of a group

A choice of identities, ciphertexts and bans selects a part of every list of a group (`Portion`). A
step that names nothing outside a portion acts on it by looking at that portion only, and leaves the
rest of the group as it is. So what steps do to a portion is the same in all groups that agree on
it, and does not depend on steps within the rest that are performed in between
(`AgreesOn.after_filter`).

An invite is found by its ciphertext or by its invitee. It lies in a portion by its invitee, or by
its ciphertext if the invitee cannot be read. That both ways to find an invite lead to the same
portion is where sealings have to be coherent.
-/

namespace SealedGroups

/-- A choice of identities, of ciphertexts of unreadable invites, and of banned identities. -/
structure Portion where
  people : Bytes → Bool
  ciphertexts : Bytes → Bool
  banned : Bytes → Bool

namespace Portion

/-- Whatever is not in the portion. -/
def rest (portion : Portion) : Portion where
  people id := !portion.people id
  ciphertexts c := !portion.ciphertexts c
  banned id := !portion.banned id

/-- Whether the invite of an identity, with its ciphertext, is in the portion. -/
def holds (portion : Portion) (invitee ciphertext : Bytes) : Bool :=
  if invitee = [] then portion.ciphertexts ciphertext else portion.people invitee

variable {portion : Portion} {id ciphertext : Bytes}

@[simp] theorem rest_rest : portion.rest.rest = portion := by
  simp only [rest, Bool.not_not]

theorem holds_of_readable (readable : id ≠ []) : portion.holds id ciphertext = portion.people id :=
  if_neg readable

@[simp] theorem holds_rest : portion.rest.holds id ciphertext = !portion.holds id ciphertext := by
  unfold holds
  split <;> rfl

end Portion

namespace Step

/-- Whether a step says whom it is about. An invite and its revocation may leave that to the
ciphertext. -/
def Named : Step → Prop
  | .invite _ => True
  | .revoke _ => True
  | step => [] ∉ step.ids

instance : DecidablePred Named
  | .invite _ | .revoke _ => inferInstanceAs (Decidable True)
  | .add _ | .remove _ | .changeRole _ | .changeProfileKey _ | .accept _ | .setAttributes _
  | .request _ | .refuse _ | .approve _ _ | .ban _ | .liftBan _ | .acceptPni _ =>
    inferInstanceAs (Decidable ([] ∉ _))

/-- Whether all that a step names is in the portion. Only invites and revocations may leave out whom
they are about. -/
def Within (portion : Portion) : Step → Prop
  | .invite entry => portion.holds entry.invitee entry.ciphertext
  | .revoke entry => portion.holds entry.invitee entry.ciphertext
  | .ban entry => portion.banned entry.serviceId
  | .liftBan entry => portion.banned entry.serviceId
  | step => ∀ id ∈ step.ids, id ≠ [] ∧ portion.people id

variable {portion : Portion} {step : Step}

/-- A step that names its people is within a portion that has all it names. -/
theorem Named.within (named : step.Named)
    (people : ∀ id ∈ step.ids, id ≠ [] → portion.people id = true)
    (ciphertexts : ∀ c ∈ step.ciphertexts, portion.ciphertexts c = true)
    (banned : ∀ id ∈ step.bannedIds, portion.banned id = true) : step.Within portion := by
  -- a portion holds what can be read by the person and everything else by the ciphertext
  have sealing : ∀ invitee ciphertext, invitee ∈ step.ids → ciphertext ∈ step.ciphertexts →
      portion.holds invitee ciphertext = true := by
    intro invitee ciphertext hid hc
    unfold Portion.holds
    split
    · exact ciphertexts _ hc
    · exact people _ hid ‹_›
  cases step with
  | invite entry => exact sealing _ _ List.mem_cons_self List.mem_cons_self
  | revoke entry => exact sealing _ _ List.mem_cons_self List.mem_cons_self
  | ban entry => exact banned _ List.mem_cons_self
  | liftBan entry => exact banned _ List.mem_cons_self
  | _ =>
    intro id hid
    have readable : id ≠ [] := fun empty => named (empty ▸ hid)
    exact ⟨readable, people id hid readable⟩

/-- Setting attributes names nobody. -/
theorem within_setAttributes (portion : Portion) (change : Change) :
    (Step.setAttributes change).Within portion := by
  intro id about
  cases about

theorem Within.people_of_memberIds (within : step.Within portion) :
    ∀ id ∈ step.memberIds, portion.people id = true := by
  intro id h
  cases step with
  | invite entry => cases h
  | revoke entry => cases h
  | ban entry => cases h
  | liftBan entry => cases h
  | _ => exact (within id (memberIds_subset_ids _ h)).2

theorem Within.people_of_requestIds (within : step.Within portion) :
    ∀ id ∈ step.requestIds, portion.people id = true := by
  intro id h
  cases step with
  | invite entry => cases h
  | revoke entry => cases h
  | ban entry => cases h
  | liftBan entry => cases h
  | _ => exact (within id (requestIds_subset_ids _ h)).2

theorem Within.banned (within : step.Within portion) :
    ∀ id ∈ step.bannedIds, portion.banned id = true := by
  intro id h
  cases step with
  | ban entry => exact List.mem_singleton.1 h ▸ within
  | liftBan entry => exact List.mem_singleton.1 h ▸ within
  | _ => cases h

/-- By whatever an invite is found, it is in the portion that the step is in. -/
theorem Within.holds_of_touches {sealings : List (Bytes × Bytes)} (within : step.Within portion)
    (coherent : Coherent sealings) (sealed : step.sealings ⊆ sealings) {invite : Invite}
    (known : (invite.invitee, invite.ciphertext) ∈ sealings) (touches : step.touchesInvite invite) :
    portion.holds invite.invitee invite.ciphertext = true := by
  have named : ∀ id, id ≠ [] ∧ portion.people id = true → invite.invitee = id →
      portion.holds invite.invitee invite.ciphertext = true := by
    rintro id ⟨readable, there⟩ rfl
    rw [Portion.holds_of_readable readable]
    exact there
  -- whoever has the ciphertext has the invitee as well, as they belong together
  have found : ∀ entry ∈ step.sealings, invite.ciphertext = entry.2 →
      portion.holds entry.1 entry.2 = true →
        portion.holds invite.invitee invite.ciphertext = true := by
    intro entry mem ciphertext there
    have invitee : invite.invitee = entry.1 := (coherent _ known _ (sealed mem)).1 ciphertext
    rw [invitee, ciphertext]
    exact there
  cases step with
  | add member => exact named _ (within _ List.mem_cons_self) touches
  | invite entry => exact found _ List.mem_cons_self touches within
  | revoke entry => exact found _ List.mem_cons_self touches within
  | accept member => exact named _ (within _ List.mem_cons_self) touches
  | acceptPni member => exact named _ (within _ (List.mem_cons_of_mem _ List.mem_cons_self)) touches
  | _ => exact absurd touches id

end Step

namespace Snapshot

/-! ### What a step does to what it is about -/

section

variable {step : Step}

private theorem filter_append_of_all {α : Type} {keep : α → Bool} {entries new : List α}
    (h : ∀ a ∈ new, keep a = true) :
    (entries ++ new).filter keep = entries.filter keep ++ new := by
  rw [List.filter_append, List.filter_eq_self.2 h]

theorem filter_members_effect_of_kept {keep : Bytes → Bool}
    (h : ∀ id ∈ step.memberIds, keep id = true) (group : Snapshot) :
    (step.effect group).members.filter (keep ·.aci) =
      step.onMembers (group.requests.filter (keep ·.aci)) (group.members.filter (keep ·.aci)) := by
  -- matches of a person in the portion are in it themselves
  have fits : ∀ {id : Bytes}, keep id = true → ∀ member : Member,
      (member.aci == id) = true → keep member.aci = true := by
    intro id kept member fit
    rw [beq_iff_eq.1 fit]
    exact kept
  cases step with
  | add member =>
    have self := h _ List.mem_cons_self
    simp only [Step.effect, Step.onMembers, placeMember, any_filter_of_kept fun m _ => fits self m]
    split
    · exact filter_modifyFirst_of_kept (fun old fit => ⟨fits self old fit, self⟩) _
    · exact filter_append_of_all fun m hm => List.mem_singleton.1 hm ▸ self
  | remove aci => exact filter_eraseP_of_kept fun m _ => fits (h _ List.mem_cons_self) m
  | changeRole entry =>
    have self := h _ List.mem_cons_self
    apply filter_modifyFirst_of_kept
    exact fun old fit => ⟨fits self old fit, fits self old fit⟩
  | changeProfileKey entry =>
    have self := h _ List.mem_cons_self
    apply filter_modifyFirst_of_kept
    exact fun old fit => ⟨fits self old fit, fits self old fit⟩
  | accept member =>
    exact filter_append_of_all fun m hm => List.mem_singleton.1 hm ▸ h _ List.mem_cons_self
  | approve revision entry =>
    have self := h _ List.mem_cons_self
    -- the request that is approved is looked up among those of the portion
    have found : (group.requests.filter (keep ·.aci)).find? (·.aci == entry.aci) =
        group.requests.find? (·.aci == entry.aci) := by
      apply find_filter_of_kept
      intro request _ fit
      rw [beq_iff_eq.1 fit]
      exact self
    simp only [Step.effect, Step.onMembers, found]
    apply filter_append_of_all
    intro member admitted
    have aci := List.mem_map_of_mem (f := (·.aci)) admitted
    rw [map_find_toMember] at aci
    split at aci
    · rw [List.mem_singleton.1 aci]
      exact self
    · cases aci
  | acceptPni member =>
    exact filter_append_of_all fun m hm => List.mem_singleton.1 hm ▸ h _ List.mem_cons_self
  | _ => rfl

theorem filter_invites_effect_of_kept {keep : Invite → Bool} {group : Snapshot}
    (brings : ∀ entry, step = .invite entry → keep entry = true)
    (touched : ∀ invite ∈ group.invites, step.touchesInvite invite → keep invite = true) :
    (step.effect group).invites.filter keep = step.onInvites (group.invites.filter keep) := by
  cases step with
  | add member =>
    simp only [Step.effect, Step.onInvites, List.filter_filter, Bool.and_comm]
  | invite entry =>
    -- an invite that the step finds by its ciphertext is one that it touches
    have known : (group.invites.filter keep).any (·.ciphertext == entry.ciphertext) =
        group.invites.any (·.ciphertext == entry.ciphertext) :=
      any_filter_of_kept fun invite mem fit => touched invite mem (beq_iff_eq.1 fit)
    simp only [Step.effect, Step.onInvites, known]
    split
    · rfl
    · exact filter_append_of_all fun new hnew => List.mem_singleton.1 hnew ▸ brings entry rfl
  | revoke entry =>
    exact filter_eraseP_of_kept fun invite mem fit => touched invite mem (beq_iff_eq.1 fit)
  | accept member =>
    exact filter_eraseP_of_kept fun invite mem fit => touched invite mem (beq_iff_eq.1 fit)
  | acceptPni member =>
    exact filter_eraseP_of_kept fun invite mem fit => touched invite mem (beq_iff_eq.1 fit)
  | _ => rfl

theorem filter_requests_effect_of_kept {keep : Bytes → Bool}
    (h : ∀ id ∈ step.requestIds, keep id = true) (group : Snapshot) :
    (step.effect group).requests.filter (keep ·.aci) =
      step.onRequests (group.requests.filter (keep ·.aci)) := by
  have fits : ∀ {id : Bytes}, keep id = true → ∀ request ∈ group.requests,
      (request.aci == id) = true → keep request.aci = true := by
    intro id kept request _ fit
    rw [beq_iff_eq.1 fit]
    exact kept
  cases step with
  | add member =>
    simp only [Step.effect, Step.onRequests, List.filter_filter, Bool.and_comm]
  | request entry =>
    exact filter_append_of_all fun r hr => List.mem_singleton.1 hr ▸ h _ List.mem_cons_self
  | refuse aci => exact filter_eraseP_of_kept (fits (h _ List.mem_cons_self))
  | approve revision entry => exact filter_eraseP_of_kept (fits (h _ List.mem_cons_self))
  | _ => rfl

theorem filter_bans_effect_of_kept {keep : Bytes → Bool}
    (h : ∀ id ∈ step.bannedIds, keep id = true) (group : Snapshot) :
    (step.effect group).bans.filter (keep ·.serviceId) =
      step.onBans (group.bans.filter (keep ·.serviceId)) := by
  have fits : ∀ {id : Bytes}, keep id = true → ∀ ban ∈ group.bans,
      (ban.serviceId == id) = true → keep ban.serviceId = true := by
    intro id kept ban _ fit
    rw [beq_iff_eq.1 fit]
    exact kept
  cases step with
  | ban entry =>
    have self := h _ List.mem_cons_self
    simp only [Step.effect, Step.onBans, any_filter_of_kept (fits self)]
    split
    · rfl
    · exact filter_append_of_all fun b hb => List.mem_singleton.1 hb ▸ self
  | liftBan entry => exact filter_eraseP_of_kept (fits (h _ List.mem_cons_self))
  | _ => rfl

end

/-! ### Groups that agree on a portion -/

/-- Whether two groups have the same entries in a portion, in the same order. -/
structure AgreesOn (portion : Portion) (first second : Snapshot) : Prop where
  members : first.members.filter (portion.people ·.aci) =
    second.members.filter (portion.people ·.aci)
  invites : first.invites.filter (fun i => portion.holds i.invitee i.ciphertext) =
    second.invites.filter fun i => portion.holds i.invitee i.ciphertext
  requests : first.requests.filter (portion.people ·.aci) =
    second.requests.filter (portion.people ·.aci)
  bans : first.bans.filter (portion.banned ·.serviceId) =
    second.bans.filter (portion.banned ·.serviceId)

variable {portion : Portion} {first second group : Snapshot} {step : Step} {steps : List Step}
  {sealings : List (Bytes × Bytes)}

theorem AgreesOn.refl (portion : Portion) (group : Snapshot) : group.AgreesOn portion group :=
  ⟨rfl, rfl, rfl, rfl⟩

theorem AgreesOn.symm (agree : first.AgreesOn portion second) : second.AgreesOn portion first :=
  ⟨agree.members.symm, agree.invites.symm, agree.requests.symm, agree.bans.symm⟩

theorem AgreesOn.trans {third : Snapshot} (agree : first.AgreesOn portion second)
    (further : second.AgreesOn portion third) : first.AgreesOn portion third :=
  ⟨agree.members.trans further.members, agree.invites.trans further.invites,
    agree.requests.trans further.requests, agree.bans.trans further.bans⟩

theorem AgreesOn.mem_memberAcis_iff (agree : first.AgreesOn portion second) {id : Bytes}
    (there : portion.people id = true) : id ∈ first.memberAcis ↔ id ∈ second.memberAcis := by
  -- a person is found among all members exactly if among those of the portion
  have selected : ∀ group : Snapshot,
      id ∈ group.memberAcis ↔ id ∈ (group.members.filter (portion.people ·.aci)).map (·.aci) := by
    intro group
    simp only [memberAcis, List.mem_map, List.mem_filter]
    constructor
    · rintro ⟨member, mem, rfl⟩
      exact ⟨member, ⟨mem, there⟩, rfl⟩
    · rintro ⟨member, ⟨mem, -⟩, same⟩
      exact ⟨member, mem, same⟩
  rw [selected, selected, agree.members]

theorem AgreesOn.mem_invitees_iff (agree : first.AgreesOn portion second) {id : Bytes}
    (there : id ≠ [] ∧ portion.people id = true) : id ∈ first.invitees ↔ id ∈ second.invitees := by
  have selected : ∀ group : Snapshot, id ∈ group.invitees ↔ id ∈
      (group.invites.filter fun i => portion.holds i.invitee i.ciphertext).map (·.invitee) := by
    intro group
    simp only [invitees, List.mem_map, List.mem_filter]
    constructor
    · rintro ⟨invite, mem, rfl⟩
      exact ⟨invite, ⟨mem, (Portion.holds_of_readable there.1).trans there.2⟩, rfl⟩
    · rintro ⟨invite, ⟨mem, -⟩, same⟩
      exact ⟨invite, mem, same⟩
  rw [selected, selected, agree.invites]

/-- Whether a step is ready is decided within its portion. -/
theorem AgreesOn.ready_iff (agree : first.AgreesOn portion second) (within : step.Within portion) :
    step.ready first ↔ step.ready second := by
  cases step with
  | remove aci => exact agree.mem_memberAcis_iff (within _ List.mem_cons_self).2
  | changeRole entry =>
    exact and_congr_right' (agree.mem_memberAcis_iff (within _ List.mem_cons_self).2)
  | changeProfileKey entry => exact agree.mem_memberAcis_iff (within _ List.mem_cons_self).2
  | invite entry =>
    apply forall_congr'
    intro readable
    have there : portion.people entry.invitee = true :=
      (Portion.holds_of_readable readable).symm.trans within
    exact not_congr (agree.mem_memberAcis_iff there)
  | accept member => exact agree.mem_invitees_iff (within _ List.mem_cons_self)
  | acceptPni member =>
    exact agree.mem_invitees_iff (within _ (List.mem_cons_of_mem _ List.mem_cons_self))
  | _ => exact Iff.rfl

/-! ### What a step does to the portion it is in, and to the rest -/

theorem sealings_effect (known : group.sealings ⊆ sealings) (sealed : step.sealings ⊆ sealings) :
    (step.effect group).sealings ⊆ sealings := by
  intro sealing mem
  obtain ⟨invite, there, rfl⟩ := List.mem_map.1 mem
  rcases mem_invites_effect there with old | rfl
  · exact known (List.mem_map_of_mem old)
  · exact sealed List.mem_cons_self

theorem sealings_after (known : group.sealings ⊆ sealings)
    (sealed : ∀ step ∈ steps, step.sealings ⊆ sealings) :
    (group.after steps).sealings ⊆ sealings := by
  apply after_keeps (P := fun g => g.sealings ⊆ sealings) _ known
  intro step hs g known
  exact sealings_effect known (sealed step hs)

/-- A step within a portion does the same to it in groups that agree on it. -/
theorem AgreesOn.effect (agree : first.AgreesOn portion second) (within : step.Within portion)
    (coherent : Coherent sealings) (sealed : step.sealings ⊆ sealings)
    (known₁ : first.sealings ⊆ sealings) (known₂ : second.sealings ⊆ sealings) :
    (step.effect first).AgreesOn portion (step.effect second) := by
  have brings : ∀ entry, step = .invite entry →
      portion.holds entry.invitee entry.ciphertext = true := by
    rintro entry rfl
    exact within
  -- invites that are touched belong to the portion on either side
  have touched : ∀ group : Snapshot, group.sealings ⊆ sealings → ∀ invite ∈ group.invites,
      step.touchesInvite invite → portion.holds invite.invitee invite.ciphertext = true := by
    intro group known invite mem touches
    exact within.holds_of_touches coherent sealed (known (List.mem_map_of_mem mem)) touches
  constructor
  · rw [filter_members_effect_of_kept within.people_of_memberIds,
      filter_members_effect_of_kept within.people_of_memberIds,
      agree.members, agree.requests]
  · rw [filter_invites_effect_of_kept brings (touched first known₁),
      filter_invites_effect_of_kept brings (touched second known₂), agree.invites]
  · rw [filter_requests_effect_of_kept within.people_of_requestIds,
      filter_requests_effect_of_kept within.people_of_requestIds, agree.requests]
  · rw [filter_bans_effect_of_kept within.banned, filter_bans_effect_of_kept within.banned,
      agree.bans]

/-- A step within the rest leaves a portion as it is. -/
theorem agreesOn_effect (within : step.Within portion.rest) (coherent : Coherent sealings)
    (sealed : step.sealings ⊆ sealings) (known : group.sealings ⊆ sealings) :
    (step.effect group).AgreesOn portion group := by
  have out : ∀ {b : Bool}, b = true → (!b) = true → False := by
    intro b yes no
    rw [yes] at no
    cases no
  constructor
  · apply filter_members_effect
    intro member kept about
    exact out kept (within.people_of_memberIds _ about)
  · -- an invite that is touched belongs to the rest, so none that is kept is touched
    apply filter_invites_effect
    intro invite there kept touches
    have known : (invite.invitee, invite.ciphertext) ∈ sealings := by
      rcases there with old | rfl
      · exact known (List.mem_map_of_mem old)
      · exact sealed List.mem_cons_self
    have other := within.holds_of_touches coherent sealed known touches
    rw [Portion.holds_rest] at other
    exact out kept other
  · apply filter_requests_effect
    intro request kept about
    exact out kept (within.people_of_requestIds _ about)
  · apply filter_bans_effect
    intro ban kept about
    exact out kept (within.banned _ about)

/-! ### Steps one after the other -/

/-- What steps do to a portion is done by those of them that are within it. -/
theorem AgreesOn.after_filter (keep : Step → Bool) (coherent : Coherent sealings)
    (sealed : ∀ step ∈ steps, step.sealings ⊆ sealings)
    (inside : ∀ step ∈ steps, keep step = true → step.Within portion)
    (outside : ∀ step ∈ steps, keep step = false → step.Within portion.rest)
    (agree : first.AgreesOn portion second)
    (known₁ : first.sealings ⊆ sealings) (known₂ : second.sealings ⊆ sealings) :
    (first.after steps).AgreesOn portion (second.after (steps.filter keep)) := by
  induction steps generalizing first second with
  | nil => exact agree
  | cons step rest ih =>
    obtain ⟨here, sealed⟩ := List.forall_mem_cons.1 sealed
    obtain ⟨stepInside, inside⟩ := List.forall_mem_cons.1 inside
    obtain ⟨stepOutside, outside⟩ := List.forall_mem_cons.1 outside
    cases kept : keep step with
    | true =>
      -- inside: both sides take the step
      rw [List.filter_cons_of_pos kept]
      have same := agree.effect (stepInside kept) coherent here known₁ known₂
      exact ih sealed inside outside same (sealings_effect known₁ here)
        (sealings_effect known₂ here)
    | false =>
      -- outside: only the left side does, and nobody in the portion notices
      rw [List.filter_cons_of_neg (Bool.eq_false_iff.1 kept)]
      have left := agreesOn_effect (stepOutside kept) coherent here known₁
      exact ih sealed inside outside (left.trans agree) (sealings_effect known₁ here) known₂

/-- Steps within a portion do the same to it in groups that agree on it. -/
theorem AgreesOn.after (coherent : Coherent sealings)
    (sealed : ∀ step ∈ steps, step.sealings ⊆ sealings)
    (inside : ∀ step ∈ steps, step.Within portion) (agree : first.AgreesOn portion second)
    (known₁ : first.sealings ⊆ sealings) (known₂ : second.sealings ⊆ sealings) :
    (first.after steps).AgreesOn portion (second.after steps) := by
  have all := agree.after_filter (fun _ => true) coherent sealed (fun s hs _ => inside s hs)
    (fun _ _ h => by cases h) known₁ known₂
  rw [List.filter_eq_self.2 fun _ _ => rfl] at all
  exact all

/-- Steps within the rest leave a portion as it is. -/
theorem agreesOn_after (coherent : Coherent sealings)
    (sealed : ∀ step ∈ steps, step.sealings ⊆ sealings)
    (outside : ∀ step ∈ steps, step.Within portion.rest) (known : group.sealings ⊆ sealings) :
    (group.after steps).AgreesOn portion group := by
  have none := (AgreesOn.refl portion group).after_filter (fun _ => false) coherent sealed
    (fun _ _ h => by cases h) (fun s hs _ => outside s hs) known known
  rw [List.filter_eq_nil_iff.2 fun _ _ => Bool.false_ne_true] at none
  exact none

/-- Whether steps within a portion can be performed is decided within it. -/
theorem AgreesOn.admits_iff (coherent : Coherent sealings)
    (sealed : ∀ step ∈ steps, step.sealings ⊆ sealings)
    (inside : ∀ step ∈ steps, step.Within portion) (agree : first.AgreesOn portion second)
    (known₁ : first.sealings ⊆ sealings) (known₂ : second.sealings ⊆ sealings) :
    first.admits steps ↔ second.admits steps := by
  induction steps generalizing first second with
  | nil => exact Iff.rfl
  -- both sides are as ready for the step, and agree again behind it
  | cons step rest ih =>
    obtain ⟨here, sealed⟩ := List.forall_mem_cons.1 sealed
    obtain ⟨within, inside⟩ := List.forall_mem_cons.1 inside
    have next := agree.effect within coherent here known₁ known₂
    refine and_congr (agree.ready_iff within) ?_
    exact ih sealed inside next (sealings_effect known₁ here) (sealings_effect known₂ here)

/-! ### A portion and the rest make up the group -/

theorem perm_of_filter {α : Type} {keep : α → Bool} {first second : List α}
    (kept : (first.filter keep).Perm (second.filter keep))
    (others : (first.filter (!keep ·)).Perm (second.filter (!keep ·))) : first.Perm second :=
  calc first.Perm (first.filter keep ++ first.filter (!keep ·)) :=
        (List.filter_append_perm keep first).symm
    List.Perm _ (second.filter keep ++ second.filter (!keep ·)) := kept.append others
    List.Perm _ second := List.filter_append_perm keep second

/-- Groups that agree on a portion and on the rest have the same entries. -/
theorem AgreesOn.perm (agree : first.AgreesOn portion second)
    (others : first.AgreesOn portion.rest second) :
    first.members.Perm second.members ∧ first.invites.Perm second.invites
      ∧ first.requests.Perm second.requests ∧ first.bans.Perm second.bans := by
  have invites := others.invites
  simp only [Portion.holds_rest] at invites
  exact ⟨perm_of_filter (.of_eq agree.members) (.of_eq others.members),
    perm_of_filter (.of_eq agree.invites) (.of_eq invites),
    perm_of_filter (.of_eq agree.requests) (.of_eq others.requests),
    perm_of_filter (.of_eq agree.bans) (.of_eq others.bans)⟩

end Snapshot

end SealedGroups
