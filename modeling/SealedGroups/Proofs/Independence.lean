import SealedGroups.Proofs.Difference.Entrance
import SealedGroups.Proofs.Portion
import SealedGroups.Samples

/-!
# Independent changes commute

Two changes that name nobody and no invite in common, and set no attribute both, can be applied in
either order, with the same result up to the order of the entries (`apply_comm`). The first change
is within the portion of the group that it names, and the second within the rest; so neither finds
anything else there when the other has come before.
-/

namespace SealedGroups

-- what the steps are one by one is of no interest here
attribute [local irreducible] Change.steps

/-- What a change names. -/
def Change.portion (change : Change) : Portion where
  people id := (change.steps.flatMap Step.ids).contains id
  ciphertexts c := (change.steps.flatMap Step.ciphertexts).contains c
  banned id := (change.steps.flatMap Step.bannedIds).contains id

/-- Whether no attribute is set by both changes. -/
structure Change.SetsApart (first second : Change) : Prop where
  title : first.title = none ∨ second.title = none
  avatar : first.avatar = none ∨ second.avatar = none
  timer : first.timer = none ∨ second.timer = none
  attributesAccess : ¬ first.attributesAccess.isSet ∨ ¬ second.attributesAccess.isSet
  membersAccess : ¬ first.membersAccess.isSet ∨ ¬ second.membersAccess.isSet
  inviteLinkAccess : ¬ first.inviteLinkAccess.isSet ∨ ¬ second.inviteLinkAccess.isSet
  linkPassword : first.linkPassword = [] ∨ second.linkPassword = []
  description : first.description = none ∨ second.description = none
  announcements : ¬ first.announcements.isSet ∨ ¬ second.announcements.isSet

/-! ### What a change names, and what others name -/

section

variable {change : Change} {step : Step}

/-- A step of a change is within what the change names. -/
theorem Step.Named.within_portion (named : step.Named) (mem : step ∈ change.steps) :
    step.Within change.portion := by
  apply named.within
  · intro id hid _
    exact List.contains_iff_mem.2 (List.mem_flatMap.2 ⟨step, mem, hid⟩)
  · intro c hc
    exact List.contains_iff_mem.2 (List.mem_flatMap.2 ⟨step, mem, hc⟩)
  · intro id hid
    exact List.contains_iff_mem.2 (List.mem_flatMap.2 ⟨step, mem, hid⟩)

/-- A step apart from all steps of a change is within what the change does not name. -/
theorem Step.Named.within_rest (named : step.Named) (apart : ∀ s ∈ change.steps, s.Apart step) :
    step.Within change.portion.rest := by
  apply named.within
  · intro id hid readable
    apply not_contains_iff.2
    intro there
    obtain ⟨s, hs, same⟩ := List.mem_flatMap.1 there
    exact (apart s hs).1 id same readable hid
  · intro c hc
    apply not_contains_iff.2
    intro there
    obtain ⟨s, hs, same⟩ := List.mem_flatMap.1 there
    exact (apart s hs).2.1 c same hc
  · intro id hid
    apply not_contains_iff.2
    intro there
    obtain ⟨s, hs, same⟩ := List.mem_flatMap.1 there
    exact (apart s hs).2.2 id same hid

end

namespace Snapshot

/-! ### Attributes -/

private theorem text_comm {new₁ new₂ : Option Text} (apart : new₁ = none ∨ new₂ = none)
    (old : String) :
    (new₂.map (·.value)).getD ((new₁.map (·.value)).getD old) =
      (new₁.map (·.value)).getD ((new₂.map (·.value)).getD old) := by
  rcases apart with rfl | rfl <;> rfl

private theorem orKeep_comm {new₁ new₂ : Access} (apart : ¬ new₁.isSet ∨ ¬ new₂.isSet)
    (old : Access) : new₂.orKeep (new₁.orKeep old) = new₁.orKeep (new₂.orKeep old) := by
  unfold Access.orKeep
  rcases apart with unset | unset <;> simp only [if_neg unset]

private theorem accessAfter_comm {first second : Change} (apart : first.SetsApart second)
    (group : Snapshot) :
    (group.setAttributes first).accessAfter second =
      (group.setAttributes second).accessAfter first := by
  simp only [setAttributes, accessAfter]
  by_cases set₁ : (first.attributesAccess.isSet || first.membersAccess.isSet
      || first.inviteLinkAccess.isSet) = true <;>
    by_cases set₂ : (second.attributesAccess.isSet || second.membersAccess.isSet
      || second.inviteLinkAccess.isSet) = true <;>
    simp only [set₁, set₂, if_true, Bool.false_eq_true, if_false, Option.getD_some]
  -- where both set a right, it is not the same one
  rw [orKeep_comm apart.attributesAccess, orKeep_comm apart.membersAccess,
    orKeep_comm apart.inviteLinkAccess]

/-- Attributes that are not set by both changes may be set in either order. -/
theorem setAttributes_comm {first second : Change} (apart : first.SetsApart second)
    (group : Snapshot) :
    (group.setAttributes first).setAttributes second =
      (group.setAttributes second).setAttributes first := by
  have access := accessAfter_comm apart group
  have timer : (second.timer.orElse fun _ => first.timer.orElse fun _ => group.timer) =
      first.timer.orElse fun _ => second.timer.orElse fun _ => group.timer := by
    rcases apart.timer with unset | unset <;> rw [unset] <;> rfl
  rw [setAttributes, access]
  simp only [setAttributes, text_comm apart.title, text_comm apart.avatar,
    text_comm apart.description, timer]
  congr 1
  · rcases apart.linkPassword with unset | unset <;> simp [unset]
  · rcases apart.announcements with unset | unset <;> simp only [if_neg unset]

/-! ### A change and a portion of the group -/

variable {portion : Portion} {group other result : Snapshot} {change : Change}
  {sealings : List (Bytes × Bytes)}

theorem bare_apply (applied : group.apply change = .ok result) :
    result.bare = (group.bare.setAttributes change).atRevision change.revision := by
  obtain ⟨-, rfl⟩ := apply_eq_ok_iff.1 applied
  exact bare_after_steps (group.atRevision change.revision) change

theorem sealings_apply (sealed : change.sealings ⊆ sealings) (known : group.sealings ⊆ sealings)
    (applied : group.apply change = .ok result) : result.sealings ⊆ sealings := by
  obtain ⟨-, rfl⟩ := apply_eq_ok_iff.1 applied
  have known : (group.atRevision change.revision).sealings ⊆ sealings := known
  apply sealings_after known
  intro step hs
  exact List.Subset.trans (Change.sealings_of_mem_steps hs) sealed

/-- A change within the rest leaves a portion as it is. -/
theorem agreesOn_apply (coherent : Coherent sealings) (sealed : change.sealings ⊆ sealings)
    (outside : ∀ step ∈ change.steps, step.Within portion.rest) (known : group.sealings ⊆ sealings)
    (applied : group.apply change = .ok result) : result.AgreesOn portion group := by
  obtain ⟨-, rfl⟩ := apply_eq_ok_iff.1 applied
  have known : (group.atRevision change.revision).sealings ⊆ sealings := known
  have same := agreesOn_after coherent
    (fun step hs => List.Subset.trans (Change.sealings_of_mem_steps hs) sealed) outside known
  exact same.trans ⟨rfl, rfl, rfl, rfl⟩

/-- A change within a portion that can be applied can be applied, with the same effect on the
portion, to every group that agrees on it. -/
theorem AgreesOn.apply (agree : other.AgreesOn portion group) (coherent : Coherent sealings)
    (sealed : change.sealings ⊆ sealings) (inside : ∀ step ∈ change.steps, step.Within portion)
    (known : group.sealings ⊆ sealings) (otherKnown : other.sealings ⊆ sealings)
    (applied : group.apply change = .ok result) :
    ∃ next, other.apply change = .ok next ∧ next.AgreesOn portion result := by
  obtain ⟨admits, rfl⟩ := apply_eq_ok_iff.1 applied
  have sealed : ∀ step ∈ change.steps, step.sealings ⊆ sealings :=
    fun step hs => List.Subset.trans (Change.sealings_of_mem_steps hs) sealed
  have agree : (other.atRevision change.revision).AgreesOn portion
      (group.atRevision change.revision) := { agree with }
  refine ⟨_, apply_eq_ok_iff.2 ⟨?_, rfl⟩, ?_⟩
  · exact (agree.admits_iff coherent sealed inside otherKnown known).2 admits
  · exact agree.after coherent sealed inside otherKnown known

/-! ### Two changes -/

/-- Changes with nothing in common can be applied in either order. -/
theorem apply_comm {group middle result : Snapshot} {first second : Change}
    (apart : ∀ s ∈ first.steps, ∀ t ∈ second.steps, s.Apart t) (sets : first.SetsApart second)
    (named : ∀ step ∈ first.steps ++ second.steps, step.Named)
    (coherent : Coherent (group.sealings ++ first.sealings ++ second.sealings))
    (applied : group.apply first = .ok middle) (further : middle.apply second = .ok result) :
    ∃ middle' result', group.apply second = .ok middle' ∧ middle'.apply first = .ok result'
      ∧ (result'.atRevision result.revision).SameUpToOrder result := by
  set sealings := group.sealings ++ first.sealings ++ second.sealings
  have known : group.sealings ⊆ sealings :=
    List.Subset.trans (List.subset_append_left _ _) (List.subset_append_left _ _)
  have firstSealed : first.sealings ⊆ sealings :=
    List.Subset.trans (List.subset_append_right _ _) (List.subset_append_left _ _)
  have secondSealed : second.sealings ⊆ sealings := List.subset_append_right _ _
  have firstInside : ∀ step ∈ first.steps, step.Within first.portion := by
    intro step hs
    exact (named step (List.mem_append_left _ hs)).within_portion hs
  have firstOutside : ∀ step ∈ first.steps, step.Within first.portion.rest.rest := by
    rw [Portion.rest_rest]
    exact firstInside
  have secondInside : ∀ step ∈ second.steps, step.Within first.portion.rest := by
    intro step hs
    exact (named step (List.mem_append_right _ hs)).within_rest fun s hs' => apart s hs' step hs
  have middleKnown := sealings_apply firstSealed known applied
  -- the second change finds the rest as it was before the first one
  have middleRest := agreesOn_apply coherent firstSealed firstOutside known applied
  obtain ⟨middle', applied', rest⟩ := middleRest.symm.apply coherent secondSealed secondInside
    middleKnown known further
  have middleKnown' := sealings_apply secondSealed known applied'
  -- and the first one finds what it names as it was before the second one
  have middleNamed := agreesOn_apply coherent secondSealed secondInside known applied'
  obtain ⟨result', further', there⟩ := middleNamed.apply coherent firstSealed firstInside
    known middleKnown' applied
  have resultNamed := agreesOn_apply coherent secondSealed secondInside middleKnown further
  have resultRest := agreesOn_apply coherent firstSealed firstOutside middleKnown' further'
  -- so the two results agree on what the first change names and on everything else
  have onNamed : result'.AgreesOn first.portion result := there.trans resultNamed.symm
  have onRest : result'.AgreesOn first.portion.rest result := resultRest.trans rest
  obtain ⟨members, invites, requests, bans⟩ := onNamed.perm onRest
  refine ⟨middle', result', applied', further', ?_, members, invites, requests, bans⟩
  -- the attributes are no part of either, and are set in both orders alike
  have left := bare_apply further'
  rw [bare_apply applied'] at left
  have right := bare_apply further
  rw [bare_apply applied] at right
  have revision : result.revision = second.revision := congrArg Snapshot.revision right
  calc (result'.atRevision result.revision).bare
      = result'.bare.atRevision result.revision := rfl
    _ = ((group.bare.setAttributes second).setAttributes first).atRevision second.revision := by
        rw [left, revision]
        rfl
    _ = ((group.bare.setAttributes first).setAttributes second).atRevision second.revision := by
        rw [setAttributes_comm sets]
    _ = result.bare := right.symm

open Sample in
/-- Between them, two changes with entries of every kind. One revokes an invite that the other
cannot mean, as nobody can read it. -/
theorem apply_comm_sample :
    let unreadable : Invite := { invite 15 with invitee := [] }
    let group : Snapshot := {
      members := [administrator 1, member 2, member 3]
      invites := [invite 4, invite 5, pniInvite 6, unreadable]
      requests := [request 7, request 8]
      bans := [ban 9 0] }
    let first : Change := {
      revision := 1
      newMembers := [member 10]
      removedMembers := [aci 2]
      revokedInvites := [revocation 4, { revocation 15 with invitee := [] }]
      newInvites := [invite 11]
      title := some ⟨"new"⟩
      membersAccess := .administrator
      approvedRequests := [approval 7]
      newBans := [ban 13 0] }
    let second : Change := {
      revision := 2
      roleChanges := [promotion 3]
      profileKeyChanges := [memberWithProfileKey 3 [1]]
      acceptedInvites := [member 5]
      attributesAccess := .administrator
      newRequests := [request 12]
      refusedRequests := [aci 8]
      linkPassword := [1]
      liftedBans := [ban 9 0]
      acceptedPniInvites := [memberByPni 14 6] }
    ∃ middle result middle' result', group.apply first = .ok middle
      ∧ middle.apply second = .ok result
      ∧ group.apply second = .ok middle' ∧ middle'.apply first = .ok result'
      ∧ (result'.atRevision result.revision).SameUpToOrder result := by
  intro unreadable group first second
  have apart : ∀ s ∈ first.steps, ∀ t ∈ second.steps, s.Apart t := by decide +kernel
  have sets : first.SetsApart second := by
    constructor <;> decide +kernel
  have named : ∀ step ∈ first.steps ++ second.steps, step.Named := by decide +kernel
  have coherent : Coherent (group.sealings ++ first.sealings ++ second.sealings) := by
    decide +kernel
  have accepted : ((group.apply first).bind (·.apply second)).toOption.isSome = true := by
    decide +kernel
  cases applied : group.apply first with
  | error e => rw [applied] at accepted; cases accepted
  | ok middle =>
    rw [applied] at accepted
    cases further : middle.apply second with
    | error e => rw [Except.bind, further] at accepted; cases accepted
    | ok result =>
      obtain ⟨middle', result', swapped⟩ := apply_comm apart sets named coherent applied further
      exact ⟨middle, result, middle', result', rfl, further, swapped⟩

end Snapshot

end SealedGroups
