import SealedGroups.Proofs.Portion
import SealedGroups.Proofs.Step.Slot

/-!
# Accepting an invite later instead of being added

Whoever is to be added and holds an invite may accept the invite instead, which is done in a later
slot. If all steps in between are about others, this leads to the same group up to the order of the
members (`Detour.after_round`), and the other steps find what they need as before
(`Detour.admits_round`): within the portion of the group that these people make up, only their own
steps count, and in the rest only those of the others do.
-/

namespace SealedGroups

/-! ### The portion of some people -/

/-- The portion that some people make up. -/
def Portion.ofPeople (ids : List Bytes) : Portion where
  people id := ids.contains id
  ciphertexts _ := false
  banned _ := false

namespace Snapshot

/-- Whether nobody in a portion is invited, asks to be let in or is banned. -/
structure ClearOf (group : Snapshot) (portion : Portion) : Prop where
  invites : group.invites.filter (fun i => portion.holds i.invitee i.ciphertext) = []
  requests : group.requests.filter (portion.people ·.aci) = []
  bans : group.bans.filter (portion.banned ·.serviceId) = []

section

variable {first second : Snapshot} {portion : Portion}

theorem AgreesOn.clearOf (agree : first.AgreesOn portion second) (clear : second.ClearOf portion) :
    first.ClearOf portion :=
  ⟨agree.invites.trans clear.invites, agree.requests.trans clear.requests,
    agree.bans.trans clear.bans⟩

private theorem eq_of_filter {α : Type} {keep : α → Bool} {first second : List α}
    (none₁ : first.filter keep = []) (none₂ : second.filter keep = [])
    (others : first.filter (!keep ·) = second.filter (!keep ·)) : first = second := by
  have all : ∀ entries : List α, entries.filter keep = [] → entries.filter (!keep ·) = entries := by
    intro entries none
    apply List.filter_eq_self.2
    intro a mem
    rw [Bool.eq_false_iff.2 (List.filter_eq_nil_iff.1 none a mem)]
    rfl
  rw [← all first none₁, ← all second none₂, others]

/-- Clear of a portion, groups have the lists of the rest. -/
theorem AgreesOn.eq_of_clearOf (agree : first.AgreesOn portion.rest second)
    (clear₁ : first.ClearOf portion) (clear₂ : second.ClearOf portion) :
    first.invites = second.invites ∧ first.requests = second.requests
      ∧ first.bans = second.bans := by
  have invites := agree.invites
  simp only [Portion.holds_rest] at invites
  exact ⟨eq_of_filter clear₁.invites clear₂.invites invites,
    eq_of_filter clear₁.requests clear₂.requests agree.requests,
    eq_of_filter clear₁.bans clear₂.bans agree.bans⟩

end

/-! ### Coming in by being added, and by an invite -/

section

variable {group : Snapshot} {moved : List Member} {ids : List Bytes}

/-- Whoever is added leaves their invite and their request. -/
theorem clearOf_after_adds (fresh : (group.memberAcis ++ moved.map (·.aci)).Nodup)
    (among : ids ⊆ moved.map (·.aci)) :
    (group.after (moved.map .add)).ClearOf (.ofPeople ids) := by
  rw [after_adds fresh]
  constructor
  · rw [List.filter_filter, List.filter_eq_nil_iff]
    intro invite _ there
    obtain ⟨holds, left⟩ := Bool.and_eq_true_iff.1 there
    unfold Portion.holds at holds
    split at holds
    · cases holds
    · exact not_any_key_iff.1 left (among (List.contains_iff_mem.1 holds))
  · rw [List.filter_filter, List.filter_eq_nil_iff]
    intro request _ there
    obtain ⟨asks, left⟩ := Bool.and_eq_true_iff.1 there
    exact not_any_key_iff.1 left (among (List.contains_iff_mem.1 asks))
  · exact List.filter_eq_nil_iff.2 fun _ _ h => by cases h

/-- Whoever accepts their one invite leaves it, and did not ask to be let in. -/
theorem clearOf_after_accepts (once : group.OneStanding) (distinct : (moved.map (·.aci)).Nodup)
    (invited : ∀ member ∈ moved, member.aci ≠ [] ∧ member.aci ∈ group.invitees)
    (among : ids ⊆ moved.map (·.aci)) :
    (group.after (moved.map .accept)).ClearOf (.ofPeople ids) := by
  -- whoever is invited once has no request, and the one invite is taken
  have one : ∀ id ∈ moved.map (·.aci), group.invitees.count id = 1 ∧ id ∉ group.requesters := by
    intro id mem
    obtain ⟨member, hmem, rfl⟩ := List.mem_map.1 mem
    obtain ⟨named, there⟩ := invited member hmem
    have present := List.count_pos_iff.2 there
    have standing := List.nodup_iff_count_le_one.1 once.identities member.aci
    rw [count_identities named, standings] at standing
    rw [← List.count_eq_zero]
    omega
  rw [after_accepts]
  constructor
  · rw [← List.append_nil group.invites, foldl_eraseP_append distinct fun id mem => (one id mem).1,
      List.append_nil, List.filter_filter, List.filter_eq_nil_iff]
    intro invite _ there
    obtain ⟨holds, left⟩ := Bool.and_eq_true_iff.1 there
    unfold Portion.holds at holds
    split at holds
    · cases holds
    · exact not_contains_iff.1 left (among (List.contains_iff_mem.1 holds))
  · rw [List.filter_eq_nil_iff]
    intro request mem asks
    exact (one _ (among (List.contains_iff_mem.1 asks))).2 (List.mem_map_of_mem mem)
  · exact List.filter_eq_nil_iff.2 fun _ _ h => by cases h

end

/-! ### Accepting an invite later instead -/

/-- Some of those who are added hold an invite, and all other steps are about others. -/
structure Detour (group : Snapshot) (adds : List Member) (moves : Member → Bool)
    (others : List Step) (sealings : List (Bytes × Bytes)) : Prop where
  once : group.OneStanding
  coherent : Coherent sealings
  known : group.sealings ⊆ sealings
  sealed : ∀ step ∈ others, step.sealings ⊆ sealings
  readable : ∀ member ∈ adds, member.aci ≠ []
  fresh : (group.memberAcis ++ adds.map (·.aci)).Nodup
  invited : ∀ member ∈ adds, moves member = true → member.aci ∈ group.invitees
  named : ∀ step ∈ others, step.Named
  apart : ∀ step ∈ others, ∀ member ∈ adds, moves member = true → member.aci ∉ step.ids

namespace Detour

variable {group : Snapshot} {adds : List Member} {moves : Member → Bool}
  {sealings : List (Bytes × Bytes)} {before later : List Step} {set₁ set₂ : Change}

/-- The portion of those who hold an invite. -/
abbrev portion (adds : List Member) (moves : Member → Bool) : Portion :=
  .ofPeople ((adds.filter moves).map (·.aci))

theorem add_inside {others : List Step} (detour : Detour group adds moves others sealings)
    {member : Member} (mem : member ∈ adds.filter moves) :
    (Step.add member).Within (portion adds moves) := by
  intro id about
  rw [List.mem_singleton.1 about]
  exact ⟨detour.readable member (List.mem_of_mem_filter mem),
    List.contains_iff_mem.2 (List.mem_map_of_mem mem)⟩

theorem add_outside {others : List Step} (detour : Detour group adds moves others sealings)
    {member : Member} (mem : member ∈ adds) (stays : moves member = false) :
    (Step.add member).Within (portion adds moves).rest := by
  intro id about
  rw [List.mem_singleton.1 about]
  refine ⟨detour.readable member mem, not_contains_iff.2 ?_⟩
  -- two who are added are different, so whoever stays is none of those who move
  intro there
  obtain ⟨other, hother, same⟩ := List.mem_map.1 there
  obtain ⟨hother, moved⟩ := List.mem_filter.1 hother
  have distinct := (List.nodup_append.1 detour.fresh).2.1
  rw [List.inj_on_of_nodup_map distinct hother mem same, stays] at moved
  cases moved

theorem others_outside {others : List Step} (detour : Detour group adds moves others sealings)
    {step : Step} (mem : step ∈ others) : step.Within (portion adds moves).rest := by
  apply (detour.named step mem).within
  · intro id about _
    apply not_contains_iff.2
    intro there
    obtain ⟨member, hmember, rfl⟩ := List.mem_map.1 there
    obtain ⟨hmember, moved⟩ := List.mem_filter.1 hmember
    exact detour.apart step mem member hmember moved about
  · intro c _
    rfl
  · intro id _
    rfl

/-- What those who are added do to a portion is done by those of them who are in it. -/
private theorem agreesOn_after_adds {portion : Portion} {keep : Member → Bool}
    (coherent : Coherent sealings) (known : group.sealings ⊆ sealings)
    (inside : ∀ member ∈ adds, keep member = true → (Step.add member).Within portion)
    (outside : ∀ member ∈ adds, keep member = false → (Step.add member).Within portion.rest) :
    (group.after (adds.map .add)).AgreesOn portion
      (group.after ((adds.filter keep).map .add)) := by
  -- to drop members from the list of the added is to drop their additions from the steps
  let keepStep : Step → Bool := fun step => match step with
    | .add member => keep member
    | _ => true
  have same : (adds.filter keep).map Step.add = (adds.map Step.add).filter keepStep := by
    rw [List.filter_map]
    rfl
  rw [same]
  refine (AgreesOn.refl portion group).after_filter keepStep coherent ?_ ?_ ?_ known known
  · intro step mem
    obtain ⟨member, -, rfl⟩ := List.mem_map.1 mem
    exact List.nil_subset _
  · intro step mem kept
    obtain ⟨member, hmember, rfl⟩ := List.mem_map.1 mem
    exact inside member hmember kept
  · intro step mem dropped
    obtain ⟨member, hmember, rfl⟩ := List.mem_map.1 mem
    exact outside member hmember dropped

/-- The steps with everyone added at first. -/
abbrev direct (adds : List Member) (before later : List Step) (set : Change) : List Step :=
  adds.map .add ++ (before ++ .setAttributes set :: later)

/-- The steps with those who hold an invite accepting it later. -/
abbrev round (adds : List Member) (moves : Member → Bool) (before later : List Step)
    (set : Change) : List Step :=
  (adds.filter (!moves ·)).map .add
    ++ (before ++ ((adds.filter moves).reverse.map .accept ++ .setAttributes set :: later))

private theorem sealings_of_adds (adds : List Member) :
    ∀ step ∈ adds.map Step.add, step.sealings ⊆ sealings := by
  intro step mem
  obtain ⟨member, -, rfl⟩ := List.mem_map.1 mem
  exact List.nil_subset _

private theorem sealings_of_accepts (accepts : List Member) :
    ∀ step ∈ accepts.map Step.accept, step.sealings ⊆ sealings := by
  intro step mem
  obtain ⟨member, -, rfl⟩ := List.mem_map.1 mem
  exact List.nil_subset _

section

variable (detour : Detour group adds moves (before ++ later) sealings)
include detour

theorem before_sealed : ∀ step ∈ before, step.sealings ⊆ sealings :=
  fun step mem => detour.sealed step (List.mem_append_left _ mem)

theorem later_sealed : ∀ step ∈ later, step.sealings ⊆ sealings :=
  fun step mem => detour.sealed step (List.mem_append_right _ mem)

theorem before_outside : ∀ step ∈ before, step.Within (portion adds moves).rest :=
  fun _ mem => detour.others_outside (List.mem_append_left _ mem)

theorem later_outside : ∀ step ∈ later, step.Within (portion adds moves).rest :=
  fun _ mem => detour.others_outside (List.mem_append_right _ mem)

theorem known_after_before (new : List Member) :
    ((group.after (new.map .add)).after before).sealings ⊆ sealings :=
  sealings_after (sealings_after detour.known (sealings_of_adds new)) detour.before_sealed

/-- Whoever accepts an invite later is in the portion. -/
theorem accepts_inside :
    ∀ step ∈ (adds.filter moves).reverse.map Step.accept, step.Within (portion adds moves) := by
  intro step mem
  obtain ⟨member, hmember, rfl⟩ := List.mem_map.1 mem
  exact detour.add_inside (List.mem_reverse.1 hmember)

/-! #### In the rest of the group -/

/-- Leaving out those who hold an invite makes no difference to the rest. -/
theorem agreesOn_rest_added :
    (group.after (adds.map .add)).AgreesOn (portion adds moves).rest
      (group.after ((adds.filter (!moves ·)).map .add)) := by
  apply agreesOn_after_adds detour.coherent detour.known
  · intro member mem stays
    exact detour.add_outside mem (by simpa using stays)
  · intro member mem moved
    rw [Portion.rest_rest]
    exact detour.add_inside (List.mem_filter.2 ⟨mem, by simpa using moved⟩)

theorem agreesOn_rest_before :
    ((group.after (adds.map .add)).after before).AgreesOn (portion adds moves).rest
      ((group.after ((adds.filter (!moves ·)).map .add)).after before) :=
  detour.agreesOn_rest_added.after detour.coherent detour.before_sealed detour.before_outside
    (sealings_after detour.known (sealings_of_adds _))
    (sealings_after detour.known (sealings_of_adds _))

/-- Nor do their acceptances, nor does it matter which attributes are set. -/
theorem agreesOn_rest_accepted (set₁ set₂ : Change) :
    ((Step.setAttributes set₁).effect ((group.after (adds.map .add)).after before)).AgreesOn
      (portion adds moves).rest
      ((Step.setAttributes set₂).effect
        (((group.after ((adds.filter (!moves ·)).map .add)).after before).after
          ((adds.filter moves).reverse.map .accept))) := by
  -- acceptances are about those who move alone, so the rest does not notice them
  have accepted : (((group.after ((adds.filter (!moves ·)).map .add)).after before).after
      ((adds.filter moves).reverse.map .accept)).AgreesOn (portion adds moves).rest
      ((group.after ((adds.filter (!moves ·)).map .add)).after before) := by
    apply agreesOn_after detour.coherent (sealings_of_accepts _)
    · rw [Portion.rest_rest]
      exact detour.accepts_inside
    · exact detour.known_after_before _
  have agree := detour.agreesOn_rest_before.trans accepted.symm
  exact ⟨agree.members, agree.invites, agree.requests, agree.bans⟩

theorem agreesOn_rest (set₁ set₂ : Change) :
    (group.after (direct adds before later set₁)).AgreesOn (portion adds moves).rest
      (group.after (round adds moves before later set₂)) := by
  simp only [direct, round, after_append, after_cons]
  apply (detour.agreesOn_rest_accepted set₁ set₂).after detour.coherent detour.later_sealed
    detour.later_outside
  · exact detour.known_after_before _
  · exact sealings_after (detour.known_after_before _) (sealings_of_accepts _)

/-! #### Among those who hold an invite -/

theorem agreesOn_portion_before :
    ((group.after ((adds.filter (!moves ·)).map .add)).after before).AgreesOn
      (portion adds moves) group := by
  -- nor does the portion notice additions of others
  have added : (group.after ((adds.filter (!moves ·)).map .add)).AgreesOn (portion adds moves)
      group := by
    apply agreesOn_after detour.coherent (sealings_of_adds _) _ detour.known
    intro step mem
    obtain ⟨member, hmember, rfl⟩ := List.mem_map.1 mem
    obtain ⟨hmember, stays⟩ := List.mem_filter.1 hmember
    exact detour.add_outside hmember (by simpa using stays)
  have known := sealings_after detour.known (sealings_of_adds (adds.filter (!moves ·)))
  exact (agreesOn_after detour.coherent detour.before_sealed detour.before_outside
    known).trans added

/-- Whoever holds an invite still holds it when they come to accept it. -/
theorem invited_before {member : Member} (mem : member ∈ adds.filter moves) :
    member.aci ∈ ((group.after ((adds.filter (!moves ·)).map .add)).after before).invitees := by
  obtain ⟨hmember, moved⟩ := List.mem_filter.1 mem
  exact (detour.agreesOn_portion_before.mem_invitees_iff
    (detour.add_inside mem _ List.mem_cons_self)).2 (detour.invited member hmember moved)

theorem agreesOn_portion_direct (set : Change) :
    (group.after (direct adds before later set)).AgreesOn (portion adds moves)
      (group.after ((adds.filter moves).map .add)) := by
  have added : (group.after (adds.map .add)).AgreesOn (portion adds moves)
      (group.after ((adds.filter moves).map .add)) := by
    apply agreesOn_after_adds detour.coherent detour.known
    · intro member mem moved
      exact detour.add_inside (List.mem_filter.2 ⟨mem, moved⟩)
    · intro member mem stays
      exact detour.add_outside mem stays
  rw [direct, after_append]
  refine (agreesOn_after detour.coherent ?_ ?_
    (sealings_after detour.known (sealings_of_adds _))).trans added
  · exact List.forall_mem_append.2 ⟨detour.before_sealed,
      List.forall_mem_cons.2 ⟨List.nil_subset _, detour.later_sealed⟩⟩
  · exact List.forall_mem_append.2 ⟨detour.before_outside,
      List.forall_mem_cons.2 ⟨Step.within_setAttributes _ _, detour.later_outside⟩⟩

theorem agreesOn_portion_round (set : Change) :
    (group.after (round adds moves before later set)).AgreesOn (portion adds moves)
      (group.after ((adds.filter moves).reverse.map .accept)) := by
  have accepted := detour.agreesOn_portion_before.after detour.coherent (sealings_of_accepts _)
    detour.accepts_inside (detour.known_after_before _) detour.known
  simp only [round, after_append]
  refine (agreesOn_after detour.coherent ?_ ?_
    (sealings_after (detour.known_after_before _) (sealings_of_accepts _))).trans accepted
  · exact List.forall_mem_cons.2 ⟨List.nil_subset _, detour.later_sealed⟩
  · exact List.forall_mem_cons.2 ⟨Step.within_setAttributes _ _, detour.later_outside⟩

/-! #### In the whole group -/

theorem admits_round (set₁ set₂ : Change) (admits : group.admits (direct adds before later set₁)) :
    group.admits (round adds moves before later set₂) := by
  obtain ⟨-, admits⟩ := admits_append.1 admits
  obtain ⟨beforeAdmits, -, laterAdmits⟩ := admits_append.1 admits
  refine admits_append.2 ⟨?adds, admits_append.2 ⟨?before,
    admits_append.2 ⟨?accepts, trivial, ?later⟩⟩⟩
  -- additions are always possible, and so need no look at the group
  case adds => exact admits_of_always fun _ _ => trivial
  case before =>
    exact (detour.agreesOn_rest_added.admits_iff detour.coherent detour.before_sealed
      detour.before_outside (sealings_after detour.known (sealings_of_adds _))
      (sealings_after detour.known (sealings_of_adds _))).1 beforeAdmits
  case accepts =>
    -- those who accept still have the invites they had at first
    have distinct := (List.nodup_append.1 detour.fresh).2.1
    apply admits_accepts
    · rw [List.map_reverse, List.nodup_reverse]
      exact distinct.sublist (List.filter_sublist.map _)
    · exact fun member mem => detour.invited_before (List.mem_reverse.1 mem)
  case later =>
    exact ((detour.agreesOn_rest_accepted set₁ set₂).admits_iff detour.coherent detour.later_sealed
      detour.later_outside (detour.known_after_before _)
      (sealings_after (detour.known_after_before _) (sealings_of_accepts _))).1 laterAdmits

/-- Accepting an invite later leads where being added at first leads, up to the order of the
members. -/
theorem after_round (set₁ set₂ : Change) :
    let first := group.after (direct adds before later set₁)
    let second := group.after (round adds moves before later set₂)
    second.members.Perm first.members ∧ second.invites = first.invites
      ∧ second.requests = first.requests ∧ second.bans = first.bans := by
  intro first second
  have moved_fresh : (group.memberAcis ++ (adds.filter moves).map (·.aci)).Nodup :=
    detour.fresh.sublist ((List.filter_sublist.map _).append_left _)
  -- outside of those who move both ways agree, on the members up to order
  have onRest : second.AgreesOn (portion adds moves).rest first :=
    (detour.agreesOn_rest set₁ set₂).symm
  have onFirst := detour.agreesOn_portion_direct set₁
  have onSecond := detour.agreesOn_portion_round set₂
  refine ⟨perm_of_filter ?_ (.of_eq onRest.members), onRest.eq_of_clearOf ?_ ?_⟩
  · rw [onSecond.members, onFirst.members, after_adds moved_fresh, after_accepts]
    exact ((List.reverse_perm _).append_left _).filter _
  · -- and of them neither an invite nor a request is left on either way
    apply onSecond.clearOf
    apply clearOf_after_accepts detour.once
    · rw [List.map_reverse, List.nodup_reverse]
      exact (List.nodup_append.1 moved_fresh).2.1
    · intro member mem
      obtain ⟨hmember, moved⟩ := List.mem_filter.1 (List.mem_reverse.1 mem)
      exact ⟨detour.readable member hmember, detour.invited member hmember moved⟩
    · rw [List.map_reverse]
      exact fun id mem => List.mem_reverse.2 mem
  · exact onFirst.clearOf (clearOf_after_adds moved_fresh fun id mem => mem)

end

end Detour

end Snapshot

end SealedGroups
