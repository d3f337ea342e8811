import SealedGroups.Proofs.Difference.Entrance
import SealedGroups.Proofs.Step.Slot

/-!
# The inferred answers to join requests, and bans

Of the earlier requests those are left that the later snapshot has, since every other one has been
refused, approved, or fulfilled by an addition. A request that changed is refused and made again.
-/

namespace SealedGroups

namespace Change

variable {old new : Snapshot} {member : Member}

/-! ### Requests -/

/-- The earlier requests when those of the added members are gone. -/
def notAdded (old new : Snapshot) : List JoinRequest :=
  old.requests.filter fun request => !(between old new).newMembers.any (·.aci == request.aci)

theorem mem_notAdded {request : JoinRequest} : request ∈ notAdded old new ↔
    request ∈ old.requests ∧ request.aci ∉ (between old new).newMembers.map (·.aci) := by
  rw [notAdded, List.mem_filter, not_any_key_iff]

theorem run_newRequests {group : Snapshot} (requests : group.requests = notAdded old new) :
    group.run ((between old new).newRequests.map .request) =
      .ok { group with requests := notAdded old new ++ (between old new).newRequests } := by
  apply Snapshot.run_eq_ok_iff.2
  constructor
  · exact Snapshot.admits_of_always fun _ _ => trivial
  · rw [Snapshot.after_requests, requests]

theorem mem_refusedRequests {aci : Bytes} : aci ∈ (between old new).refusedRequests ↔
    ∃ request ∈ old.requests, request.aci = aci
      ∧ aci ∉ (approvedMembers old new).map (·.aci)
      ∧ aci ∉ (between old new).newMembers.map (·.aci)
      ∧ request ∉ new.requests := by
  have refused : (between old new).refusedRequests = (old.requests.filter fun request =>
      !(approvedMembers old new).any (·.aci == request.aci)
        && !(between old new).newMembers.any (·.aci == request.aci)
        && !new.requests.contains request).map (·.aci) := rfl
  simp only [refused, List.mem_map, List.mem_filter, Bool.and_eq_true, not_any_key_iff,
    not_contains_iff, and_assoc]
  constructor
  · rintro ⟨request, mem, unapproved, unadded, gone, rfl⟩
    exact ⟨request, mem, rfl, unapproved, unadded, gone⟩
  · rintro ⟨request, mem, rfl, unapproved, unadded, gone⟩
    exact ⟨request, mem, unapproved, unadded, gone, rfl⟩

/-- The earlier requests that were neither fulfilled by an addition nor refused. -/
def notRefused (old new : Snapshot) : List JoinRequest :=
  (notAdded old new).filter fun request =>
    !(between old new).refusedRequests.contains request.aci

theorem count_requester_eq_one (hold : old.WellFormed) {requests : List JoinRequest}
    (sub : requests.Sublist old.requests) {aci : Bytes}
    (there : ∃ request ∈ requests, request.aci = aci) : (requests.map (·.aci)).count aci = 1 :=
  List.count_eq_one_of_mem ((sub.map _).nodup hold.once.requests) (List.mem_map.2 there)

theorem run_refusedRequests (hold : old.WellFormed) {group : Snapshot}
    (requests : group.requests = notAdded old new ++ (between old new).newRequests) :
    group.run ((between old new).refusedRequests.map .refuse) =
      .ok { group with requests := notRefused old new ++ (between old new).newRequests } := by
  have distinct : (between old new).refusedRequests.Nodup :=
    (List.filter_sublist.map _).nodup hold.once.requests
  apply Snapshot.run_eq_ok_iff.2
  constructor
  · exact Snapshot.admits_of_always fun _ _ => trivial
  · rw [Snapshot.after_refusals, requests, foldl_eraseP_append distinct]
    · rfl
    · -- the request that is refused is still there, as nobody added has taken it
      intro aci refused
      obtain ⟨request, mem, rfl, -, unadded, -⟩ := mem_refusedRequests.1 refused
      exact count_requester_eq_one hold List.filter_sublist
        ⟨request, mem_notAdded.2 ⟨mem, unadded⟩, rfl⟩

/-- The earlier requests that nobody has answered. -/
def notApproved (old new : Snapshot) : List JoinRequest :=
  (notRefused old new).filter fun request =>
    !((approvedMembers old new).map (·.aci)).contains request.aci

theorem not_added_of_approved (h : member ∈ approvedMembers old new) :
    member ∉ (between old new).newMembers := by
  intro added
  have approved := List.of_mem_filter h
  have added := List.of_mem_filter added
  cases came : entrance old new member <;> simp [came] at approved added

/-- The request of an approved member says all but the role. -/
theorem approved_request (hnew : new.WellFormed)
    (comparable : Comparable old new) (h : member ∈ approvedMembers old new) :
    ∃ request ∈ notRefused old new, request.aci = member.aci
      ∧ Approval.toMember ⟨member.aci, member.role⟩ new.revision request = member := by
  obtain ⟨mem, absent, notByPni, ⟨request, hrequest, aci, key⟩, joined⟩ := of_mem_approvedMembers h
  refine ⟨request, ?_, aci, ?_⟩
  · rw [notRefused, List.mem_filter, mem_notAdded, not_contains_iff, mem_refusedRequests,
      aci]
    refine ⟨⟨hrequest, ?_⟩, ?_⟩
    · -- the requester was approved and so not added, and the request is not refused either
      intro added
      obtain ⟨other, hother, same⟩ := List.mem_map.1 added
      have eq : other = member :=
        List.inj_on_of_nodup_map hnew.once.members (of_mem_newMembers hother).1 mem same
      exact not_added_of_approved h (eq ▸ hother)
    · rintro ⟨-, -, -, unapproved, -⟩
      exact unapproved (List.mem_map_of_mem h)
  · have pni : member.pni = [] := by
      -- a phone number identity would have been invited, and the member come by that invite
      rcases comparable.requester_pni member mem absent
        (List.mem_map.2 ⟨request, hrequest, aci⟩) with none | invited
      · exact none
      · by_contra some
        exact notByPni ⟨some, invited⟩
    have role : (Approval.mk member.aci member.role).granted = member.role :=
      Approval.granted_of_held (hnew.role_held mem)
    rw [Approval.toMember, role, aci, key, ← joined, ← pni]

theorem run_approvedRequests (hold : old.WellFormed) (hnew : new.WellFormed)
    (comparable : Comparable old new) {group : Snapshot}
    (requests : group.requests = notRefused old new ++ (between old new).newRequests) :
    group.run ((between old new).approvedRequests.map (.approve new.revision)) =
      .ok { group with
        members := group.members ++ approvedMembers old new
        requests := notApproved old new ++ (between old new).newRequests } := by
  have entries : (between old new).approvedRequests =
      (approvedMembers old new).map fun m => ⟨m.aci, m.role⟩ := rfl
  have acis : (between old new).approvedRequests.map (·.aci) =
      (approvedMembers old new).map (·.aci) := by
    rw [entries, List.map_map]
    rfl
  have distinct : ((between old new).approvedRequests.map (·.aci)).Nodup := by
    rw [acis]
    exact (List.filter_sublist.map _).nodup hnew.once.members
  have sub : (notRefused old new).Sublist old.requests :=
    List.filter_sublist.trans List.filter_sublist
  have admitted : ((between old new).approvedRequests.flatMap fun entry =>
      ((group.requests.find? (·.aci == entry.aci)).map
        (entry.toMember new.revision)).toList) = approvedMembers old new := by
    -- the approved members come out in the order in which they were inferred
    rw [entries, List.flatMap_map]
    refine Eq.trans (List.flatMap_congr ?_) (List.flatMap_singleton' _)
    intro m hm
    obtain ⟨request, mem, same, member⟩ := approved_request hnew comparable hm
    have found : group.requests.find? (·.aci == m.aci) = some request := by
      rw [requests, List.find?_append, ← same,
        find_eq_some_of_mem ((sub.map _).nodup hold.once.requests) mem]
      rfl
    rw [found]
    exact congrArg (fun admitted => [admitted]) member
  apply Snapshot.run_eq_ok_iff.2
  constructor
  · apply Snapshot.admits_approvals
    intro entry mem
    obtain ⟨m, hm, rfl⟩ := List.mem_map.1 mem
    have held := hnew.role_held (of_mem_approvedMembers hm).1
    rw [Approval.granted_of_held held]
    exact held
  · rw [Snapshot.after_approvals _ distinct, admitted, acis, requests,
      foldl_eraseP_append (acis ▸ distinct)]
    · rfl
    · intro aci approved
      obtain ⟨m, hm, rfl⟩ := List.mem_map.1 approved
      obtain ⟨request, mem, same, -⟩ := approved_request hnew comparable hm
      exact count_requester_eq_one hold sub ⟨request, mem, same⟩

/-- Of the earlier requests those are left that the later snapshot has. -/
theorem mem_notApproved (hold : old.WellFormed) (hnew : new.WellFormed) {request : JoinRequest} :
    request ∈ notApproved old new ↔ request ∈ old.requests ∧ request ∈ new.requests := by
  simp only [notApproved, notRefused, List.mem_filter, mem_notAdded, and_assoc,
    not_contains_iff, mem_refusedRequests]
  apply and_congr_right
  intro mem
  constructor
  · rintro ⟨unadded, notRefused, unapproved⟩
    by_contra gone
    exact notRefused ⟨request, mem, rfl, unapproved, unadded, gone⟩
  · -- who asks in the new snapshot is no member there, so was not let in
    intro there
    have stranger : ∀ m ∈ new.members, m.aci ≠ request.aci := by
      intro m hm same
      apply hnew.once.requester_not_member (List.mem_map_of_mem there)
      exact List.mem_map.2 ⟨m, hm, same⟩
    refine ⟨?_, ?_, ?_⟩
    · intro added
      obtain ⟨m, hm, same⟩ := List.mem_map.1 added
      exact stranger m (of_mem_newMembers hm).1 same
    · -- the request was not refused for another of the same account, as there is only one
      rintro ⟨other, hother, same, -, -, gone⟩
      rw [List.inj_on_of_nodup_map hold.once.requests hother mem same] at gone
      exact gone there
    · intro approved
      obtain ⟨m, hm, same⟩ := List.mem_map.1 approved
      exact stranger m (of_mem_approvedMembers hm).1 same

theorem requests_perm (hold : old.WellFormed) (hnew : new.WellFormed) :
    (notApproved old new ++ (between old new).newRequests).Perm new.requests := by
  have distinct : ∀ {group : Snapshot}, group.WellFormed → (group.requests.map id).Nodup := by
    intro group h
    rw [List.map_id]
    exact h.once.requests.of_map
  apply perm_of_stays (distinct hold) (distinct hnew) (fun _ _ _ _ same => same)
  · exact List.filter_sublist.trans (List.filter_sublist.trans List.filter_sublist)
  · intro request
    rw [List.map_id]
    exact mem_notApproved hold hnew
  · exact List.filter_sublist
  · intro request
    simp only [between, List.mem_filter, not_contains_iff, List.map_id, id_eq]

/-! ### Bans -/

/-- The earlier bans that were not lifted. -/
def notLifted (old new : Snapshot) : List Ban :=
  old.bans.filter fun ban =>
    !((between old new).liftedBans.map (·.serviceId)).contains ban.serviceId

theorem mem_liftedBans {ban : Ban} :
    ban ∈ (between old new).liftedBans ↔ ban ∈ old.bans ∧ ban.serviceId ∉ new.banned := by
  simp only [between, List.mem_filter, not_any_key_iff]
  rfl

theorem mem_newBans {ban : Ban} :
    ban ∈ (between old new).newBans ↔ ban ∈ new.bans ∧ ban.serviceId ∉ old.banned := by
  simp only [between, List.mem_filter, not_any_key_iff]
  rfl

theorem mem_notLifted {ban : Ban} :
    ban ∈ notLifted old new ↔ ban ∈ old.bans ∧ ban.serviceId ∈ new.banned := by
  rw [notLifted, List.mem_filter, not_contains_iff]
  apply and_congr_right
  intro mem
  constructor
  · intro notLifted
    by_contra gone
    exact notLifted (List.mem_map_of_mem (mem_liftedBans.2 ⟨mem, gone⟩))
  · intro there lifted
    obtain ⟨other, hother, same⟩ := List.mem_map.1 lifted
    exact (mem_liftedBans.1 hother).2 (same ▸ there)

theorem run_newBans (hnew : new.WellFormed) {group : Snapshot}
    (bans : group.bans = old.bans) :
    group.run ((between old new).newBans.map .ban) =
      .ok { group with bans := old.bans ++ (between old new).newBans } := by
  have distinct : ((between old new).newBans.map (·.serviceId)).Nodup :=
    (List.filter_sublist.map _).nodup hnew.once.banned
  have fresh : ∀ id ∈ (between old new).newBans.map (·.serviceId), id ∉ group.banned := by
    intro id came there
    obtain ⟨ban, mem, rfl⟩ := List.mem_map.1 came
    rw [Snapshot.banned, bans] at there
    exact (mem_newBans.1 mem).2 there
  apply Snapshot.run_eq_ok_iff.2
  constructor
  · exact Snapshot.admits_of_always fun _ _ => trivial
  · rw [Snapshot.after_bans distinct fresh, bans]

theorem run_liftedBans (hold : old.WellFormed) {group : Snapshot}
    (bans : group.bans = old.bans ++ (between old new).newBans) :
    group.run ((between old new).liftedBans.map .liftBan) =
      .ok { group with bans := notLifted old new ++ (between old new).newBans } := by
  have lifted : ((between old new).liftedBans.map (·.serviceId)).Sublist old.banned :=
    List.filter_sublist.map _
  apply Snapshot.run_eq_ok_iff.2
  constructor
  · exact Snapshot.admits_of_always fun _ _ => trivial
  · rw [Snapshot.after_liftedBans, bans, foldl_eraseP_append (lifted.nodup hold.once.banned)]
    · rfl
    · intro id mem
      exact List.count_eq_one_of_mem hold.once.banned (lifted.subset mem)

theorem bans_perm (hold : old.WellFormed) (hnew : new.WellFormed)
    (comparable : Comparable old new) :
    (notLifted old new ++ (between old new).newBans).Perm new.bans := by
  apply perm_of_stays hold.once.banned hnew.once.banned
  · intro a ha b hb same
    have timestamp := comparable.same_ban a ha b hb same
    cases a
    cases b
    cases same
    cases timestamp
    rfl
  · exact List.filter_sublist
  · intro ban
    exact mem_notLifted
  · exact List.filter_sublist
  · intro ban
    exact mem_newBans

end Change

end SealedGroups
