import SealedGroups.Proofs.Difference.Entrance
import SealedGroups.Proofs.Step.Slot

/-!
# The inferred additions, removals and changes of members

What the first four slots of an inferred change do to the members: strangers come in, others leave,
and whoever stays gets the role and the profile key of the later snapshot.
-/

namespace SealedGroups

namespace Change

variable {old new : Snapshot} {member : Member}

/-! ### Additions and removals -/

theorem newMembers_sublist (old new : Snapshot) :
    ((between old new).newMembers.map (·.aci)).Sublist new.memberAcis :=
  List.filter_sublist.map _

theorem run_newMembers (hold : old.WellFormed) (hnew : new.WellFormed) :
    (old.atRevision new.revision).run ((between old new).newMembers.map .add) =
      .ok { old with
        revision := new.revision
        members := old.members ++ (between old new).newMembers
        requests := old.requests.filter fun request =>
          !(between old new).newMembers.any (·.aci == request.aci) } := by
  have fresh : ((old.atRevision new.revision).memberAcis
      ++ (between old new).newMembers.map (·.aci)).Nodup := by
    apply hold.once.members.append ((newMembers_sublist old new).nodup hnew.once.members)
    intro aci there added
    obtain ⟨member, mem, rfl⟩ := List.mem_map.1 added
    exact (of_mem_newMembers mem).2.1 there
  -- whoever is new in the group had no invite, or would have accepted it
  have uninvited : (old.invites.filter fun invite =>
      !(between old new).newMembers.any (·.aci == invite.invitee)) = old.invites := by
    apply List.filter_eq_self.2
    intro invite mem
    apply not_any_key_iff.2
    intro added
    obtain ⟨member, hmember, same⟩ := List.mem_map.1 added
    apply (of_mem_newMembers hmember).2.2
    rw [same]
    exact List.mem_map_of_mem mem
  apply Snapshot.run_eq_ok_iff.2
  refine ⟨Snapshot.admits_of_always fun _ _ => trivial,
    (Snapshot.after_adds fresh).trans ?_⟩
  exact congrArg (fun invites => { old with
    revision := new.revision
    members := old.members ++ (between old new).newMembers
    invites
    requests := old.requests.filter fun request =>
      !(between old new).newMembers.any (·.aci == request.aci) }) uninvited

/-- The members when those who left have been removed. -/
def remaining (old new : Snapshot) : List Member :=
  (old.members.filter fun m => new.members.any (·.aci == m.aci)) ++ (between old new).newMembers

theorem mem_removedMembers {aci : Bytes} :
    aci ∈ (between old new).removedMembers ↔ aci ∈ old.memberAcis ∧ aci ∉ new.memberAcis := by
  have gone : ∀ m : Member,
      (!new.members.any (·.aci == m.aci)) = true ↔ m.aci ∉ new.memberAcis := by
    intro m
    rw [not_any_key_iff]
    rfl
  simp only [between, List.mem_map, List.mem_filter, gone]
  constructor
  · rintro ⟨m, ⟨mem, absent⟩, rfl⟩
    exact ⟨List.mem_map_of_mem mem, absent⟩
  · rintro ⟨there, absent⟩
    obtain ⟨m, mem, rfl⟩ := List.mem_map.1 there
    exact ⟨m, ⟨mem, absent⟩, rfl⟩

theorem run_removedMembers (hold : old.WellFormed) {group : Snapshot}
    (here : group.members = old.members ++ (between old new).newMembers) :
    group.run ((between old new).removedMembers.map .remove) =
      .ok { group with members := remaining old new } := by
  have distinct : (between old new).removedMembers.Nodup :=
    (List.filter_sublist.map _).nodup hold.once.members
  apply Snapshot.run_eq_ok_iff.2
  constructor
  · apply Snapshot.admits_removes distinct
    intro aci mem
    rw [Snapshot.memberAcis, here, List.map_append]
    exact List.mem_append_left _ (mem_removedMembers.1 mem).1
  · have left : (between old new).removedMembers.foldl
        (fun members aci => members.eraseP (·.aci == aci))
        (old.members ++ (between old new).newMembers) = remaining old new := by
      -- the new members stand behind, and no removal is about them
      rw [foldl_eraseP_append distinct, remaining]
      · congr 1
        apply List.filter_congr
        intro m mem
        rw [Bool.eq_iff_iff, not_contains_iff, mem_removedMembers, any_key_iff]
        constructor
        · intro stays
          exact Classical.not_not.1 fun absent => stays ⟨List.mem_map_of_mem mem, absent⟩
        · rintro there ⟨-, absent⟩
          exact absent there
      · intro aci mem
        exact List.count_eq_one_of_mem hold.once.members (mem_removedMembers.1 mem).1
    rw [Snapshot.after_removes, here, left]

/-! ### Roles and profile keys of those who stayed -/

/-- One entry for every member who stayed with another value. -/
def valueChanges {β γ : Type} [DecidableEq β] (old new : Snapshot) (value : Member → β)
    (entry : Member → γ) : List γ :=
  new.members.filterMap fun m =>
    match entrance old new m with
    | .stayed previous => if value previous = value m then none else some (entry m)
    | _ => none

theorem roleChanges_eq (old new : Snapshot) :
    (between old new).roleChanges = valueChanges old new (·.role) fun m => ⟨m.aci, m.role⟩ := rfl

theorem profileKeyChanges_eq (old new : Snapshot) :
    (between old new).profileKeyChanges =
      valueChanges old new (·.profileKey) fun m =>
        { aci := m.aci, profileKey := m.profileKey } := rfl

section

variable {β γ : Type} [DecidableEq β] {value : Member → β} {entry : Member → γ}

theorem mem_valueChanges {e : γ} : e ∈ valueChanges old new value entry ↔
    ∃ m ∈ new.members, (∃ previous, entrance old new m = .stayed previous
      ∧ value previous ≠ value m) ∧ entry m = e := by
  simp only [valueChanges, List.mem_filterMap]
  apply exists_congr
  intro m
  apply and_congr_right'
  -- only those who stayed can have changed
  cases came : entrance old new m with
  | stayed previous => by_cases same : value previous = value m <;> simp [same]
  | _ => simp

theorem valueChanges_distinct {about : γ → Bytes} (about_entry : ∀ m, about (entry m) = m.aci)
    (distinct : new.memberAcis.Nodup) : ((valueChanges old new value entry).map about).Nodup := by
  refine (filterMap_map_sublist ?_ new.members).nodup distinct
  intro m e made
  split at made
  · split at made
    · cases made
    · cases made
      exact about_entry m
  · cases made

/-- After the changes of one value, everyone has the value of the later snapshot. -/
theorem value_settled {about : γ → Bytes} {set : γ → Member → Member}
    (about_entry : ∀ m, about (entry m) = m.aci) (set_aci : ∀ e m, (set e m).aci = m.aci)
    (set_same : ∀ n m, value m = value n → set (entry n) m = m)
    (distinct : new.memberAcis.Nodup) {members : List Member}
    (once : (members.map (·.aci)).Nodup) {m : Member}
    (h : m ∈ (valueChanges old new value entry).foldl
      (fun members e => modifyFirst (·.aci == about e) (set e) members) members) :
    ∃ before ∈ members, before.aci = m.aci ∧ ∀ n ∈ new.members, n.aci = m.aci →
      (value before = value n ∨ ∃ previous, entrance old new n = .stayed previous
        ∧ value previous = value before) → m = set (entry n) before := by
  -- either no entry is about the member, or one has set their value
  rcases mem_foldl_modifyFirst set_aci (valueChanges_distinct about_entry distinct) once h with
    ⟨mem, others⟩ | ⟨e, he, before, mem, found, rfl⟩
  · refine ⟨m, mem, rfl, ?_⟩
    intro n hn aci known
    -- without an entry the value is that of the new snapshot already
    by_cases same : value m = value n
    · exact (set_same n m same).symm
    · rcases known with same' | ⟨previous, stayed, kept⟩
      · exact absurd same' same
      · have changed : entry n ∈ valueChanges old new value entry :=
          mem_valueChanges.2 ⟨n, hn, ⟨previous, stayed, kept ▸ same⟩, rfl⟩
        exact absurd ((about_entry n).trans aci) (others _ changed)
  · refine ⟨before, mem, (set_aci e before).symm, ?_⟩
    intro n hn aci _
    obtain ⟨n', hn', -, rfl⟩ := mem_valueChanges.1 he
    -- the entry is about one member of the new snapshot, as they are distinct
    have same : n' = n := by
      apply List.inj_on_of_nodup_map distinct hn' hn
      rw [aci, set_aci, ← found, about_entry]
    rw [same]

end

theorem remaining_acis (old new : Snapshot) :
    (remaining old new).map (·.aci) =
      old.memberAcis.filter new.memberAcis.contains
        ++ (between old new).newMembers.map (·.aci) := by
  rw [remaining, List.map_append, Snapshot.memberAcis.eq_def old, List.filter_map]
  congr 2
  apply List.filter_congr
  intro m _
  rw [Bool.eq_iff_iff, any_key_iff]
  exact List.contains_iff_mem.symm

theorem remaining_distinct (hold : old.WellFormed) (hnew : new.WellFormed) :
    ((remaining old new).map (·.aci)).Nodup := by
  rw [remaining_acis]
  apply (hold.once.members.filter _).append ((newMembers_sublist old new).nodup hnew.once.members)
  intro aci there added
  obtain ⟨member, mem, rfl⟩ := List.mem_map.1 added
  exact (of_mem_newMembers mem).2.1 (List.mem_of_mem_filter there)

/-- Those who remain are as in the later snapshot, up to the values that change. -/
theorem of_mem_remaining (hold : old.WellFormed) (comparable : Comparable old new)
    (h : member ∈ remaining old new) :
    ∃ n ∈ new.members, n.aci = member.aci ∧ n.joinedAt = member.joinedAt ∧ n.pni = member.pni
      ∧ (member = n ∨ entrance old new n = .stayed member) := by
  -- of those who are left some have stayed and the others were added
  rcases List.mem_append.1 h with stayed | added
  · obtain ⟨mem, there⟩ := List.mem_filter.1 stayed
    obtain ⟨n, hn, same⟩ := List.mem_map.1 (any_key_iff.1 there)
    obtain ⟨joinedAt, pni⟩ := comparable.same_member member mem n hn same.symm
    obtain ⟨previous, hprevious, aci, came⟩ := entrance_of_mem new
      (same.symm ▸ List.mem_map_of_mem mem : n.aci ∈ old.memberAcis)
    have eq : previous = member :=
      List.inj_on_of_nodup_map hold.once.members hprevious mem (aci.trans same)
    exact ⟨n, hn, same, joinedAt.symm, pni.symm, Or.inr (eq ▸ came)⟩
  · exact ⟨member, (of_mem_newMembers added).1, rfl, rfl, rfl, Or.inl rfl⟩

/-- The members when roles have been changed. -/
def withRoles (old new : Snapshot) : List Member :=
  (between old new).roleChanges.foldl (fun members entry =>
    modifyFirst (·.aci == entry.aci) ({ · with role := entry.role }) members) (remaining old new)

/-- The members when roles and profile keys have been changed. -/
def withProfileKeys (old new : Snapshot) : List Member :=
  (between old new).profileKeyChanges.foldl (fun members entry =>
    modifyFirst (·.aci == entry.aci) ({ · with profileKey := entry.profileKey }) members)
    (withRoles old new)

theorem withRoles_acis (old new : Snapshot) :
    (withRoles old new).map (·.aci) = (remaining old new).map (·.aci) :=
  map_foldl_modifyFirst (by intros; rfl) _ _

theorem withProfileKeys_acis (old new : Snapshot) :
    (withProfileKeys old new).map (·.aci) = (remaining old new).map (·.aci) :=
  (map_foldl_modifyFirst (by intros; rfl) _ (withRoles old new)).trans (withRoles_acis old new)

theorem mem_members_of_mem_withProfileKeys (hold : old.WellFormed) (hnew : new.WellFormed)
    (comparable : Comparable old new) (h : member ∈ withProfileKeys old new) :
    member ∈ new.members := by
  have distinct := remaining_distinct hold hnew
  rw [withProfileKeys, profileKeyChanges_eq] at h
  obtain ⟨first, hfirst, aci, keyed⟩ := value_settled (by intros; rfl) (by intros; rfl)
    (by rintro n ⟨⟩ rfl; rfl) hnew.once.members (withRoles_acis old new ▸ distinct) h
  rw [withRoles, roleChanges_eq] at hfirst
  obtain ⟨left, hleft, aci', promoted⟩ := value_settled (by intros; rfl) (by intros; rfl)
    (by rintro n ⟨⟩ rfl; rfl) hnew.once.members distinct hfirst
  obtain ⟨n, hn, same, joinedAt, pni, known⟩ := of_mem_remaining hold comparable hleft
  have role : first = { left with role := n.role } :=
    promoted n hn (same.trans aci')
      (known.imp (congrArg Member.role) fun came => ⟨left, came, rfl⟩)
  have known_key : first.profileKey = n.profileKey ∨ ∃ previous,
      entrance old new n = .stayed previous ∧ previous.profileKey = first.profileKey := by
    rw [role]
    rcases known with eq | came
    · left
      change left.profileKey = n.profileKey
      rw [eq]
    · exact Or.inr ⟨left, came, rfl⟩
  have key : member = { first with profileKey := n.profileKey } :=
    keyed n hn (same.trans (aci'.trans aci)) known_key
  have eq : member = n := by
    rw [key, role, ← same, ← joinedAt, ← pni]
  exact eq ▸ hn

/-- Entries about those who stayed are about members that remain. -/
theorem mem_remaining_of_valueChange {β γ : Type} [DecidableEq β] {value : Member → β}
    {entry : Member → γ} {about : γ → Bytes} (about_entry : ∀ m, about (entry m) = m.aci) {e : γ}
    (mem : e ∈ valueChanges old new value entry) :
    about e ∈ (remaining old new).map (·.aci) := by
  obtain ⟨n, hn, ⟨previous, stayed, -⟩, rfl⟩ := mem_valueChanges.1 mem
  rw [about_entry, remaining_acis]
  apply List.mem_append_left
  exact List.mem_filter.2
    ⟨mem_of_entrance stayed, List.contains_iff_mem.2 (List.mem_map_of_mem hn)⟩

theorem run_roleChanges (hnew : new.WellFormed) {group : Snapshot}
    (here : group.members = remaining old new) :
    group.run ((between old new).roleChanges.map .changeRole) =
      .ok { group with members := withRoles old new } := by
  apply Snapshot.run_eq_ok_iff.2
  constructor
  · apply Snapshot.admits_changeRoles
    intro entry mem
    rw [roleChanges_eq] at mem
    constructor
    · obtain ⟨n, hn, -, rfl⟩ := mem_valueChanges.1 mem
      exact hnew.role_held hn
    · rw [Snapshot.memberAcis, here]
      exact mem_remaining_of_valueChange (by intros; rfl) mem
  · rw [Snapshot.after_changeRoles, here]
    rfl

theorem run_profileKeyChanges {group : Snapshot} (here : group.members = withRoles old new) :
    group.run ((between old new).profileKeyChanges.map .changeProfileKey) =
      .ok { group with members := withProfileKeys old new } := by
  apply Snapshot.run_eq_ok_iff.2
  constructor
  · apply Snapshot.admits_changeProfileKeys
    intro entry mem
    rw [profileKeyChanges_eq] at mem
    rw [Snapshot.memberAcis, here, withRoles_acis]
    exact mem_remaining_of_valueChange (by intros; rfl) mem
  · rw [Snapshot.after_changeProfileKeys, here]
    rfl

end Change

end SealedGroups
