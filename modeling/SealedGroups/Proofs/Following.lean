import SealedGroups.Proofs.FirstMatch
import SealedGroups.Proofs.Step.Effect
import SealedGroups.Samples

/-!
# Clients that follow the log agree

The server keeps a log with one change at most for each revision. A client is given changes from it
in whatever order they arrive, some of them twice and some of them not at all; it applies a change
that leads exactly one revision further and stays as it is if that fails (`receive`).

Whatever arrives, the changes that a client accepts count the revisions up one by one
(`revisions_accepted`), and what the client holds is those changes applied one after the other
(`foldlM_accepted`). The log leaves no choice which changes these are (`between_eq`). So the
revision tells everything: clients at the same revision hold the same (`follow_log`).
-/

namespace SealedGroups

/-- The changes that the server made known, one at most for each revision, in any order. -/
structure Log where
  entries : List Change
  distinct : (entries.map (·.revision)).Nodup

namespace Log

/-- The change that leads to a revision, if it is known. -/
def at? (log : Log) (revision : Nat) : Option Change :=
  log.entries.find? (·.revision.toNat == revision)

/-- The changes that lead from one revision to another, in the order of their revisions. -/
def between (log : Log) (first last : Nat) : List Change :=
  (List.range' (first + 1) (last - first)).filterMap log.at?

theorem at?_of_mem {log : Log} {change : Change} (mem : change ∈ log.entries) :
    log.at? change.revision.toNat = some change := by
  have distinct : (log.entries.map (·.revision.toNat)).Nodup := by
    have numbers := log.distinct.map fun _ _ => UInt32.toNat_inj.1
    rwa [List.map_map] at numbers
  have found := find_eq_some_of_mem distinct mem
  exact found

/-- Changes of the log whose revisions count up one by one are all the log has for these revisions.
-/
theorem between_eq {log : Log} {changes : List Change} {first : Nat}
    (known : ∀ change ∈ changes, change ∈ log.entries)
    (revisions : changes.map (·.revision.toNat) = List.range' (first + 1) changes.length) :
    log.between first (first + changes.length) = changes := by
  have found : (changes.map (·.revision.toNat)).filterMap log.at? = changes := by
    -- the numbering is of the whole list, and the induction goes without it
    clear revisions
    induction changes with
    | nil => rfl
    | cons change rest ih =>
      rw [List.map_cons, List.filterMap_cons_some (at?_of_mem (known change List.mem_cons_self)),
        ih fun other mem => known other (List.mem_cons_of_mem _ mem)]
  rw [between, Nat.add_sub_cancel_left, ← revisions, found]

end Log

namespace Snapshot

/-! ### Receiving changes -/

/-- The group as a client holds it when a change has arrived. -/
def receive (group : Snapshot) (change : Change) : Snapshot :=
  match group.applyNext change with
  | .ok next => next
  | .error _ => group

/-- The group as a client holds it when changes have arrived one after the other. -/
def follow (group : Snapshot) (arriving : List Change) : Snapshot :=
  arriving.foldl receive group

/-- Those of the arriving changes that are applied. -/
def accepted (group : Snapshot) : List Change → List Change
  | [] => []
  | change :: rest =>
    match group.applyNext change with
    | .ok next => change :: next.accepted rest
    | .error _ => group.accepted rest

variable {group next : Snapshot} {change : Change}

/-- A change is next if it leads exactly one revision further and applies. -/
theorem applyNext_eq_ok_iff : group.applyNext change = .ok next ↔
    group.revision.toNat + 1 = change.revision.toNat ∧ group.apply change = .ok next := by
  unfold applyNext applyNextNoted
  split
  · rename_i adjacent
    exact (and_iff_right adjacent).symm
  · rename_i apart
    simp [apart]

theorem revision_apply (applied : group.apply change = .ok next) :
    next.revision = change.revision := by
  obtain ⟨-, rfl⟩ := apply_eq_ok_iff.1 applied
  -- the revision is set at first, and no step sets it again
  apply after_keeps (P := fun group => group.revision = change.revision)
  · intro step _ group same
    cases step <;> exact same
  · rfl

/-! ### What a client accepts -/

theorem accepted_sublist (group : Snapshot) (arriving : List Change) :
    (group.accepted arriving).Sublist arriving := by
  induction arriving generalizing group with
  | nil => exact List.Sublist.refl _
  | cons change rest ih =>
    rw [accepted]
    split
    · rename_i next _
      exact (ih next).cons_cons change
    · exact (ih group).cons change

/-- A client holds what the changes it accepted lead to. -/
theorem foldlM_accepted (group : Snapshot) (arriving : List Change) :
    (group.accepted arriving).foldlM apply group = .ok (group.follow arriving) := by
  induction arriving generalizing group with
  | nil => rfl
  | cons change rest ih =>
    rw [accepted, follow, List.foldl_cons, receive]
    split
    · rename_i next accepts
      rw [List.foldlM_cons, (applyNext_eq_ok_iff.1 accepts).2]
      exact ih next
    · -- a change that is refused leaves the group as it was, and is not replayed
      exact ih group

/-- The revisions of the changes that a client accepts count up from its own. -/
theorem revisions_accepted (group : Snapshot) (arriving : List Change) :
    (group.accepted arriving).map (·.revision.toNat) =
      List.range' (group.revision.toNat + 1) (group.accepted arriving).length := by
  induction arriving generalizing group with
  | nil => rfl
  | cons change rest ih =>
    rw [accepted]
    split
    · rename_i next accepts
      -- what is accepted has the next revision, and the rest goes on from there
      obtain ⟨adjacent, applied⟩ := applyNext_eq_ok_iff.1 accepts
      rw [List.map_cons, ih next, revision_apply applied, List.length_cons, List.range'_succ,
        adjacent]
    · exact ih group

/-- A client is as many revisions further as it accepted changes. As a number the revision never
gets smaller, so it is never counted beyond the largest one. -/
theorem revision_follow (group : Snapshot) (arriving : List Change) :
    (group.follow arriving).revision.toNat =
      group.revision.toNat + (group.accepted arriving).length := by
  induction arriving generalizing group with
  | nil => rfl
  | cons change rest ih =>
    rw [accepted, follow, List.foldl_cons, receive]
    split
    · rename_i next accepts
      obtain ⟨adjacent, applied⟩ := applyNext_eq_ok_iff.1 accepts
      have further := ih next
      rw [revision_apply applied, ← adjacent, Nat.add_assoc, Nat.add_comm 1] at further
      exact further
    · exact ih group

theorem follow_append (group : Snapshot) (earlier later : List Change) :
    group.follow (earlier ++ later) = (group.follow earlier).follow later :=
  List.foldl_append

/-! ### The log decides -/

/-- What a client accepts of a log is what the log has up to the revision that the client reaches.
-/
theorem accepted_eq_between {log : Log} {arriving : List Change}
    (known : ∀ change ∈ arriving, change ∈ log.entries) (group : Snapshot) :
    group.accepted arriving =
      log.between group.revision.toNat (group.follow arriving).revision.toNat := by
  rw [revision_follow]
  symm
  apply Log.between_eq
  · intro change mem
    exact known change ((accepted_sublist group arriving).subset mem)
  · exact revisions_accepted group arriving

/-- Whatever arrives from a log, in any order, repeated or not at all: the changes that are accepted
have the next revisions without a gap, the revision is never lowered, the group is what the log up
to that revision makes of the first one, and so any two clients at one revision hold the same. -/
theorem follow_log (log : Log) (start : Snapshot) {arriving : List Change}
    (known : ∀ change ∈ arriving, change ∈ log.entries) :
    let group := start.follow arriving
    (start.accepted arriving).map (·.revision.toNat) =
        List.range' (start.revision.toNat + 1) (start.accepted arriving).length
      ∧ group.revision.toNat = start.revision.toNat + (start.accepted arriving).length
      ∧ (∀ earlier later, arriving = earlier ++ later →
        (start.follow earlier).revision ≤ group.revision)
      ∧ start.accepted arriving = log.between start.revision.toNat group.revision.toNat
      ∧ (log.between start.revision.toNat group.revision.toNat).foldlM apply start = .ok group
      ∧ ∀ others, (∀ change ∈ others, change ∈ log.entries) →
        (start.follow others).revision = group.revision → start.follow others = group := by
  intro group
  -- whoever follows the log holds the replay of it up to their own revision
  have replay : ∀ others, (∀ change ∈ others, change ∈ log.entries) →
      (log.between start.revision.toNat (start.follow others).revision.toNat).foldlM apply start =
        .ok (start.follow others) := by
    intro others known
    rw [← accepted_eq_between known]
    exact foldlM_accepted start others
  refine ⟨revisions_accepted start arriving, revision_follow start arriving, ?_,
    accepted_eq_between known start, replay arriving known, ?_⟩
  · -- more changes can only add to the revision
    rintro earlier later rfl
    rw [UInt32.le_iff_toNat_le]
    have further := revision_follow (start.follow earlier) later
    rw [← follow_append] at further
    exact Nat.le.intro further.symm
  · -- the same part of the log is replayed from the same start
    intro others known' same
    have there := replay others known'
    rw [same, replay arriving known] at there
    exact (Except.ok.inj there).symm

end Snapshot

namespace Sample

def addition : Change where
  revision := 6
  newMembers := [member 2]

def removal : Change where
  revision := 7
  removedMembers := [aci 1]

/-- A change that nobody can apply: it removes somebody who is no member. -/
def stuck : Change where
  revision := 8
  removedMembers := [aci 9]

def unreached : Change where
  revision := 9
  newMembers := [member 3]

def log : Log where
  entries := [stuck, addition, unreached, removal]
  distinct := by decide

/-- Two clients that meet at the revision before the change that does not apply. One of them gets
changes too early and twice, the other misses some. -/
theorem follow_log_sample :
    let start : Snapshot := { revision := 5, members := [administrator 1] }
    let early := [unreached, removal, addition, addition, stuck, removal, stuck]
    let sparse := [addition, removal, unreached]
    (∀ change ∈ early, change ∈ log.entries) ∧ (∀ change ∈ sparse, change ∈ log.entries)
      ∧ start.accepted early = [addition, removal]
      ∧ start.follow early = { revision := 7, members := [member 2] }
      ∧ start.follow sparse = start.follow early := by
  intro start early sparse
  have known : ∀ change ∈ early, change ∈ log.entries := by decide
  have known' : ∀ change ∈ sparse, change ∈ log.entries := by decide
  obtain ⟨-, -, -, accepts, -, agree⟩ := Snapshot.follow_log log start known
  have reached : start.follow early = { revision := 7, members := [member 2] } := by decide +kernel
  refine ⟨known, known', ?_, reached, agree sparse known' ?_⟩
  · rw [accepts, reached]
    decide +kernel
  · decide +kernel

end Sample

end SealedGroups
