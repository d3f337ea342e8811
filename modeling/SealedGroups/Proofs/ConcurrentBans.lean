import SealedGroups.Proofs.Banning
import SealedGroups.Proofs.Rebase

/-!
# Bans made at the same time

Two administrators ban at the same time and go by the same ban list. The ban that comes second is
rebased onto what the first one left, and rebasing looks at every entry on its own: an eviction that
the first one has made already is dropped, and nobody is evicted in its place. Both of them evict
from the oldest entry on, so the one who evicts fewer frees nothing that the other has not freed
already. The capacity of the ban list is then no bound on its length
(`concurrent_bans_exceed_capacity`): it is exceeded by up to as many entries as the shorter of the
two bans has (`length_bans_of_concurrent`).
-/

namespace SealedGroups

/-! ### Room made twice -/

section

variable {oldest known new : List Bytes}

theorem mem_take_max {id : Bytes} (i j : Nat) :
    id ∈ oldest.take (max i j) ↔ id ∈ oldest.take i ∨ id ∈ oldest.take j := by
  rcases Nat.le_total i j with le | le
  · rw [Nat.max_eq_right le]
    exact (or_iff_right_of_imp fun mem => List.take_subset_take_left _ le mem).symm
  · rw [Nat.max_eq_left le]
    exact (or_iff_left_of_imp fun mem => List.take_subset_take_left _ le mem).symm

/-- Of a list that two cut at the front, each taking out what the other has left of their share, as
much is gone as the one takes who takes more. -/
theorem diff_take_twice (distinct : (known ++ new).Nodup) (there : oldest ⊆ known) (i j : Nat) :
    (known.diff (oldest.take i) ++ new).diff
        ((oldest.take j).filter fun id => decide (id ∈ known.diff (oldest.take i))) =
      (known ++ new).diff (oldest.take (max i j)) := by
  obtain ⟨distinct_known, -, apart⟩ := List.nodup_append.1 distinct
  have distinct_left : (known.diff (oldest.take i) ++ new).Nodup :=
    distinct.sublist ((List.diff_sublist _ _).append_right new)
  rw [distinct_left.sdiff_eq_filter, distinct.sdiff_eq_filter, distinct_known.sdiff_eq_filter,
    List.filter_append, List.filter_append, List.filter_filter]
  -- those banned before are gone if either took them out, and the new ones stay
  congr 1
  · apply List.filter_congr
    intro id mem
    rw [Bool.eq_iff_iff]
    simp only [mem_take_max, List.mem_filter, mem, true_and, decide_eq_true_iff, Bool.and_eq_true]
    tauto
  · apply List.filter_congr
    intro id mem
    have old : ∀ n, id ∉ oldest.take n := fun n early =>
      apart id (there (List.mem_of_mem_take early)) id mem rfl
    simp only [List.mem_filter, old, false_and, not_false_eq_true]

theorem length_diff_of_subset (distinct : oldest.Nodup) (there : oldest ⊆ known) :
    oldest.length + (known.diff oldest).length = known.length := by
  have count := List.subperm_ext_iff.1 (List.subperm_of_subset distinct there)
  rw [← List.length_append]
  exact (List.subperm_append_diff_self_of_count_le count).length_eq

end

/-- Rebasing a ban drops, entry by entry, what is so already. -/
theorem Change.rebase_ofBans (group : Snapshot) (editor : Bytes)
    (refused banned lifted : List Bytes) :
    (Change.ofBans editor refused banned lifted).rebase group =
      .ofBans editor (refused.filter group.hasRequest) (banned.filter fun id => !group.hasBan id)
        (lifted.filter group.hasBan) := by
  rw [Change.rebase_eq_remainder, Change.ofBans, Change.remainder]
  simp only [List.filter_map, ite_self]
  rfl

namespace GroupClient

/-- Where two bans go by the same ban list, and the second one is rebased onto the first, as many of
the oldest entries are gone in the end as the longer of the two bans evicts. -/
theorem banned_of_concurrent (client : GroupClient) {first second : List ServiceId}
    (refuse₁ refuse₂ : Bool) (source₁ source₂ : ServiceId) {group : Snapshot}
    (orderly : group.OrderlyBans) (distinct : (first ++ second).Nodup)
    (new : ∀ id ∈ first ++ second, id.toBinary ∉ group.banned) :
    ∃ change₁ change₂ next result,
      (client.banChange first refuse₁ group.bans source₁).outcome = .ok change₁
      ∧ (client.banChange second refuse₂ group.bans source₂).outcome = .ok change₂
      ∧ group.apply change₁ = .ok next ∧ next.apply (change₂.rebase next) = .ok result
      ∧ result.banned = (group.banned ++ (first ++ second).map ServiceId.toBinary).diff
        (((oldestFirst group.bans).map (·.serviceId)).take
          (max (client.spacesToFree group.bans first.length)
            (client.spacesToFree group.bans second.length))) := by
  -- both administrators evict from the front of the same list
  let oldest : List Bytes := (oldestFirst group.bans).map (·.serviceId)
  have there : oldest ⊆ group.banned := ((List.mergeSort_perm _ _).map _).subset
  have evicts : ∀ more, (client.evicted group.bans more).map (·.serviceId) =
      oldest.take (client.spacesToFree group.bans more) := fun more => List.map_take
  have opened₁ := client.banChange_outcome first refuse₁ orderly.readable source₁
  have opened₂ := client.banChange_outcome second refuse₂ orderly.readable source₂
  rw [evicts] at opened₁ opened₂
  have fresh : (group.banned ++ (first ++ second).map ServiceId.toBinary).Nodup := by
    refine List.nodup_append.2 ⟨orderly.distinct, distinct.map ServiceId.toBinary_injective, ?_⟩
    rintro id old _ mem rfl
    obtain ⟨other, hother, rfl⟩ := List.mem_map.1 mem
    exact new other hother old
  rw [List.map_append, ← List.append_assoc] at fresh ⊢
  obtain ⟨fresh₁, -, apart⟩ := List.nodup_append.1 fresh
  obtain ⟨next, applied₁, banned₁⟩ := group.apply_ofBans source₁.toBinary
    ((if refuse₁ then first.filter (·.isAci) else []).map ServiceId.toBinary)
    (first.map ServiceId.toBinary)
    (oldest.take (client.spacesToFree group.bans first.length))
  obtain ⟨result, applied₂, banned₂⟩ := next.apply_ofBans source₂.toBinary
    (((if refuse₂ then second.filter (·.isAci) else []).map ServiceId.toBinary).filter
      next.hasRequest)
    ((second.map ServiceId.toBinary).filter fun id => !next.hasBan id)
    ((oldest.take (client.spacesToFree group.bans second.length)).filter next.hasBan)
  rw [← Change.rebase_ofBans] at applied₂
  refine ⟨_, _, next, result, opened₁, opened₂, applied₁, applied₂, ?_⟩
  rw [Snapshot.banAll_of_fresh fresh₁] at banned₁
  have hasBan : ∀ id, next.hasBan id = decide (id ∈ next.banned) := by
    intro id
    rw [Bool.eq_iff_iff, Snapshot.hasBan_iff, decide_eq_true_iff]
  -- the second ban is about nobody whom the first one is about, so all of it is left by the rebase
  have all_new : (second.map ServiceId.toBinary).filter (fun id => !next.hasBan id) =
      second.map ServiceId.toBinary := by
    apply List.filter_eq_self.2
    intro id mem
    rw [hasBan, Bool.not_eq_true', decide_eq_false_iff_not, banned₁]
    intro known
    exact apart id (List.diff_subset _ _ known) id mem rfl
  have fresh₂ : (next.banned ++ second.map ServiceId.toBinary).Nodup := by
    rw [banned₁]
    exact fresh.sublist ((List.diff_sublist _ _).append_right _)
  rw [banned₂, all_new, Snapshot.banAll_of_fresh fresh₂, funext hasBan, banned₁]
  exact diff_take_twice fresh (fun id mem => List.mem_append_left _ (there mem)) _ _

/-- Where two bans go by the same ban list, and the second one is rebased onto the first, the ban
list holds everyone in the end, or else as many as the shorter ban has beyond its capacity. -/
theorem length_bans_of_concurrent (client : GroupClient) {first second : List ServiceId}
    (refuse₁ refuse₂ : Bool) (source₁ source₂ : ServiceId) {group : Snapshot}
    (orderly : group.OrderlyBans) (distinct : (first ++ second).Nodup)
    (new : ∀ id ∈ first ++ second, id.toBinary ∉ group.banned)
    (few : first.length + second.length ≤ client.config.maxBans) :
    ∃ change₁ change₂ next result,
      (client.banChange first refuse₁ group.bans source₁).outcome = .ok change₁
      ∧ (client.banChange second refuse₂ group.bans source₂).outcome = .ok change₂
      ∧ group.apply change₁ = .ok next ∧ next.apply (change₂.rebase next) = .ok result
      ∧ result.bans.length = min (client.config.maxBans + min first.length second.length)
        (group.bans.length + first.length + second.length) := by
  obtain ⟨change₁, change₂, next, result, opened₁, opened₂, applied₁, applied₂, banned⟩ :=
    client.banned_of_concurrent refuse₁ refuse₂ source₁ source₂ orderly distinct new
  refine ⟨change₁, change₂, next, result, opened₁, opened₂, applied₁, applied₂, ?_⟩
  have oldest : ((oldestFirst group.bans).map (·.serviceId)).Perm group.banned :=
    (List.mergeSort_perm _ _).map _
  have there : ((oldestFirst group.bans).map (·.serviceId)).take
      (max (client.spacesToFree group.bans first.length)
        (client.spacesToFree group.bans second.length)) ⊆
      group.banned ++ (first ++ second).map ServiceId.toBinary :=
    fun id mem => List.mem_append_left _ (oldest.mem_iff.1 (List.mem_of_mem_take mem))
  have size := length_diff_of_subset
    ((oldest.nodup_iff.2 orderly.distinct).sublist (List.take_sublist _ _)) there
  rw [← banned, Snapshot.banned, List.length_map, List.length_take, oldest.length_eq,
    List.length_append, Snapshot.banned, List.length_map, List.length_map, List.length_append,
    spacesToFree, spacesToFree] at size
  omega

end GroupClient

namespace Sample

/-- Three bans by two administrators on a ban list of three: the one of them who bans one has it
banned beyond the capacity. -/
theorem length_bans_of_concurrent_sample :
    fullGroup.OrderlyBans ∧ ∃ change₁ change₂ next result,
      (strictClient.banChange [.aci (uuid 4), .pni (uuid 5)] true fullGroup.bans
        (.aci (uuid 7))).outcome = .ok change₁
      ∧ (strictClient.banChange [.aci (uuid 6)] false fullGroup.bans
        (.aci (uuid 8))).outcome = .ok change₂
      ∧ fullGroup.apply change₁ = .ok next ∧ next.apply (change₂.rebase next) = .ok result
      ∧ result.bans.length = 4 := by
  have distinct : ([ServiceId.aci (uuid 4), ServiceId.pni (uuid 5)]
      ++ [ServiceId.aci (uuid 6)]).Nodup := by decide +kernel
  refine ⟨orderlyBans_fullGroup, ?_⟩
  exact strictClient.length_bans_of_concurrent true false (.aci (uuid 7)) (.aci (uuid 8))
    orderlyBans_fullGroup distinct (by decide +kernel) (by decide)

/-- Two administrators who ban one person each at the same time free one place only. -/
theorem concurrent_bans_exceed_capacity :
    fullGroup.OrderlyBans ∧ fullGroup.bans.length ≤ strictClient.config.maxBans
      ∧ ([ServiceId.aci (uuid 4)] ++ [ServiceId.aci (uuid 5)]).Nodup
      ∧ (∀ id ∈ [ServiceId.aci (uuid 4)] ++ [ServiceId.aci (uuid 5)],
        id.toBinary ∉ fullGroup.banned)
      ∧ [ServiceId.aci (uuid 4)].length + [ServiceId.aci (uuid 5)].length
        ≤ strictClient.config.maxBans
      ∧ ∃ change₁ change₂ next result,
        (strictClient.banChange [.aci (uuid 4)] false fullGroup.bans
          (.aci (uuid 6))).outcome = .ok change₁
        ∧ (strictClient.banChange [.aci (uuid 5)] false fullGroup.bans
          (.aci (uuid 7))).outcome = .ok change₂
        ∧ fullGroup.apply change₁ = .ok next ∧ next.apply (change₂.rebase next) = .ok result
        ∧ ¬ result.bans.length ≤ strictClient.config.maxBans := by
  have distinct : ([ServiceId.aci (uuid 4)] ++ [ServiceId.aci (uuid 5)]).Nodup := by decide +kernel
  have new : ∀ id ∈ [ServiceId.aci (uuid 4)] ++ [ServiceId.aci (uuid 5)],
      id.toBinary ∉ fullGroup.banned := by decide +kernel
  refine ⟨orderlyBans_fullGroup, by decide +kernel, distinct, new, by decide, ?_⟩
  obtain ⟨change₁, change₂, next, result, opened₁, opened₂, applied₁, applied₂, banned⟩ :=
    strictClient.banned_of_concurrent false false (.aci (uuid 6)) (.aci (uuid 7))
      orderlyBans_fullGroup distinct new
  refine ⟨change₁, change₂, next, result, opened₁, opened₂, applied₁, applied₂, ?_⟩
  rw [oldestFirst_fullGroup] at banned
  have size : result.banned.length = 4 := by
    rw [banned]
    decide +kernel
  rw [Snapshot.banned, List.length_map] at size
  rw [size]
  decide

end Sample

end SealedGroups
