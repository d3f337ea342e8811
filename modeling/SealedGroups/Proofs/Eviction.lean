import SealedGroups.Proofs.Banning
import SealedGroups.Proofs.Step.Frame
import SealedGroups.Proofs.Step.Slot

/-!
# Who makes room on a full ban list

A ban that would not fit lifts the bans of the oldest entries. Which these are is said here without
a sort: entries are compared by timestamp and, among equal ones, by position (`Older`), and an entry
makes room if it holds an identity and fewer entries that hold one are older than it than places are
needed (`MakesRoom`). An entry that holds no identity is never counted and stays where it is.

The ban list after a ban is what stays of the one before, in its order, and behind it those who were
banned (`bans_of_ban`). That the sort by timestamps alone finds the same entries is because it is
stable: it is the sort of the entries with their positions (`oldestFirst_eq`).
-/

namespace SealedGroups

/-! ### Entries and their age -/

/-- Whether an entry of a ban list, given with its position, is older than another. -/
def Older (a b : Ban × Nat) : Prop :=
  a.1.timestamp < b.1.timestamp ∨ (a.1.timestamp = b.1.timestamp ∧ a.2 < b.2)

instance : DecidableRel Older :=
  fun _ _ => inferInstanceAs (Decidable (_ ∨ _))

theorem Older.asymm {a b : Ban × Nat} (h : Older a b) : ¬ Older b a := by
  rintro (newer | ⟨same, behind⟩)
  · rcases h with older | ⟨same, -⟩
    · exact UInt64.lt_asymm older newer
    · exact UInt64.lt_irrefl _ (same ▸ newer)
  · rcases h with older | ⟨-, before⟩
    · exact UInt64.lt_irrefl _ (same ▸ older)
    · exact Nat.lt_asymm before behind

/-- The entries of a ban list that hold an identity, with their positions. -/
def readableEntries (bans : List Ban) : List (Ban × Nat) :=
  bans.zipIdx.filter (·.1.isReadable)

/-- Whether an entry is among those that go when so many places are needed. -/
def MakesRoom (bans : List Ban) (places : Nat) (entry : Ban × Nat) : Prop :=
  entry ∈ readableEntries bans
    ∧ ((readableEntries bans).filter fun other => Older other entry).length < places

instance (bans : List Ban) (places : Nat) : DecidablePred (MakesRoom bans places) :=
  fun _ => inferInstanceAs (Decidable (_ ∧ _))

/-- What stays of a ban list when so many places are needed. -/
def staying (bans : List Ban) (places : Nat) : List Ban :=
  (bans.zipIdx.filter fun entry => ¬ MakesRoom bans places entry).map (·.1)

/-! ### The sort -/

/-- Of a list in strict order, the elements at the front are those that few elements precede. -/
theorem mem_take_iff_of_sorted {α : Type} {before : α → α → Prop} [DecidableRel before]
    (asymm : ∀ a b, before a b → ¬ before b a) {sorted : List α} (order : sorted.Pairwise before)
    {count : Nat} {a : α} :
    a ∈ sorted.take count ↔
      a ∈ sorted ∧ (sorted.filter fun other => before other a).length < count := by
  induction sorted generalizing count with
  | nil => simp
  | cons first rest ih =>
    obtain ⟨ahead, order⟩ := List.pairwise_cons.1 order
    cases count with
    | zero => simp
    | succ count =>
      rw [List.take_succ_cons, List.mem_cons, List.mem_cons, ih order]
      by_cases same : a = first
      · -- nothing precedes the first element
        have none : (first :: rest).filter (fun other => before other a) = [] := by
          apply List.filter_eq_nil_iff.2
          intro other mem
          rw [decide_eq_true_iff, same]
          rcases List.mem_cons.1 mem with rfl | mem
          · exact fun self => asymm _ _ self self
          · exact asymm _ _ (ahead other mem)
        rw [none]
        simp [same]
      · simp only [same, false_or]
        apply and_congr_right
        intro mem
        -- everyone else has the first element before it, which takes one of the places
        have preceded : (first :: rest).filter (fun other => before other a) =
            first :: rest.filter fun other => before other a :=
          List.filter_cons_of_pos (decide_eq_true (ahead a mem))
        rw [preceded, List.length_cons, Nat.add_lt_add_iff_right]

/-- Whether an entry goes before another when entries are sorted by their timestamps. -/
def notNewer (a b : Ban) : Bool :=
  a.timestamp ≤ b.timestamp

/-- The entries of a ban list with their positions, from the oldest to the newest. -/
def agedEntries (bans : List Ban) : List (Ban × Nat) :=
  bans.zipIdx.mergeSort (List.zipIdxLE notNewer)

theorem agedEntries_perm (bans : List Ban) : (agedEntries bans).Perm bans.zipIdx :=
  List.mergeSort_perm _ _

/-- Sorting by timestamps goes by the positions where timestamps are equal. -/
theorem oldestFirst_eq (bans : List Ban) : oldestFirst bans = (agedEntries bans).map (·.1) :=
  List.mergeSort_zipIdx.symm

theorem older_of_zipIdxLE {a b : Ban × Nat} (le : List.zipIdxLE notNewer a b = true)
    (ne : a.2 ≠ b.2) : Older a b := by
  simp only [List.zipIdxLE, notNewer, decide_eq_true_eq] at le
  split at le
  · rename_i upTo
    -- of two entries that are as old as each other the one that stands before the other goes first
    split at le
    · rename_i downTo
      have before : a.2 ≤ b.2 := of_decide_eq_true le
      exact Or.inr ⟨UInt64.le_antisymm upTo downTo, Nat.lt_of_le_of_ne before ne⟩
    · rename_i older
      exact Or.inl (UInt64.not_le.1 older)
  · cases le

theorem agedEntries_sorted (bans : List Ban) : (agedEntries bans).Pairwise Older := by
  have trans : ∀ a b c, notNewer a b = true → notNewer b c = true → notNewer a c = true := by
    intro a b c first second
    exact decide_eq_true (UInt64.le_trans (of_decide_eq_true first) (of_decide_eq_true second))
  have total : ∀ a b, (notNewer a b || notNewer b a) = true := by
    intro a b
    simpa [notNewer] using UInt64.le_total a.timestamp b.timestamp
  have sorted : (agedEntries bans).Pairwise fun a b => List.zipIdxLE notNewer a b = true :=
    List.pairwise_mergeSort (List.zipIdxLE_trans trans) (List.zipIdxLE_total total) _
  -- no two entries stand in the same place, so none is as old as another
  have positions : ((agedEntries bans).map (·.2)).Nodup := by
    rw [((agedEntries_perm bans).map _).nodup_iff]
    change (bans.zipIdx.map Prod.snd).Nodup
    rw [List.zipIdx_map_snd]
    exact List.nodup_range'
  exact (sorted.and (List.pairwise_map.1 positions)).imp fun h => older_of_zipIdxLE h.1 h.2

/-! ### Who is evicted -/

/-- The entries that make room, from the oldest on. -/
def leaving (bans : List Ban) (places : Nat) : List (Ban × Nat) :=
  ((agedEntries bans).filter (·.1.isReadable)).take places

theorem agedReadable_perm (bans : List Ban) :
    ((agedEntries bans).filter (·.1.isReadable)).Perm (readableEntries bans) :=
  (agedEntries_perm bans).filter _

theorem mem_leaving_iff {bans : List Ban} {places : Nat} {entry : Ban × Nat} :
    entry ∈ leaving bans places ↔ MakesRoom bans places entry := by
  have readable := agedReadable_perm bans
  rw [leaving, mem_take_iff_of_sorted (fun _ _ => Older.asymm) ((agedEntries_sorted bans).filter _),
    readable.mem_iff, (readable.filter _).length_eq]
  rfl

/-- The identities of the oldest readable entries are those of the entries that make room. -/
theorem oldest_ids (bans : List Ban) (places : Nat) :
    (((oldestFirst bans).filterMap Ban.id?).take places).map ServiceId.toBinary =
      (leaving bans places).map (·.1.serviceId) := by
  rw [List.map_take, Ban.map_toBinary_ids, oldestFirst_eq, List.filter_map, List.map_map, leaving,
    List.map_take]
  rfl

/-- No newer readable entry goes before an older one. -/
theorem older_of_makesRoom {bans : List Ban} {places : Nat} {gone kept : Ban × Nat}
    (goes : MakesRoom bans places gone) (readable : kept ∈ readableEntries bans)
    (stays : ¬ MakesRoom bans places kept) : Older gone kept := by
  have sorted := (agedEntries_sorted bans).filter (·.1.isReadable)
  have split := List.take_append_drop places ((agedEntries bans).filter (·.1.isReadable))
  rw [← mem_leaving_iff] at goes stays
  -- the order by age is cut at the number of places: what goes is before the cut, the rest behind
  have there : kept ∈ (agedEntries bans).filter (·.1.isReadable) :=
    (agedReadable_perm bans).mem_iff.2 readable
  rw [← split] at sorted there
  have behind := (List.mem_append.1 there).resolve_left stays
  exact (List.pairwise_append.1 sorted).2.2 gone goes kept behind

/-- As many entries go as places are needed, or else all that are readable. -/
theorem length_staying (bans : List Ban) (places : Nat) :
    (staying bans places).length + min places (readableEntries bans).length = bans.length := by
  have positions : (bans.zipIdx.map Prod.snd).Nodup := by
    rw [List.zipIdx_map_snd]
    exact List.nodup_range'
  have distinct : bans.zipIdx.Nodup := List.Nodup.of_map _ positions
  -- the entries that make room are those in front of the cut, only in another order
  have goes : (bans.zipIdx.filter (MakesRoom bans places ·)).Perm (leaving bans places) := by
    have distinctAged := (agedEntries_perm bans).nodup_iff.2 distinct
    apply (List.perm_ext_iff_of_nodup (distinct.filter _) ?_).2
    · intro entry
      rw [mem_leaving_iff, List.mem_filter, decide_eq_true_iff]
      exact and_iff_right_of_imp fun goes => List.mem_of_mem_filter goes.1
    · exact (distinctAged.filter _).sublist (List.take_sublist _ _)
  have count := goes.length_eq
  rw [leaving, List.length_take, (agedReadable_perm bans).length_eq] at count
  have split := List.length_eq_length_filter_add (l := bans.zipIdx) (MakesRoom bans places ·)
  rw [List.length_zipIdx, count] at split
  rw [staying, List.length_map, split, Nat.add_comm]
  simp only [decide_not]

/-- Entries are selected as well together with their positions. -/
private theorem filter_eq_map_zipIdx {α : Type} (keep : α → Bool) (entries : List α) :
    entries.filter keep = (entries.zipIdx.filter (keep ·.1)).map (·.1) := by
  have firsts : entries.zipIdx.map (·.1) = entries := List.zipIdx_map_fst 0 entries
  calc
    entries.filter keep = (entries.zipIdx.map (·.1)).filter keep := by rw [firsts]
    _ = (entries.zipIdx.filter (keep ·.1)).map (·.1) := List.filter_map

/-- Entries that hold no identity all stay. -/
theorem unreadable_staying (bans : List Ban) (places : Nat) :
    (staying bans places).filter (!·.isReadable) = bans.filter (!·.isReadable) := by
  rw [filter_eq_map_zipIdx _ bans, staying, List.filter_map, List.filter_filter]
  congr 1
  apply List.filter_congr
  intro entry _
  cases unreadable : !entry.1.isReadable with
  | false => simp [unreadable]
  | true =>
    have stays : ¬ MakesRoom bans places entry := by
      intro goes
      have readable : entry.1.isReadable = true := (List.mem_filter.1 goes.1).2
      simp [readable] at unreadable
    simp [unreadable, stays]

/-! ### The ban list afterwards -/

section

variable {bans : List Ban}

theorem map_readableEntries (bans : List Ban) :
    (readableEntries bans).map (·.1.serviceId) =
      (bans.filter (·.isReadable)).map (·.serviceId) := by
  rw [filter_eq_map_zipIdx, List.map_map]
  rfl

/-- Readable entries are told apart by their identities, if no identity is there twice. -/
theorem nodup_readableEntries (distinct : (bans.filterMap Ban.id?).Nodup) :
    ((readableEntries bans).map (·.1.serviceId)).Nodup := by
  rw [map_readableEntries, ← Ban.map_toBinary_ids]
  exact distinct.map ServiceId.toBinary_injective

/-- Whoever makes room is on the ban list once, if no identity is there twice. -/
theorem count_of_mem_leaving (distinct : (bans.filterMap Ban.id?).Nodup) {places : Nat} {id : Bytes}
    (leaves : id ∈ (leaving bans places).map (·.1.serviceId)) :
    (bans.map (·.serviceId)).count id = 1 := by
  obtain ⟨entry, mem, rfl⟩ := List.mem_map.1 leaves
  have there := (mem_leaving_iff.1 mem).1
  obtain ⟨id, same⟩ := Ban.isReadable_iff.1 (List.mem_filter.1 there).2
  have readable : bans.filter (·.serviceId == entry.1.serviceId) =
      (bans.filter (·.isReadable)).filter (·.serviceId == entry.1.serviceId) := by
    rw [List.filter_filter]
    apply List.filter_congr
    intro ban _
    -- who has the bytes of a readable entry is readable, too
    cases fits : ban.serviceId == entry.1.serviceId with
    | false => rfl
    | true =>
      have held : ban.isReadable = true :=
        Ban.isReadable_iff.2 ⟨id, same.trans (beq_iff_eq.1 fits).symm⟩
      rw [held]
      rfl
  rw [Snapshot.count_map_key, readable, ← Snapshot.count_map_key, ← map_readableEntries]
  exact List.count_eq_one_of_mem (nodup_readableEntries distinct) (List.mem_map_of_mem there)

/-- An entry goes exactly if its identity is one of those that go. -/
theorem mem_ids_leaving_iff (distinct : (bans.filterMap Ban.id?).Nodup) {places : Nat}
    {entry : Ban × Nat} (there : entry ∈ bans.zipIdx) :
    entry.1.serviceId ∈ (leaving bans places).map (·.1.serviceId) ↔
      MakesRoom bans places entry := by
  constructor
  · intro leaves
    obtain ⟨other, mem, same⟩ := List.mem_map.1 leaves
    have goes := mem_leaving_iff.1 mem
    obtain ⟨id, held⟩ := Ban.isReadable_iff.1 (List.mem_filter.1 goes.1).2
    have readable : entry ∈ readableEntries bans :=
      List.mem_filter.2 ⟨there, Ban.isReadable_iff.2 ⟨id, held.trans same⟩⟩
    -- identities are distinct, so the entry of the same bytes is the same entry
    have eq := List.inj_on_of_nodup_map (nodup_readableEntries distinct) goes.1 readable same
    exact eq ▸ goes
  · intro goes
    exact List.mem_map.2 ⟨entry, mem_leaving_iff.2 goes, rfl⟩

/-- Lifting the bans of those who make room leaves the others, and whoever was banned after them. -/
theorem lift_leaving (distinct : (bans.filterMap Ban.id?).Nodup) (places : Nat) (new : List Ban) :
    ((leaving bans places).map (·.1.serviceId)).foldl
        (fun bans id => bans.eraseP (·.serviceId == id)) (bans ++ new) =
      staying bans places ++ new := by
  have nodup : ((leaving bans places).map (·.1.serviceId)).Nodup := by
    have aged := ((agedReadable_perm bans).map (·.1.serviceId)).nodup_iff.2
      (nodup_readableEntries distinct)
    exact aged.sublist ((List.take_sublist _ _).map _)
  -- each of the bans that are lifted is there once, so all of their entries go and no others
  rw [foldl_eraseP_append nodup fun id => count_of_mem_leaving distinct, filter_eq_map_zipIdx,
    staying]
  congr 2
  apply List.filter_congr
  intro entry there
  rw [Bool.eq_iff_iff, not_contains_iff, mem_ids_leaving_iff distinct there, decide_eq_true_iff]

end

theorem Change.steps_ofBans (editor : Bytes) (refused banned lifted : List Bytes) :
    (ofBans editor refused banned lifted).steps =
      [.setAttributes (ofBans editor refused banned lifted)] ++ refused.map .refuse
        ++ (ofBans editor refused banned lifted).newBans.map .ban
        ++ (ofBans editor refused banned lifted).liftedBans.map .liftBan := by
  simp [steps, ofBans]

/-- Identities that are new on a ban list are put at its end, before bans are lifted. -/
theorem Snapshot.bans_of_apply_ofBans {group result : Snapshot} {editor : Bytes}
    {refused banned lifted : List Bytes} (distinct : banned.Nodup)
    (fresh : ∀ id ∈ banned, id ∉ group.banned)
    (applied : group.apply (.ofBans editor refused banned lifted) = .ok result) :
    result.bans = lifted.foldl (fun bans id => bans.eraseP (·.serviceId == id))
      (group.bans ++ banned.map fun id => { serviceId := id }) := by
  let change := Change.ofBans editor refused banned lifted
  have new : change.newBans.map (·.serviceId) = banned := by
    simp [change, Change.ofBans, List.map_map, Function.comp_def]
  have old : change.liftedBans.map (·.serviceId) = lifted := by
    simp [change, Change.ofBans, List.map_map, Function.comp_def]
  -- neither the attributes nor the refusals touch the ban list
  have before : ((group.atRevision change.revision).after
      ([.setAttributes change] ++ refused.map .refuse)).bans = group.bans := by
    rw [after_append, after_refusals]
    rfl
  rw [← (apply_eq_ok_iff.1 applied).2, Change.steps_ofBans, after_append, after_append,
    after_liftedBans, after_bans]
  · change (change.liftedBans.map (·.serviceId)).foldl _ (Snapshot.bans _ ++ change.newBans) = _
    rw [before, old]
    rfl
  · rw [new]
    exact distinct
  · rw [new, Snapshot.banned, before]
    exact fresh

namespace GroupClient

/-- A ban can always be made, and leads from a ban list to what stays of it when room is made for
the new entries, and these behind it. As many entries go as there are too many, or else all that
hold an identity; those that go are older than those that could have gone; entries that hold none
stay. So the ban list keeps to its capacity if there were enough entries to evict. -/
theorem bans_of_ban (client : GroupClient) {ids : List ServiceId} (refuse : Bool)
    (source : ServiceId) {group : Snapshot} (known : (group.bans.filterMap Ban.id?).Nodup)
    (distinct : ids.Nodup) (new : ∀ id ∈ ids, id.toBinary ∉ group.banned) :
    let places := group.bans.length + ids.length - client.config.maxBans
    ∃ change result, (client.banChange ids refuse group.bans source).outcome = .ok change
      ∧ group.apply change = .ok result
      ∧ result.bans = staying group.bans places
        ++ ids.map (fun id => { serviceId := id.toBinary, timestamp := 0 })
      ∧ (staying group.bans places).length + min places (readableEntries group.bans).length =
        group.bans.length
      ∧ (∀ gone kept, MakesRoom group.bans places gone → kept ∈ readableEntries group.bans →
        ¬ MakesRoom group.bans places kept → Older gone kept)
      ∧ (staying group.bans places).filter (!·.isReadable) =
        group.bans.filter (!·.isReadable)
      ∧ (places ≤ (readableEntries group.bans).length →
        result.bans.length ≤ client.config.maxBans) := by
  intro places
  have opened := client.banChange_outcome_of_ids ids refuse group.bans source
  rw [oldest_ids] at opened
  obtain ⟨result, applied, -⟩ := group.apply_ofBans source.toBinary
    ((if refuse then ids.filter (·.isAci) else []).map ServiceId.toBinary)
    (ids.map ServiceId.toBinary) ((leaving group.bans places).map (·.1.serviceId))
  have fresh : ∀ id ∈ ids.map ServiceId.toBinary, id ∉ group.banned := by
    intro _ mem
    obtain ⟨id, among, rfl⟩ := List.mem_map.1 mem
    exact new id among
  have bans : result.bans = staying group.bans places
      ++ ids.map fun id => { serviceId := id.toBinary, timestamp := 0 } := by
    rw [Snapshot.bans_of_apply_ofBans (distinct.map ServiceId.toBinary_injective) fresh applied,
      lift_leaving known, List.map_map]
    rfl
  have size := length_staying group.bans places
  refine ⟨_, result, opened, applied, bans, size, ?_, unreadable_staying _ _, ?_⟩
  · intro gone kept
    exact older_of_makesRoom
  · -- with enough readable entries as many of them go as places are needed
    intro enough
    rw [Nat.min_eq_left enough] at size
    rw [bans, List.length_append, List.length_map]
    omega

end GroupClient

namespace Sample

/-- A full ban list, the oldest entry of which holds no identity, and two of which are of the same
age. -/
def partlyUnreadableGroup : Snapshot where
  bans := [ban 3 100, { serviceId := [1, 2, 3], timestamp := 50 }, ban 2 100]

/-- Of two entries of the same age the first makes room, and the oldest, which cannot be read, does
not. -/
theorem bans_of_ban_sample :
    (partlyUnreadableGroup.bans.filterMap Ban.id?).Nodup ∧ [ServiceId.pni (uuid 6)].Nodup
      ∧ (∀ id ∈ [ServiceId.pni (uuid 6)], id.toBinary ∉ partlyUnreadableGroup.banned)
      ∧ ∃ change result,
        (strictClient.banChange [.pni (uuid 6)] true partlyUnreadableGroup.bans
          (.aci (uuid 5))).outcome = .ok change
        ∧ partlyUnreadableGroup.apply change = .ok result
        ∧ result.bans = [{ serviceId := [1, 2, 3], timestamp := 50 }, ban 2 100,
          { serviceId := pni 6 }]
        ∧ result.bans.length ≤ strictClient.config.maxBans := by
  have known : (partlyUnreadableGroup.bans.filterMap Ban.id?).Nodup := by decide +kernel
  have new : ∀ id ∈ [ServiceId.pni (uuid 6)], id.toBinary ∉ partlyUnreadableGroup.banned := by
    decide +kernel
  obtain ⟨change, result, opened, applied, bans, -, -, -, fits⟩ :=
    strictClient.bans_of_ban true (.aci (uuid 5)) known (List.nodup_singleton _) new
  refine ⟨known, List.nodup_singleton _, new, change, result, opened, applied, ?_, ?_⟩
  · rw [bans]
    decide +kernel
  · exact fits (by decide +kernel)

end Sample

end SealedGroups
