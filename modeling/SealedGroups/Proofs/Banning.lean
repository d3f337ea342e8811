import SealedGroups.Client.Bans
import SealedGroups.Curve.Ristretto
import SealedGroups.Proofs.Opening
import SealedGroups.Proofs.Step.Effect
import SealedGroups.Samples
import Mathlib.Data.List.Perm.Subperm

/-!
# What a ban does to the ban list

A ban is built from the identities to ban and from the ban list as the client knows it: the entries
that were banned longest are lifted to make room. This file follows it through encryption and
decryption (`banChange_outcome`) to the ban list that results, of which only the identities matter
(`banned_apply`).

Room is made without a look at who is to be banned, and bans come before lifted bans when a change
is applied. So whoever is banned again while they are among the oldest entries is not banned any
more afterwards; everyone else is (`mem_banned_iff_of_ban`).
-/

namespace SealedGroups

/-! ### Who is evicted -/

/-- The identity that an entry of a ban list holds, if it holds one. -/
def Ban.id? (ban : Ban) : Option ServiceId :=
  (ServiceId.ofBinary ban.serviceId).toOption

theorem Ban.id?_eq_some_iff {ban : Ban} {id : ServiceId} :
    ban.id? = some id ↔ id.toBinary = ban.serviceId :=
  ServiceId.toOption_ofBinary_eq_some_iff

/-- Whether an entry of a ban list holds an identity. -/
def Ban.isReadable (ban : Ban) : Bool :=
  ban.id?.isSome

theorem Ban.isReadable_iff {ban : Ban} :
    ban.isReadable = true ↔ ∃ id : ServiceId, id.toBinary = ban.serviceId := by
  simp only [isReadable, Option.isSome_iff_exists, id?_eq_some_iff]

/-- The identities of a ban list are the bytes of its readable entries. -/
theorem Ban.map_toBinary_ids (bans : List Ban) :
    (bans.filterMap id?).map ServiceId.toBinary = (bans.filter isReadable).map (·.serviceId) := by
  induction bans with
  | nil => rfl
  | cons ban rest ih =>
    cases held : ban.id? with
    | none =>
      have unreadable : ¬ ban.isReadable = true := by simp [isReadable, held]
      rw [List.filterMap_cons_none held, List.filter_cons_of_neg unreadable, ih]
    | some id =>
      have readable : ban.isReadable = true := by simp [isReadable, held]
      rw [List.filterMap_cons_some held, List.filter_cons_of_pos readable, List.map_cons,
        List.map_cons, ih, id?_eq_some_iff.1 held]

/-- A ban list where every entry holds an identity, and none is there twice. -/
structure Snapshot.OrderlyBans (group : Snapshot) : Prop where
  readable : ∀ ban ∈ group.bans, ∃ id : ServiceId, ServiceId.ofBinary ban.serviceId = .ok id
  distinct : group.banned.Nodup

/-- The identities that are found first are those of the entries that hold one. -/
theorem firstBanned_outcome {ε : Type} (count : Nat) (bans : List Ban) :
    (firstBanned count bans : Noted ε _).outcome = .ok ((bans.filterMap Ban.id?).take count) := by
  induction bans generalizing count with
  | nil => cases count <;> simp [firstBanned]
  | cons ban rest ih =>
    cases count with
    | zero => simp [firstBanned]
    | succ count =>
      unfold firstBanned
      cases read : ServiceId.ofBinary ban.serviceId with
      | ok id =>
        have first : ban.id? = some id := by rw [Ban.id?, read]; rfl
        rw [List.filterMap_cons_some first, List.take_succ_cons]
        dsimp only
        rw [Noted.outcome_map, ih]
        rfl
      | error e =>
        -- an entry that holds nobody is passed over and not counted
        have first : ban.id? = none := by rw [Ban.id?, read]; rfl
        rw [List.filterMap_cons_none first]
        dsimp only
        rw [Noted.outcome_bind]
        exact ih (count + 1)

namespace GroupClient

/-- The entries of a ban list that make room for more. -/
def evicted (client : GroupClient) (bans : List Ban) (more : Nat) : List Ban :=
  (oldestFirst bans).take (client.spacesToFree bans more)

/-- Of a readable list, the identities that are evicted are those of the oldest entries. -/
theorem evicted_ids {client : GroupClient} {bans : List Ban} (more : Nat)
    (readable : ∀ ban ∈ bans, ∃ id : ServiceId, ServiceId.ofBinary ban.serviceId = .ok id) :
    (((oldestFirst bans).filterMap Ban.id?).take (client.spacesToFree bans more)).map
      ServiceId.toBinary = (client.evicted bans more).map (·.serviceId) := by
  have all : ∀ ban ∈ oldestFirst bans, ban.isReadable = true := by
    intro ban mem
    obtain ⟨id, read⟩ := readable ban ((List.mergeSort_perm _ _).mem_iff.1 mem)
    exact Ban.isReadable_iff.2 ⟨id, ServiceId.ofBinary_eq_ok_iff.1 read⟩
  rw [List.map_take, Ban.map_toBinary_ids, List.filter_eq_self.2 all, ← List.map_take]
  rfl

end GroupClient

/-! ### The change that a ban decrypts to -/

/-- A change that refuses requests, bans identities and lifts bans, and does nothing else. -/
def Change.ofBans (editor : Bytes) (refused banned lifted : List Bytes) : Change where
  editor
  refusedRequests := refused
  newBans := banned.map fun id => { serviceId := id }
  liftedBans := lifted.map fun id => { serviceId := id }

namespace GroupClient

variable {client : GroupClient}

/-- The change that the other members find when they decrypt a ban. -/
def banChange (client : GroupClient) (ids : List ServiceId) (refuse : Bool) (bans : List Ban)
    (source : ServiceId) : Noted ClientError Change := do
  client.openActions (← client.ban ids refuse bans) (some source)

/-- A ban lifts the bans of the oldest entries, as many as need to go. -/
theorem ban_outcome {ε : Type} (client : GroupClient) (ids : List ServiceId) (refuse : Bool)
    (bans : List Ban) :
    (client.ban ids refuse bans : Noted ε _).outcome = .ok {
      liftedBans := (((oldestFirst bans).filterMap Ban.id?).take
        (client.spacesToFree bans ids.length)).map client.target
      refusedRequests := (if refuse then ids.filter (·.isAci) else []).map client.target
      newBans := ids.map fun id => { added := some { userId := (client.target id).userId } } } := by
  rw [ban, Noted.outcome_bind, firstBanned_outcome]
  cases refuse <;> rfl

/-- Actions that refuse accounts, ban identities and lift bans decrypt to just that. -/
theorem opens_ofBans (client : GroupClient) (editor : Bytes) {refused : List ServiceId}
    (accounts : ∀ id ∈ refused, id.isAci = true) (banned lifted : List ServiceId) :
    client.Opens {
        refusedRequests := refused.map client.target
        newBans := banned.map fun id => { added := some { userId := (client.target id).userId } }
        liftedBans := lifted.map client.target }
      (.ofBans editor (refused.map ServiceId.toBinary) (banned.map ServiceId.toBinary)
        (lifted.map ServiceId.toBinary)) := by
  constructor
  case refusedRequests =>
    apply mapM_map_eq_ok
    -- only accounts are refused, so the target is read as an account
    intro id mem
    have aci := accounts id mem
    cases id with
    | aci uuid =>
      rw [target, openAci_sealIdentity]
      rfl
    | pni uuid => cases aci
  case newBans =>
    rw [Change.ofBans, List.map_map]
    apply mapM_map_eq_ok
    intro id _
    rw [require_some_bind, openBan, Noted.outcome_bind, target, openIdentityOrUnknown_sealIdentity]
    rfl
  case liftedBans =>
    simp only [Change.ofBans, List.map_map]
    apply mapM_map_eq_ok
    intro id _
    rw [target, openIdentityOrUnknown_sealIdentity]
    rfl
  all_goals rfl

theorem isAci_of_mem_refused {ids : List ServiceId} {refuse : Bool} {id : ServiceId}
    (mem : id ∈ if refuse then ids.filter (·.isAci) else []) : id.isAci = true := by
  split at mem
  · exact (List.mem_filter.1 mem).2
  · cases mem

/-- A ban decrypts, whoever sent it, to bans of the identities given and to lifted bans of the
oldest entries that hold an identity. -/
theorem banChange_outcome_of_ids (client : GroupClient) (ids : List ServiceId) (refuse : Bool)
    (bans : List Ban) (source : ServiceId) :
    (client.banChange ids refuse bans source).outcome = .ok (.ofBans source.toBinary
      ((if refuse then ids.filter (·.isAci) else []).map ServiceId.toBinary)
      (ids.map ServiceId.toBinary)
      ((((oldestFirst bans).filterMap Ban.id?).take (client.spacesToFree bans ids.length)).map
        ServiceId.toBinary)) := by
  rw [banChange, Noted.outcome_bind]
  refine bind_eq_ok_iff.2 ⟨_, ban_outcome client ids refuse bans, ?_⟩
  refine openActions_eq_ok_iff.2 ⟨?_, rfl⟩
  exact client.opens_ofBans _ (fun _ => isAci_of_mem_refused) ids _

/-- Where every entry holds an identity, the bans of the oldest entries are lifted. -/
theorem banChange_outcome (client : GroupClient) (ids : List ServiceId) (refuse : Bool)
    {bans : List Ban}
    (readable : ∀ ban ∈ bans, ∃ id : ServiceId, ServiceId.ofBinary ban.serviceId = .ok id)
    (source : ServiceId) :
    (client.banChange ids refuse bans source).outcome = .ok (.ofBans source.toBinary
      ((if refuse then ids.filter (·.isAci) else []).map ServiceId.toBinary)
      (ids.map ServiceId.toBinary) ((client.evicted bans ids.length).map (·.serviceId))) := by
  rw [banChange_outcome_of_ids, evicted_ids ids.length readable]

end GroupClient

/-! ### The ban list after a change -/

namespace Snapshot

/-- Puts identities on a ban list, those that are not there yet. -/
def banAll (banned ids : List Bytes) : List Bytes :=
  ids.foldl (fun banned id => if id ∈ banned then banned else banned ++ [id]) banned

theorem mem_banAll {banned ids : List Bytes} {id : Bytes} :
    id ∈ banAll banned ids ↔ id ∈ banned ∨ id ∈ ids := by
  unfold banAll
  induction ids generalizing banned with
  | nil => simp
  | cons other rest ih =>
    rw [List.foldl_cons, ih]
    -- a ban that is there already is not made again
    split
    · rename_i known
      constructor
      · rintro (old | new)
        · exact Or.inl old
        · exact Or.inr (List.mem_cons_of_mem _ new)
      · rintro (old | new)
        · exact Or.inl old
        · rcases List.mem_cons.1 new with rfl | new
          · exact Or.inl known
          · exact Or.inr new
    · simp [or_assoc]

theorem nodup_banAll {banned ids : List Bytes} (distinct : banned.Nodup) :
    (banAll banned ids).Nodup := by
  unfold banAll
  induction ids generalizing banned with
  | nil => exact distinct
  | cons id rest ih =>
    rw [List.foldl_cons]
    apply ih
    split
    · exact distinct
    · rename_i fresh
      rw [← List.concat_eq_append]
      exact distinct.concat fresh

/-- Identities that are all new are put at the end. -/
theorem banAll_of_fresh {banned ids : List Bytes} (fresh : (banned ++ ids).Nodup) :
    banAll banned ids = banned ++ ids := by
  -- each ban is fresh when its turn comes, so none is left out
  unfold banAll
  induction ids generalizing banned with
  | nil => simp
  | cons id rest ih =>
    have new : id ∉ banned := fun old =>
      (List.nodup_append.1 fresh).2.2 id old id List.mem_cons_self rfl
    rw [List.append_cons] at fresh
    rw [List.foldl_cons, if_neg new, ih fresh, List.append_assoc]
    rfl

end Snapshot

/-- The banned identities after a step, from the identities alone. -/
def Step.onBanned (banned : List Bytes) : Step → List Bytes
  | .ban entry => if entry.serviceId ∈ banned then banned else banned ++ [entry.serviceId]
  | .liftBan entry => banned.erase entry.serviceId
  | _ => banned

namespace Snapshot

theorem banned_effect (group : Snapshot) (step : Step) :
    (step.effect group).banned = step.onBanned group.banned := by
  cases step with
  | ban entry =>
    simp only [banned, Step.effect, Step.onBans, Step.onBanned, any_key_iff]
    split
    · rename_i known
      exact (if_pos known).symm
    · rename_i new
      exact List.map_append.trans (if_neg new).symm
  | liftBan entry => exact map_eraseP_key _ _ _
  | _ => rfl

theorem banned_after (group : Snapshot) (steps : List Step) :
    (group.after steps).banned = steps.foldl Step.onBanned group.banned := by
  induction steps generalizing group with
  | nil => rfl
  | cons step rest ih => rw [after_cons, ih, banned_effect, List.foldl_cons]

/-- What a change makes of a ban list, in terms of the identities on it. -/
theorem banned_apply {group result : Snapshot} {change : Change}
    (applied : group.apply change = .ok result) :
    result.banned = (banAll group.banned (change.newBans.map (·.serviceId))).diff
      (change.liftedBans.map (·.serviceId)) := by
  obtain ⟨-, rfl⟩ := apply_eq_ok_iff.1 applied
  rw [banned_after, List.diff_eq_foldl, banAll]
  simp only [Change.steps, List.foldl_append, List.foldl_map, List.foldl_cons, List.foldl_nil,
    Step.onBanned, List.foldl_fixed]
  rfl

/-- A change applies if nothing can stand against any of its steps. -/
theorem exists_apply_of_ready (group : Snapshot) {change : Change}
    (ready : ∀ s ∈ change.steps, ∀ group, s.ready group) :
    ∃ result, group.apply change = .ok result := by
  -- the group changes on the way, so readiness has to hold of all groups
  have admitted : ∀ steps : List Step, (∀ s ∈ steps, ∀ group, s.ready group) →
      ∀ group : Snapshot, group.admits steps := by
    intro steps ready
    induction steps with
    | nil => exact fun _ => trivial
    | cons step rest ih =>
      intro group
      exact ⟨ready step List.mem_cons_self group,
        ih (fun s mem => ready s (List.mem_cons_of_mem _ mem)) _⟩
  exact ⟨_, apply_eq_ok_iff.2 ⟨admitted change.steps ready _, rfl⟩⟩

/-- Requests can be refused, identities banned and bans lifted, whatever the state of the group. -/
theorem apply_ofBans (group : Snapshot) (editor : Bytes) (refused banned lifted : List Bytes) :
    ∃ result, group.apply (.ofBans editor refused banned lifted) = .ok result
      ∧ result.banned = (banAll group.banned banned).diff lifted := by
  have ready : ∀ s ∈ (Change.ofBans editor refused banned lifted).steps,
      ∀ group, s.ready group := by
    intro s mem group
    simp only [Change.ofBans, Change.steps, List.map_nil, List.nil_append, List.append_nil,
      List.map_map, List.mem_append, List.mem_map, List.mem_singleton] at mem
    rcases mem with ((rfl | ⟨aci, -, rfl⟩) | ⟨id, -, rfl⟩) | ⟨id, -, rfl⟩ <;> exact trivial
  obtain ⟨result, applied⟩ := group.exists_apply_of_ready ready
  refine ⟨result, applied, ?_⟩
  rw [banned_apply applied]
  simp only [Change.ofBans, List.map_map, Function.comp_def, List.map_id']

end Snapshot

/-! ### Who is banned in the end -/

namespace GroupClient

/-- A ban can always be made. Whoever was to be banned is on the ban list afterwards exactly if none
of the entries that made room was theirs. -/
theorem mem_banned_iff_of_ban (client : GroupClient) (ids : List ServiceId) (refuse : Bool)
    (source : ServiceId) {group : Snapshot} (orderly : group.OrderlyBans) :
    ∃ change result, (client.banChange ids refuse group.bans source).outcome = .ok change
      ∧ group.apply change = .ok result
      ∧ ∀ id ∈ ids, (id.toBinary ∈ result.banned ↔
        id.toBinary ∉ (client.evicted group.bans ids.length).map (·.serviceId)) := by
  have opened := client.banChange_outcome ids refuse orderly.readable source
  obtain ⟨result, applied, banned⟩ := group.apply_ofBans _ _ _ _
  refine ⟨_, result, opened, applied, ?_⟩
  intro id mem
  -- bans come before lifted bans, so whoever is banned is there for the eviction to take
  have added : id.toBinary ∈ Snapshot.banAll group.banned (ids.map ServiceId.toBinary) :=
    Snapshot.mem_banAll.2 (Or.inr (List.mem_map_of_mem mem))
  rw [banned, (Snapshot.nodup_banAll orderly.distinct).mem_sdiff_iff]
  exact and_iff_right added

end GroupClient

namespace Sample

/-- A client whose ban lists keep three entries. -/
def strictClient : GroupClient where
  curve := Ristretto.curve
  serverKey := .replicate 32 0
  config := { maxBans := 3 }
  keys := .derive (.replicate 32 5)

/-- A group whose ban list has no room left. -/
def fullGroup : Snapshot where
  bans := [ban 1 300, ban 2 100, ban 3 200]

theorem orderlyBans_fullGroup : fullGroup.OrderlyBans := by
  constructor
  · have readable : ∀ n timestamp, ∃ id : ServiceId,
        ServiceId.ofBinary (ban n timestamp).serviceId = .ok id :=
      fun n _ => ⟨.aci (uuid n), ServiceId.ofBinary_toBinary (.aci (uuid n))⟩
    intro entry mem
    simp only [fullGroup, List.mem_cons, List.not_mem_nil, or_false] at mem
    rcases mem with rfl | rfl | rfl <;> exact readable _ _
  · decide +kernel

theorem oldestFirst_fullGroup :
    oldestFirst fullGroup.bans = [ban 2 100, ban 3 200, ban 1 300] := by
  simp [oldestFirst, fullGroup, ban, List.mergeSort]

/-- One who is not banned yet, and one who is but not for long, are banned afterwards. -/
theorem mem_banned_of_ban_sample :
    fullGroup.OrderlyBans ∧ ∃ change result,
      (strictClient.banChange [.aci (uuid 4), .aci (uuid 1)] true fullGroup.bans
        (.aci (uuid 5))).outcome = .ok change
      ∧ fullGroup.apply change = .ok result ∧ aci 4 ∈ result.banned ∧ aci 1 ∈ result.banned := by
  obtain ⟨change, result, opened, applied, banned⟩ :=
    GroupClient.mem_banned_iff_of_ban strictClient [.aci (uuid 4), .aci (uuid 1)] true
      (.aci (uuid 5)) orderlyBans_fullGroup
  have evicted : (strictClient.evicted fullGroup.bans 2).map (·.serviceId) = [aci 2, aci 3] := by
    rw [GroupClient.evicted, oldestFirst_fullGroup]
    rfl
  refine ⟨orderlyBans_fullGroup, change, result, opened, applied, ?_, ?_⟩
  · apply (banned (.aci (uuid 4)) (by decide +kernel)).2
    rw [List.length_cons, List.length_singleton, evicted]
    decide +kernel
  · apply (banned (.aci (uuid 1)) (by decide +kernel)).2
    rw [List.length_cons, List.length_singleton, evicted]
    decide +kernel

/-- Banning again the one who was banned first lifts the ban. -/
theorem ban_lifts_oldest_ban :
    fullGroup.OrderlyBans ∧ fullGroup.bans.length ≤ strictClient.config.maxBans ∧
      ∃ change result, (strictClient.banChange [.aci (uuid 2)] false fullGroup.bans
          (.aci (uuid 5))).outcome = .ok change
        ∧ fullGroup.apply change = .ok result
        ∧ ¬ ∀ id ∈ [ServiceId.aci (uuid 2)], id.toBinary ∈ result.banned := by
  have evicted : strictClient.evicted fullGroup.bans 1 = [ban 2 100] := by
    rw [GroupClient.evicted, oldestFirst_fullGroup]
    rfl
  have opened := strictClient.banChange_outcome [.aci (uuid 2)] false
    orderlyBans_fullGroup.readable (.aci (uuid 5))
  rw [List.length_singleton, evicted] at opened
  refine ⟨orderlyBans_fullGroup, by decide +kernel, _, { bans := [ban 1 300, ban 3 200] }, opened,
    ?_, ?_⟩
  · decide +kernel
  · decide +kernel

end Sample

end SealedGroups
