import SealedGroups.Group.Rebase
import Mathlib.Data.List.Induction

/-!
# Decisions find the entries they are about

A decision names an entry by its position at first, and decisions on a list are carried out from its
end towards its front. So when a decision comes to be carried out, whatever stands at its position
is still the entry that it is about: only entries behind it were touched. This holds for every
record that is edited, be it the change that was decided on or the actions it came from, as long as
the list that is edited is in step with the entries that were decided on; more entries may stand
behind them.

The entries decided on and those of the edited list are carried along as a list of pairs
(`Listing.carryOut_onEntries`).
-/

namespace SealedGroups

/-- The entries at the positions where the other list has an entry that passes a test. -/
def keepWhere {α β : Type} (keep : α → Bool) (others : List α) (entries : List β) : List β :=
  ((others.zip entries).filter fun pair => keep pair.1).map (·.2)

theorem keepWhere_append {α β : Type} (keep : α → Bool) {others : List α} {entries : List β}
    (same : others.length = entries.length) (more : List β) :
    keepWhere keep others (entries ++ more) = keepWhere keep others entries := by
  have zipped : others.zip (entries ++ more) = others.zip entries := by
    have parted : (others ++ []).zip (entries ++ more) = others.zip entries ++ [].zip more :=
      List.zip_append same
    rwa [List.append_nil, List.zip_nil_left, List.append_nil] at parted
  rw [keepWhere, zipped, keepWhere]

theorem zip_self {α : Type} (entries : List α) :
    entries.zip entries = entries.map fun entry => (entry, entry) := by
  rw [List.zip_eq_zipWith, List.zipWith_self]

/-- Of a list in step with itself, the entries that pass the test are kept. -/
theorem keepWhere_self {α : Type} (keep : α → Bool) (entries : List α) :
    keepWhere keep entries entries = entries.filter keep := by
  rw [keepWhere, zip_self, List.filter_map, List.map_map]
  exact List.map_id _

namespace Decision

/-- Carries out decisions one after the other on a record, by its edits. -/
def carryOut {R : Type} (edit : R → Edit → R) (record : R) (decisions : List Decision) : R :=
  decisions.foldl (fun result decision => edit result decision.edit) record

theorem carryOut_append {R : Type} {edit : R → Edit → R} (record : R)
    (first rest : List Decision) :
    carryOut edit record (first ++ rest) = carryOut edit (carryOut edit record first) rest :=
  List.foldl_append

theorem onEntries_concat {α : Type} (decide : Nat → α → Option Decision) (entries : List α)
    (entry : α) :
    onEntries (entries ++ [entry]) decide =
      (decide entries.length entry).toList ++ onEntries entries decide := by
  simp only [onEntries, List.zipIdx_append, List.reverse_append, List.filterMap_append]
  cases h : decide entries.length entry <;> simp [h]

end Decision

theorem eraseIdx_length_append {β : Type} (front : List β) (entry : β) (kept : List β) :
    (front ++ entry :: kept).eraseIdx front.length = front ++ kept := by
  rw [List.eraseIdx_append_of_length_le (Nat.le_refl _), Nat.sub_self, List.eraseIdx_cons_zero]

/-- A list of a record that is edited, to look at and to replace. -/
structure Listing {R : Type} (edit : R → Edit → R) (β : Type) (slot : ListSlot) where
  get : R → List β
  set : R → List β → R
  get_set : ∀ record entries, get (set record entries) = entries
  set_get : ∀ record, set record (get record) = record
  set_set : ∀ record first entries, set (set record first) entries = set record entries
  edit_drop : ∀ record index,
    edit record (.drop slot index) = set record ((get record).eraseIdx index)

namespace Listing

variable {R α β : Type} {edit : R → Edit → R} {slot : ListSlot}

private theorem foldr_set (listing : Listing edit β slot) {γ : Type} {act : γ → R → R}
    (act_set : ∀ c record entries,
      act c (listing.set record entries) = listing.set (act c record) entries)
    (cs : List γ) (record : R) (entries : List β) :
    cs.foldr act (listing.set record entries) = listing.set (cs.foldr act record) entries := by
  induction cs with
  | nil => rfl
  | cons c rest ih => rw [List.foldr_cons, List.foldr_cons, ih, act_set]

/-- Decisions that either leave an entry or take it out, and then may do something more (`act`) that
does not look at the list: the entries in step with those that stay are left, and the rest is done
from the end. Entries behind those that are decided on stay. -/
theorem carryOut_onEntries (listing : Listing edit β slot) {decide : Nat → α → Option Decision}
    (stays : α → Bool) (act : α × β → R → R)
    (act_set : ∀ pair record entries,
      act pair (listing.set record entries) = listing.set (act pair record) entries)
    {others : List α} {own kept : List β} (same : others.length = own.length)
    (decided : ∀ pair ∈ others.zip own, ∀ record front kept,
      listing.get record = front ++ pair.2 :: kept →
        Decision.carryOut edit record (decide front.length pair.1).toList =
          if stays pair.1 then record else listing.set (act pair record) (front ++ kept))
    {record : R} (here : listing.get record = own ++ kept) :
    Decision.carryOut edit record (Decision.onEntries others decide) =
      listing.set (((others.zip own).filter (!stays ·.1)).foldr act record)
        (keepWhere stays others own ++ kept) := by
  suffices paired : ∀ pairs : List (α × β), pairs ⊆ others.zip own →
      ∀ (kept : List β) (record : R), listing.get record = pairs.map (·.2) ++ kept →
      Decision.carryOut edit record (Decision.onEntries (pairs.map (·.1)) decide) =
        listing.set ((pairs.filter (!stays ·.1)).foldr act record)
          ((pairs.filter (stays ·.1)).map (·.2) ++ kept) by
    have firsts : (others.zip own).map (·.1) = others := List.map_fst_zip (Nat.le_of_eq same)
    have seconds : (others.zip own).map (·.2) = own := List.map_snd_zip (Nat.le_of_eq same.symm)
    have carried :=
      paired (others.zip own) (List.Subset.refl _) kept record (by rw [seconds, here])
    rwa [firsts] at carried
  intro pairs
  -- the induction is on the pairs from the end, since decisions are carried out in that order
  induction pairs using List.reverseRecOn with
  | nil =>
    intro _ kept record here
    exact ((congrArg (listing.set record) here).symm.trans (listing.set_get record)).symm
  | append_singleton front pair ih =>
    intro part kept record here
    obtain ⟨part, last⟩ := List.append_subset.1 part
    have ih := ih part
    rw [List.map_append, List.append_assoc] at here
    -- the decision on the last pair finds its entry behind all of the others
    have now := decided pair (last List.mem_cons_self) record (front.map (·.2)) kept here
    rw [List.length_map] at now
    rw [List.map_append, List.map_singleton, Decision.onEntries_concat, List.length_map,
      Decision.carryOut_append, now, List.filter_append, List.filter_append, List.foldr_append,
      List.map_append, List.append_assoc]
    cases keeps : stays pair.1 with
    | true =>
      rw [if_pos rfl, ih _ _ here]
      simp [keeps]
    | false =>
      rw [if_neg Bool.false_ne_true, ih _ _ (listing.get_set _ _), foldr_set listing act_set,
        listing.set_set]
      simp [keeps]

/-- Dropping what fails a test leaves the entries in step with those that pass it. Entries that have
come to stand behind those decided on stay. -/
theorem carryOut_keepOnly (listing : Listing edit β slot) {message : String} {keep : α → Bool}
    {others : List α} {record : R} (long : others.length ≤ (listing.get record).length) :
    Decision.carryOut edit record (Decision.keepOnly slot message keep others) =
      listing.set record
        (keepWhere keep others (listing.get record)
          ++ (listing.get record).drop others.length) := by
  have split := List.take_append_drop others.length (listing.get record)
  have same := (List.length_take_of_le long).symm
  -- an entry that is dropped changes nothing but its own list
  have nothing : ∀ dropped : List (α × β),
      dropped.foldr (fun _ record => record) record = record := by
    intro dropped
    induction dropped with
    | nil => rfl
    | cons _ _ ih => exact ih
  have kept := keepWhere_append keep same ((listing.get record).drop others.length)
  rw [split] at kept
  refine (listing.carryOut_onEntries keep (fun _ record => record) (fun _ _ _ => rfl) same ?_
    split.symm).trans (by rw [nothing, kept])
  intro pair _ record front kept here
  by_cases keeps : keep pair.1 = true
  · simp only [if_pos keeps]
    rfl
  · simp only [if_neg keeps]
    refine (listing.edit_drop record front.length).trans ?_
    rw [here, eraseIdx_length_append]

end Listing

end SealedGroups
