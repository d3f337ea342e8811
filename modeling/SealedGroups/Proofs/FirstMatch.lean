import SealedGroups.Group.Apply
import Mathlib.Data.List.Nodup

/-!
# Lists in which the first match counts

Entries of a group are found by a key, and of several that fit only the first is changed or taken
out. These are the laws of the two operations: what they do to the keys, what they leave of the
entries that do not fit, and that with one fitting entry at most they are a `map` and a `filter`.
-/

namespace SealedGroups

variable {α β : Type}

/-! ### Taking out the first match -/

/-- Whether an entry with a key is there is a question about the keys. -/
theorem any_key_iff {key : α → Bytes} {entries : List α} {id : Bytes} :
    entries.any (key · == id) = true ↔ id ∈ entries.map key := by
  simp only [List.any_eq_true, beq_iff_eq, List.mem_map]

theorem not_any_key_iff {key : α → Bytes} {entries : List α} {id : Bytes} :
    (!entries.any (key · == id)) = true ↔ id ∉ entries.map key := by
  rw [Bool.not_eq_true', ← Bool.not_eq_true, any_key_iff]

theorem not_contains_iff [BEq α] [LawfulBEq α] {entries : List α} {a : α} :
    (!entries.contains a) = true ↔ a ∉ entries := by
  rw [Bool.not_eq_true', ← Bool.not_eq_true, List.contains_iff_mem]

/-- What is put behind keys without a repetition is not among them. -/
theorem not_any_key_of_nodup {key : α → Bytes} {entries : List α} {id : Bytes} {rest : List Bytes}
    (distinct : (entries.map key ++ [id] ++ rest).Nodup) :
    ¬ entries.any (key · == id) = true := by
  intro known
  have apart := (List.nodup_append.1 (List.nodup_append.1 distinct).1).2.2
  exact apart _ (any_key_iff.1 known) _ List.mem_cons_self rfl

/-- Where nothing fits, nothing is taken out. -/
theorem eraseP_of_any_eq_false {fits : α → Bool} {entries : List α}
    (h : ¬ entries.any fits = true) : entries.eraseP fits = entries :=
  List.eraseP_of_forall_not fun a ha hp => h (List.any_eq_true.2 ⟨a, ha, hp⟩)

/-- Taking out the first entry with a key takes the key out of the keys. -/
theorem map_eraseP_key (key : α → Bytes) (entries : List α) (id : Bytes) :
    (entries.eraseP (key · == id)).map key = (entries.map key).erase id := by
  rw [List.erase_eq_eraseP', List.eraseP_map]
  rfl

theorem filter_eraseP_of_disjoint {fits keep : α → Bool} {entries : List α}
    (h : ∀ a ∈ entries, keep a = true → fits a = false) :
    (entries.eraseP fits).filter keep = entries.filter keep := by
  induction entries with
  | nil => rfl
  | cons a rest ih =>
    have tail := ih fun b hb => h b (List.mem_cons_of_mem a hb)
    by_cases fit : fits a = true
    · have out : ¬ keep a = true := fun hk => by
        rw [h a List.mem_cons_self hk] at fit
        cases fit
      rw [List.eraseP_cons_of_pos fit, List.filter_cons_of_neg out]
    · rw [List.eraseP_cons_of_neg fit, List.filter_cons, List.filter_cons, tail]

/-- Where all that fits is kept, taking out and selecting can change places. -/
theorem filter_eraseP_of_kept {fits keep : α → Bool} {entries : List α}
    (h : ∀ a ∈ entries, fits a = true → keep a = true) :
    (entries.eraseP fits).filter keep = (entries.filter keep).eraseP fits := by
  induction entries with
  | nil => rfl
  | cons a rest ih =>
    have tail := ih fun b hb => h b (List.mem_cons_of_mem a hb)
    by_cases fit : fits a = true
    · rw [List.eraseP_cons_of_pos fit, List.filter_cons_of_pos (h a List.mem_cons_self fit),
        List.eraseP_cons_of_pos fit]
    · rw [List.eraseP_cons_of_neg fit, List.filter_cons, List.filter_cons, tail]
      split
      · rw [List.eraseP_cons_of_neg fit]
      · rfl

theorem any_filter_of_kept {fits keep : α → Bool} {entries : List α}
    (h : ∀ a ∈ entries, fits a = true → keep a = true) :
    (entries.filter keep).any fits = entries.any fits := by
  rw [Bool.eq_iff_iff, List.any_eq_true, List.any_eq_true]
  constructor
  · rintro ⟨a, mem, fit⟩
    exact ⟨a, List.mem_of_mem_filter mem, fit⟩
  · rintro ⟨a, mem, fit⟩
    exact ⟨a, List.mem_filter.2 ⟨mem, h a mem fit⟩, fit⟩

theorem find_filter_of_kept {fits keep : α → Bool} {entries : List α}
    (h : ∀ a ∈ entries, fits a = true → keep a = true) :
    (entries.filter keep).find? fits = entries.find? fits := by
  induction entries with
  | nil => rfl
  | cons a rest ih =>
    have tail := ih fun b hb => h b (List.mem_cons_of_mem a hb)
    by_cases fit : fits a = true
    · rw [List.filter_cons_of_pos (h a List.mem_cons_self fit), List.find?_cons_of_pos fit,
        List.find?_cons_of_pos fit]
    · rw [List.find?_cons_of_neg fit, List.filter_cons, ← tail]
      split
      · rw [List.find?_cons_of_neg fit]
      · rfl

theorem eraseP_key_eq_filter {key : α → Bytes} {entries : List α} {id : Bytes}
    (once : (entries.map key).count id ≤ 1) :
    entries.eraseP (key · == id) = entries.filter (key · != id) := by
  induction entries with
  | nil => rfl
  | cons a rest ih =>
    rw [List.map_cons] at once
    by_cases fit : key a = id
    · rw [fit, List.count_cons_self] at once
      -- the first entry with the key is the only one, so nothing else is filtered out
      have others : ∀ b ∈ rest, (key b != id) = true := by
        intro b mem
        apply bne_iff_ne.2
        intro same
        have again : 0 < (rest.map key).count id :=
          List.count_pos_iff.2 (List.mem_map.2 ⟨b, mem, same⟩)
        omega
      rw [List.eraseP_cons_of_pos (by simpa using fit),
        List.filter_cons_of_neg (by simpa using fit), List.filter_eq_self.2 others]
    · rw [List.count_cons_of_ne fit] at once
      rw [List.eraseP_cons_of_neg (by simpa using fit),
        List.filter_cons_of_pos (by simpa using fit), ih once]

/-- Taking out entries of the front of a list, each by a key that is there once. -/
theorem foldl_eraseP_append {key : α → Bytes} {ids : List Bytes} {front back : List α}
    (nodup : ids.Nodup) (once : ∀ id ∈ ids, (front.map key).count id = 1) :
    ids.foldl (fun entries id => entries.eraseP (key · == id)) (front ++ back) =
      front.filter (fun a => !ids.contains (key a)) ++ back := by
  induction ids generalizing front with
  | nil => simp
  | cons id rest ih =>
    obtain ⟨fresh, nodup⟩ := List.nodup_cons.1 nodup
    have here := once id List.mem_cons_self
    obtain ⟨a, mem, same⟩ : ∃ a ∈ front, key a = id :=
      List.mem_map.1 (List.count_pos_iff.1 (here ▸ Nat.one_pos))
    -- the key is in front, so the search does not get to the entries behind
    have first : (front ++ back).eraseP (key · == id) = front.eraseP (key · == id) ++ back :=
      List.eraseP_append_left (p := (key · == id)) (beq_iff_eq.2 same) back mem
    rw [List.foldl_cons, first, eraseP_key_eq_filter (Nat.le_of_eq here)]
    -- the other keys are as often in front as before
    have left : ∀ other ∈ rest, ((front.filter (key · != id)).map key).count other = 1 := by
      intro other hother
      have ne : other ≠ id := fun eq => fresh (eq ▸ hother)
      have keys : (front.filter (key · != id)).map key = (front.map key).filter (· != id) := by
        rw [List.filter_map]
        rfl
      rw [keys, List.count_filter (by simpa using ne)]
      exact once other (List.mem_cons_of_mem _ hother)
    rw [ih nodup left, List.filter_filter]
    congr 2
    funext b
    simp only [List.contains_cons, Bool.not_or, bne, Bool.and_comm]

/-- Other first matches are found as if an entry with another key had not been taken out. -/
theorem find_eraseP_of_ne {key : α → Bytes} {entries : List α} {id other : Bytes}
    (ne : id ≠ other) :
    (entries.eraseP (key · == other)).find? (key · == id) = entries.find? (key · == id) := by
  induction entries with
  | nil => rfl
  | cons a rest ih =>
    by_cases fit : key a = other
    · rw [List.eraseP_cons_of_pos (by simpa using fit),
        List.find?_cons_of_neg (by simpa using fun same => ne (same.symm.trans fit))]
    · rw [List.eraseP_cons_of_neg (by simpa using fit), List.find?_cons, List.find?_cons, ih]

/-- Where no key is there twice, every entry stands first of those with its key. -/
theorem find_eq_some_of_mem [BEq β] [LawfulBEq β] {key : α → β} {entries : List α}
    (distinct : (entries.map key).Nodup) {a : α} (mem : a ∈ entries) :
    entries.find? (key · == key a) = some a := by
  cases found : entries.find? (key · == key a) with
  | none => exact absurd (beq_self_eq_true (key a)) (List.find?_eq_none.1 found a mem)
  | some b =>
    have fit : key b = key a := by simpa using List.find?_some found
    rw [List.inj_on_of_nodup_map distinct (List.mem_of_find?_eq_some found) mem fit]

/-- Where no key is there twice, every entry is alone with its key. -/
theorem filter_eq_singleton_of_mem [BEq β] [LawfulBEq β] {key : α → β} {entries : List α}
    (distinct : (entries.map key).Nodup) {a : α} (mem : a ∈ entries) :
    entries.filter (key · == key a) = [a] := by
  obtain ⟨before, later, rfl⟩ := List.append_of_mem mem
  rw [List.map_append, List.map_cons, List.nodup_append, List.nodup_cons] at distinct
  obtain ⟨-, ⟨notLater, -⟩, apart⟩ := distinct
  have before_nil : before.filter (key · == key a) = [] := by
    rw [List.filter_eq_nil_iff]
    intro b hb same
    exact apart _ (List.mem_map_of_mem hb) _ List.mem_cons_self (beq_iff_eq.1 same)
  have later_nil : later.filter (key · == key a) = [] := by
    rw [List.filter_eq_nil_iff]
    intro b hb same
    exact notLater (List.mem_map.2 ⟨b, hb, beq_iff_eq.1 same⟩)
  rw [List.filter_append, List.filter_cons, before_nil, later_nil,
    if_pos (beq_self_eq_true (key a))]
  rfl

/-! ### Changing the first match -/

theorem map_modifyFirst {key : α → β} {fits : α → Bool} {f : α → α}
    (h : ∀ a, fits a = true → key (f a) = key a) (entries : List α) :
    (modifyFirst fits f entries).map key = entries.map key := by
  induction entries with
  | nil => rfl
  | cons a rest ih =>
    unfold modifyFirst
    split
    · rename_i fit
      simp only [List.map_cons, h a fit]
    · simp only [List.map_cons, ih]

theorem map_foldl_modifyFirst {key : α → Bytes} {about : β → Bytes} {f : β → α → α}
    (keeps : ∀ b a, key (f b a) = key a) (changes : List β) (entries : List α) :
    (changes.foldl (fun entries b =>
      modifyFirst (key · == about b) (f b) entries) entries).map key = entries.map key := by
  induction changes generalizing entries with
  | nil => rfl
  | cons b rest ih =>
    rw [List.foldl_cons, ih]
    exact map_modifyFirst (fun a _ => keeps b a) entries

/-- Where a key is there once at most, all entries with it have been changed. -/
theorem changed_of_mem_modifyFirst {key : α → Bytes} {f : α → α} {entries : List α} {id : Bytes}
    (once : (entries.map key).count id ≤ 1) {a : α} (fit : key a = id)
    (h : a ∈ modifyFirst (key · == id) f entries) : ∃ b ∈ entries, a = f b := by
  induction entries with
  | nil => cases h
  | cons b rest ih =>
    unfold modifyFirst at h
    rw [List.map_cons] at once
    by_cases first : key b = id
    · -- the first match is changed, and a second one would be there again
      rw [if_pos (beq_iff_eq.2 first)] at h
      rw [first, List.count_cons_self] at once
      rcases List.mem_cons.1 h with rfl | later
      · exact ⟨b, List.mem_cons_self, rfl⟩
      · have again : 0 < (rest.map key).count id :=
          List.count_pos_iff.2 (List.mem_map.2 ⟨a, later, fit⟩)
        omega
    · rw [if_neg (by simpa using first)] at h
      rw [List.count_cons_of_ne first] at once
      rcases List.mem_cons.1 h with rfl | later
      · exact absurd fit first
      · obtain ⟨c, mem, same⟩ := ih once later
        exact ⟨c, List.mem_cons_of_mem _ mem, same⟩

/-- An entry is as it was, or is what the first match has become. -/
theorem mem_modifyFirst {fits : α → Bool} {f : α → α} {entries : List α} {a : α}
    (h : a ∈ modifyFirst fits f entries) :
    a ∈ entries ∨ ∃ b ∈ entries, fits b = true ∧ a = f b := by
  induction entries with
  | nil => cases h
  | cons b rest ih =>
    unfold modifyFirst at h
    split at h
    · rename_i fit
      rcases List.mem_cons.1 h with rfl | later
      · exact Or.inr ⟨b, List.mem_cons_self, fit, rfl⟩
      · exact Or.inl (List.mem_cons_of_mem _ later)
    · rcases List.mem_cons.1 h with rfl | later
      · exact Or.inl List.mem_cons_self
      · rcases ih later with there | ⟨c, mem, fit, same⟩
        · exact Or.inl (List.mem_cons_of_mem _ there)
        · exact Or.inr ⟨c, List.mem_cons_of_mem _ mem, fit, same⟩

theorem mem_of_mem_modifyFirst_of_ne {key : α → Bytes} {f : α → α} {entries : List α} {id : Bytes}
    (keeps : ∀ b, key (f b) = key b) {a : α} (other : key a ≠ id)
    (h : a ∈ modifyFirst (key · == id) f entries) : a ∈ entries := by
  rcases mem_modifyFirst h with there | ⟨b, -, fit, rfl⟩
  · exact there
  · exact absurd ((keeps b).trans (beq_iff_eq.1 fit)) other

/-- Changes of single entries, found by a key that is there once, one after the other: every entry
has been changed by the one change about it, if there is one. -/
theorem mem_foldl_modifyFirst {key : α → Bytes} {about : β → Bytes} {f : β → α → α}
    (keeps : ∀ b a, key (f b a) = key a) {changes : List β} {entries : List α}
    (distinct : (changes.map about).Nodup) (once : (entries.map key).Nodup) {a : α}
    (h : a ∈ changes.foldl
      (fun entries b => modifyFirst (key · == about b) (f b) entries) entries) :
    (a ∈ entries ∧ ∀ b ∈ changes, about b ≠ key a)
      ∨ ∃ b ∈ changes, ∃ old ∈ entries, about b = key old ∧ a = f b old := by
  induction changes generalizing entries with
  | nil => exact Or.inl ⟨h, fun b hb => by cases hb⟩
  | cons b rest ih =>
    rw [List.map_cons, List.nodup_cons] at distinct
    have same : (modifyFirst (key · == about b) (f b) entries).map key = entries.map key :=
      map_modifyFirst (fun a _ => keeps b a) entries
    -- looked at from the end: the entry is as the later changes found it, or one of them made it
    rcases ih distinct.2 (same ▸ once) h with ⟨mem, others⟩ | ⟨c, hc, old, mem, found, rfl⟩
    · by_cases fit : key a = about b
      · obtain ⟨old, there, rfl⟩ :=
          changed_of_mem_modifyFirst (List.nodup_iff_count_le_one.1 once _) fit mem
        exact Or.inr ⟨b, List.mem_cons_self, old, there, fit.symm.trans (keeps b old), rfl⟩
      · left
        refine ⟨mem_of_mem_modifyFirst_of_ne (keeps b) fit mem, ?_⟩
        intro c hc
        rcases List.mem_cons.1 hc with rfl | later
        · exact Ne.symm fit
        · exact others c later
    · -- the change that made it is about another key than this one, so the old entry was there
      -- before
      have ne : key old ≠ about b := by
        intro eq
        apply distinct.1
        rw [← eq, ← found]
        exact List.mem_map_of_mem hc
      exact Or.inr ⟨c, List.mem_cons_of_mem _ hc, old,
        mem_of_mem_modifyFirst_of_ne (keeps b) ne mem, found, rfl⟩

/-- Where a change would make no difference, nothing changes. -/
theorem modifyFirst_eq_self {fits : α → Bool} {f : α → α} {entries : List α}
    (h : ∀ a ∈ entries, fits a = true → f a = a) : modifyFirst fits f entries = entries := by
  induction entries with
  | nil => rfl
  | cons a rest ih =>
    unfold modifyFirst
    split
    · rename_i fit
      rw [h a List.mem_cons_self fit]
    · rw [ih fun b hb => h b (List.mem_cons_of_mem a hb)]

theorem filter_modifyFirst_of_disjoint {fits keep : α → Bool} {f : α → α}
    (h : ∀ a, fits a = true → keep a = false ∧ keep (f a) = false) (entries : List α) :
    (modifyFirst fits f entries).filter keep = entries.filter keep := by
  induction entries with
  | nil => rfl
  | cons a rest ih =>
    unfold modifyFirst
    split
    · rename_i fit
      obtain ⟨before, after⟩ := h a fit
      simp [before, after]
    · rw [List.filter_cons, List.filter_cons, ih]

theorem filter_modifyFirst_of_kept {fits keep : α → Bool} {f : α → α}
    (h : ∀ a, fits a = true → keep a = true ∧ keep (f a) = true) (entries : List α) :
    (modifyFirst fits f entries).filter keep = modifyFirst fits f (entries.filter keep) := by
  induction entries with
  | nil => rfl
  | cons a rest ih =>
    by_cases fit : fits a = true
    · obtain ⟨before, after⟩ := h a fit
      simp [modifyFirst, fit, before, after]
    · -- an entry that does not fit stays, kept or not, and the match is further on
      rw [modifyFirst, if_neg fit, List.filter_cons, List.filter_cons, ih]
      split
      · rw [modifyFirst, if_neg fit]
      · rfl

end SealedGroups
