import SealedGroups.Proofs.WireFields
import SealedGroups.Wire.Record

/-!
# Records survive encoding

A record is read back as it was written if each of its slots is, and if no two slots share a tag.
Both follow from the layout, so there is little to say of a record type beyond its layout: instances
of `Slot.Lawful`, one for each kind of slot, are put together to instances of `Layout.Lawful` and
`Record.Lawful`. These carry the depth to which messages are nested in the record, for the reader
spends one level of its budget on each.

Fields of tags that the record type does not have are passed over wherever they stand
(`Record.mergeBytes_of_padded`).
-/

namespace SealedGroups.Wire

/-! ### Slots -/

/-- Merges fields into a member one after another. -/
def Slot.mergeAll {α : Type} (slot : Slot α) (budget : Nat) (fields : List Field) (member : α) :
    Option α :=
  fields.foldlM (fun member field => slot.merge budget field member) member

theorem Slot.mergeAll_cons {α : Type} {slot : Slot α} {budget : Nat} (field : Field)
    (fields : List Field) (member : α) :
    slot.mergeAll budget (field :: fields) member =
      (slot.merge budget field member).bind (slot.mergeAll budget fields) :=
  rfl

/-- A field that is one of these tags and no group. -/
structure Field.Among (tags : List Nat) (field : Field) : Prop where
  tag_mem : field.tag ∈ tags
  plain : field.payload ≠ .group

theorem Field.Among.mono {tags more : List Nat} {field : Field} (among : field.Among tags)
    (sub : tags ⊆ more) : field.Among more :=
  ⟨sub among.tag_mem, among.plain⟩

/-- A slot that reads what it writes, with a budget of so many levels or more. -/
class Slot.Lawful (depth : Nat) {α : Type} (slot : Slot α) : Prop where
  among (value : α) : ∀ field ∈ slot.write value, field.Among slot.tags
  mergeAll_write {budget : Nat} (value : α) : depth ≤ budget →
    (∀ field ∈ slot.write value, field.write.length < UInt64.size) →
    slot.mergeAll budget (slot.write value) slot.initial = some value

namespace Slot

section

variable {depth : Nat} {α β : Type}

/-- A field that makes a value of the initial member. -/
structure CarriedBy (depth : Nat) (slot : Slot α) (value : α) (field : Field) : Prop
    extends field.Among slot.tags where
  merge {budget : Nat} : depth ≤ budget → field.write.length < UInt64.size →
    slot.merge budget field slot.initial = some value

/-- A member that is written as one field, or as none if it is the default. -/
theorem Lawful.of_single {slot : Slot α}
    (single : ∀ value, slot.write value = [] ∧ value = slot.initial ∨
      ∃ field, slot.write value = [field] ∧ slot.CarriedBy depth value field) :
    slot.Lawful depth where
  among value field mem := by
    rcases single value with ⟨none, -⟩ | ⟨_, one, carried⟩
    · rw [none] at mem
      cases mem
    · rw [one, List.mem_singleton] at mem
      exact mem ▸ carried.toAmong
  mergeAll_write value deep short := by
    rcases single value with ⟨none, rfl⟩ | ⟨field, one, carried⟩
    · rw [none]
      rfl
    · rw [one] at short ⊢
      rw [mergeAll_cons, carried.merge deep (short field List.mem_cons_self)]
      rfl

/-- A member that is a list, with a field for each entry. -/
theorem Lawful.of_entries {slot : Slot (List β)} {encode : β → Field}
    (empty : slot.initial = []) (write : ∀ values, slot.write values = values.map encode)
    (among : ∀ value, (encode value).Among slot.tags)
    (merge : ∀ {budget} value before, depth ≤ budget →
      (encode value).write.length < UInt64.size →
      slot.merge budget (encode value) before = some (before ++ [value])) :
    slot.Lawful depth where
  among values field mem := by
    rw [write] at mem
    obtain ⟨value, -, rfl⟩ := List.mem_map.1 mem
    exact among value
  mergeAll_write {budget} values deep short := by
    rw [write] at short ⊢
    -- entries that were read before stay in front
    have appends : ∀ before : List β,
        slot.mergeAll budget (values.map encode) before = some (before ++ values) := by
      induction values with
      | nil => simp [mergeAll]
      | cons value rest ih =>
        intro before
        have first := merge value before deep (short _ List.mem_cons_self)
        have later := ih (fun field mem => short field (List.mem_cons_of_mem _ mem))
          (before ++ [value])
        rw [List.map_cons, mergeAll_cons, first, Option.bind_some, later, List.append_assoc,
          List.singleton_append]
    rw [empty, appends, List.nil_append]

/-- A slot stays lawful under another name of its type. -/
theorem Lawful.wrap {slot : Slot α} [lawful : slot.Lawful depth] {wrapped : α → β} {unwrap : β → α}
    (wrapped_unwrap : ∀ b, wrapped (unwrap b) = b) (unwrap_wrapped : ∀ a, unwrap (wrapped a) = a) :
    (slot.wrap wrapped unwrap).Lawful depth where
  among value := lawful.among (unwrap value)
  mergeAll_write {budget} value deep short := by
    -- wrapping a member and reading into it may change places
    have commutes : ∀ (fields : List Field) (member : α),
        (slot.wrap wrapped unwrap).mergeAll budget fields (wrapped member) =
          (slot.mergeAll budget fields member).map wrapped := by
      intro fields
      induction fields with
      | nil => exact fun _ => rfl
      | cons field rest ih =>
        intro member
        have merged : (slot.wrap wrapped unwrap).merge budget field (wrapped member) =
            (slot.merge budget field member).map wrapped := by
          change (slot.merge budget field (unwrap (wrapped member))).map wrapped = _
          rw [unwrap_wrapped]
        rw [mergeAll_cons, merged, mergeAll_cons, Option.bind_map, Option.map_bind]
        exact congrArg _ (funext ih)
    have read := lawful.mergeAll_write (unwrap value) deep short
    change (slot.wrap wrapped unwrap).mergeAll budget (slot.write (unwrap value))
      (wrapped slot.initial) = some value
    rw [commutes, read, Option.map_some, wrapped_unwrap]

end

section

variable {depth tag : Nat}

theorem Lawful.number {α : Type} [DecidableEq α] {initial : α} {encode : α → UInt64}
    {decode : UInt64 → α} (decode_encode : ∀ value, decode (encode value) = value) :
    (number tag initial encode decode).Lawful depth :=
  .of_single fun value => by
    by_cases default : value = initial
    · exact Or.inl ⟨if_pos default, default⟩
    · refine Or.inr ⟨_, if_neg default, ⟨⟨List.mem_cons_self, nofun⟩, ?_⟩⟩
      intro _ _ _
      exact congrArg some (decode_encode value)

instance : (uint32 tag).Lawful depth :=
  .number fun value => by simp

instance : (uint64 tag).Lawful depth :=
  .number fun _ => rfl

instance : (bool tag).Lawful depth :=
  .number fun value => by cases value <;> decide

/-- The low half of a sign-extended number is the number. -/
theorem toInt32_toUInt32_toInt64 (value : Int32) :
    value.toInt64.toUInt64.toUInt32.toInt32 = value := by
  apply Int32.toBitVec_inj.1
  ext i low
  simp only [UInt32.toBitVec_toInt32, UInt64.toBitVec_toUInt32, Int64.toBitVec_toUInt64,
    Int32.toBitVec_toInt64, BitVec.getElem_setWidth, BitVec.getLsbD_signExtend, low, if_true,
    BitVec.getLsbD_eq_getElem, Bool.and_eq_right_iff_imp, decide_eq_true_eq]
  omega

instance : (int32 tag).Lawful depth :=
  .number toInt32_toUInt32_toInt64

instance : (bytes tag).Lawful depth :=
  .of_single fun value => by
    by_cases default : value = []
    · exact Or.inl ⟨if_pos default, default⟩
    · exact Or.inr ⟨_, if_neg default, ⟨⟨List.mem_cons_self, nofun⟩, fun _ _ => rfl⟩⟩

instance : (text tag).Lawful depth :=
  .of_single fun value => by
    by_cases default : value = ""
    · exact Or.inl ⟨if_pos default, default⟩
    · refine Or.inr ⟨_, if_neg default, ⟨⟨List.mem_cons_self, nofun⟩, ?_⟩⟩
      intro _ _ _
      exact ofUtf8?_utf8 value

instance : (bytesList tag).Lawful depth :=
  .of_entries rfl (fun _ => rfl) (fun _ => ⟨List.mem_cons_self, nofun⟩)
    fun _ _ _ _ => rfl

end

end Slot

/-! ### Layouts -/

namespace Layout

/-- A layout of lawful slots. -/
inductive Lawful (depth : Nat) : Layout → Prop where
  | nil : Lawful depth []
  | cons {part : Part} {rest : Layout} :
      part.slot.Lawful depth → Lawful depth rest → Lawful depth (part :: rest)

/-- Merges fields into a row one after another. -/
def mergeAll (layout : Layout) (budget : Nat) (fields : List Field) (row : layout.Row) :
    Option layout.Row :=
  fields.foldlM (fun row field => layout.merge budget field row) row

theorem mergeAll_cons {layout : Layout} {budget : Nat} (field : Field) (fields : List Field)
    (row : layout.Row) :
    layout.mergeAll budget (field :: fields) row =
      (layout.merge budget field row).bind (layout.mergeAll budget fields) :=
  rfl

/-- The row of a layout with one slot more. -/
def Row.cons {part : Part} {rest : Layout} (member : part.Member) (row : rest.Row) :
    Row (part :: rest) :=
  (member, row)

section

variable {part : Part} {rest : Layout} {budget : Nat} {field : Field} {fields : List Field}

theorem merge_own (own : field.tag ∈ part.slot.tags) (member : part.Member) (row : rest.Row) :
    merge budget field (part :: rest) (.cons member row) =
      (part.slot.merge budget field member).map (Row.cons · row) :=
  if_pos own

theorem merge_other (other : field.tag ∉ part.slot.tags) (member : part.Member) (row : rest.Row) :
    merge budget field (part :: rest) (.cons member row) =
      (merge budget field rest row).map (Row.cons member) :=
  if_neg other

/-- Fields for the first slot leave the others alone. -/
theorem mergeAll_own (own : ∀ field ∈ fields, field.tag ∈ part.slot.tags) (member : part.Member)
    (row : rest.Row) :
    mergeAll (part :: rest) budget fields (.cons member row) =
      (part.slot.mergeAll budget fields member).map (Row.cons · row) := by
  induction fields generalizing member with
  | nil => rfl
  | cons field fields ih =>
    have later := ih fun other mem => own other (List.mem_cons_of_mem _ mem)
    rw [mergeAll_cons, merge_own (own field List.mem_cons_self), Slot.mergeAll_cons,
      Option.bind_map, Option.map_bind]
    exact congrArg _ (funext later)

/-- Fields for the other slots leave the first alone. -/
theorem mergeAll_other (other : ∀ field ∈ fields, field.tag ∉ part.slot.tags)
    (member : part.Member) (row : rest.Row) :
    mergeAll (part :: rest) budget fields (.cons member row) =
      (mergeAll rest budget fields row).map (Row.cons member) := by
  induction fields generalizing row with
  | nil => rfl
  | cons field fields ih =>
    have later := ih fun field mem => other field (List.mem_cons_of_mem _ mem)
    rw [mergeAll_cons, merge_other (other field List.mem_cons_self), mergeAll_cons,
      Option.bind_map, Option.map_bind]
    exact congrArg _ (funext later)

end

variable {depth : Nat} {layout : Layout}

theorem among_of_mem_write (lawful : Lawful depth layout) (row : layout.Row) :
    ∀ field ∈ layout.write row, field.Among layout.tags := by
  induction lawful with
  | nil => exact fun _ => nofun
  | @cons part rest slot later ih =>
    obtain ⟨member, row⟩ := row
    intro field mem
    rcases List.mem_append.1 mem with mem | mem
    · exact (slot.among member field mem).mono (List.subset_append_left _ _)
    · exact (ih row field mem).mono (List.subset_append_right _ _)

/-- Fields of other tags are passed over. -/
theorem merge_of_not_mem {budget : Nat} {field : Field} (unknown : field.tag ∉ layout.tags)
    (row : layout.Row) : layout.merge budget field row = some row := by
  induction layout with
  | nil => rfl
  | cons part rest ih =>
    obtain ⟨member, row⟩ := row
    obtain ⟨other, later⟩ := not_or.1 fun known => unknown (List.mem_append.2 known)
    exact (merge_other other member row).trans (congrArg _ (ih later row))

/-- The fields of a row give the row again. -/
theorem mergeAll_write (lawful : Lawful depth layout) (distinct : layout.tags.Nodup) {budget : Nat}
    (deep : depth ≤ budget) (row : layout.Row)
    (short : ∀ field ∈ layout.write row, field.write.length < UInt64.size) :
    layout.mergeAll budget (layout.write row) layout.initial = some row := by
  induction lawful with
  | nil => rfl
  | @cons part rest slot later ih =>
    obtain ⟨member, row⟩ := row
    obtain ⟨-, distinct, apart⟩ := List.nodup_append.1 distinct
    -- tags are distinct, so what the other parts write is not for the first one
    have other : ∀ field ∈ rest.write row, field.tag ∉ part.slot.tags := fun field mem own =>
      apart _ own _ (among_of_mem_write later row field mem).tag_mem rfl
    have first := slot.mergeAll_write member deep
      fun field mem => short field (List.mem_append_left _ mem)
    have last := ih distinct row fun field mem => short field (List.mem_append_right _ mem)
    calc mergeAll (part :: rest) budget (part.slot.write member ++ rest.write row)
          (.cons part.slot.initial rest.initial)
      _ = (mergeAll (part :: rest) budget (part.slot.write member)
            (.cons part.slot.initial rest.initial)).bind
          (mergeAll (part :: rest) budget (rest.write row)) := List.foldlM_append
      _ = mergeAll (part :: rest) budget (rest.write row) (.cons member rest.initial) := by
        have own := fun field mem => (slot.among member field mem).tag_mem
        rw [mergeAll_own own, first, Option.map_some, Option.bind_some]
      _ = some (.cons member row) := by
        rw [mergeAll_other other, last, Option.map_some]

end Layout

/-! ### Records -/

/-- A record type whose values are read as they were written, with a budget for so many levels of
messages inside messages. -/
class Record.Lawful (depth : Nat) (R : Type) [Record R] : Prop where
  layout : Layout.Lawful depth (Record.layout R) := by
    repeat refine .cons inferInstance ?_
    exact .nil
  distinct : (Record.layout R).tags.Nodup := by decide
  inRange : ∀ tag ∈ (Record.layout R).tags, 0 < tag ∧ tag ≤ maxTag := by decide
  ofRow_toRow (r : R) : Record.ofRow (Record.toRow r) = r := by intro r; rfl
  toRow_initial : Record.toRow (Record.initial : R) = (Record.layout R).initial := by rfl

namespace Record

/-- The tags of a record type. -/
def tags (R : Type) [Record R] : List Nat :=
  (layout R).tags

/-- The fields that a record is written as. -/
def fields {R : Type} [Record R] (r : R) : List Field :=
  (layout R).write (toRow r)

theorem write_eq {R : Type} [Record R] (r : R) : write r = writeFields (fields r) :=
  rfl

variable {depth : Nat} {R : Type} [Record R] [lawful : Record.Lawful depth R]

/-- A record is found in every message that holds its fields, whatever stands between them. -/
theorem mergeBytes_of_padded {budget : Nat} (deep : depth ≤ budget) {r : R}
    (short : (write r).length < UInt64.size) {bytes : Bytes}
    (padded : Padded (tags R) (fields r) bytes) :
    mergeBytes budget (initial : R) bytes = some r := by
  have short : ∀ field ∈ fields r, field.write.length < UInt64.size :=
    fun field mem => Nat.lt_of_le_of_lt (length_write_le_of_mem mem) short
  have writable : ∀ field ∈ fields r, field.Writable := by
    intro field mem
    have among := Layout.among_of_mem_write lawful.layout _ field mem
    obtain ⟨positive, bounded⟩ := lawful.inRange _ among.tag_mem
    exact ⟨positive, bounded, among.plain, short field mem⟩
  have merged : (layout R).mergeBytes budget (layout R).initial bytes = some (toRow r) :=
    calc (layout R).mergeBytes budget (layout R).initial bytes
      -- unknown fields are passed over, so what is merged are the fields that were written
      _ = (layout R).mergeAll budget (fields r) (layout R).initial :=
        padded.foldlM_readFields writable
          (fun row _ unknown => Layout.merge_of_not_mem unknown row) budget (layout R).initial
      _ = some (toRow r) :=
        Layout.mergeAll_write lawful.layout lawful.distinct deep (toRow r) short
  rw [mergeBytes, lawful.toRow_initial, merged, Option.map_some, lawful.ofRow_toRow]

theorem mergeBytes_write {budget : Nat} (deep : depth ≤ budget) {r : R}
    (short : (write r).length < UInt64.size) : mergeBytes budget initial (write r) = some r :=
  mergeBytes_of_padded deep short (.writeFields _ _)

end Record

/-! ### Slots of messages -/

namespace Slot

variable {depth tag : Nat} {R : Type} [Record R] [lawful : Record.Lawful depth R]

instance : (optional tag : Slot (Option R)).Lawful (depth + 1) :=
  .of_single fun value => by
    cases value with
    | none => exact Or.inl ⟨rfl, rfl⟩
    | some r =>
      refine Or.inr ⟨_, rfl, ⟨⟨List.mem_cons_self, nofun⟩, ?_⟩⟩
      intro budget deep short
      obtain ⟨budget, rfl⟩ := Nat.exists_eq_add_of_le' (Nat.le_trans (Nat.le_add_left 1 depth) deep)
      have short := Nat.lt_of_le_of_lt (length_content_le tag (Record.write r)) short
      have read := Record.mergeBytes_write (Nat.le_of_succ_le_succ deep) short
      exact congrArg (Option.map some) read

instance : (messages tag : Slot (List R)).Lawful (depth + 1) :=
  .of_entries rfl (fun _ => rfl) (fun _ => ⟨List.mem_cons_self, nofun⟩) <| by
    intro budget r before deep short
    obtain ⟨budget, rfl⟩ := Nat.exists_eq_add_of_le' (Nat.le_trans (Nat.le_add_left 1 depth) deep)
    have short := Nat.lt_of_le_of_lt (length_content_le tag (Record.write r)) short
    have read := Record.mergeBytes_write (Nat.le_of_succ_le_succ deep) short
    exact congrArg (Option.map fun r => before ++ [r]) read

end Slot

end SealedGroups.Wire
