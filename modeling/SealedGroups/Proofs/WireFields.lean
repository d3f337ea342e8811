import SealedGroups.Wire.Field

/-!
# Fields in any spelling

A number has many spellings on the wire, of which the writer uses the shortest, so a field has many
spellings too. Readers take all of them. What is here says which bytes spell a field, without a look
at the reader (`Field.Spells`), and that the reader finds exactly this field in them, whatever
follows (`readField_of_spells`).

A message is `Padded` when fields of other tags, spelled in any way, stand between the fields that
the writer put there. Whoever passes over fields of other tags finds in a padded message what was
written (`Padded.foldlM_readFields`).
-/

namespace SealedGroups.Wire

/-! ### Numbers -/

namespace Varint

/-- Groups of seven bits, the lowest first, each but the last with its top bit set. The topmost
groups may be zero. -/
inductive Spells : Bytes → Nat → Prop where
  | last {b : UInt8} : b.toNat < 128 → Spells [b] b.toNat
  | more {b : UInt8} {rest : Bytes} {value : Nat} :
      128 ≤ b.toNat → Spells rest value → Spells (b :: rest) (b.toNat - 128 + 128 * value)

/-- A spelling of a 64-bit number in at most ten bytes. -/
structure WellFormed (bytes : Bytes) (value : Nat) : Prop where
  spells : Spells bytes value
  short : bytes.length ≤ 10
  small : value < UInt64.size

theorem Spells.length_pos {bytes : Bytes} {value : Nat} (spells : Spells bytes value) :
    0 < bytes.length := by
  cases spells <;> exact Nat.succ_pos _

theorem readPlaces_of_spells {bytes : Bytes} {value : Nat} (spells : Spells bytes value)
    (rest : Bytes) {places : Nat} (short : bytes.length ≤ places + 1)
    (small : value < capacity places) :
    readPlaces (places + 1) (bytes ++ rest) = some (value, rest) := by
  induction spells generalizing places with
  | @last b marked =>
    -- where no places are left the last byte may only add a single bit
    have tenth : ¬ (places = 0 ∧ 2 ≤ b.toNat) := by
      rintro ⟨rfl, large⟩
      exact absurd small (Nat.not_lt.2 large)
    simp only [List.cons_append, List.nil_append, readPlaces, if_pos marked, if_neg tenth]
  | @more b bytes value marked spells ih =>
    cases places with
    | zero =>
      have := spells.length_pos
      simp only [List.length_cons] at short
      omega
    | succ places =>
      -- what is left has to fit into one place less
      have small : value < capacity places := by
        simp only [capacity] at small
        omega
      have short : bytes.length ≤ places + 1 := Nat.le_of_succ_le_succ short
      rw [List.cons_append, readPlaces, if_neg (Nat.not_lt.2 marked), ih short small]

/-- A number is read from each of its spellings. -/
theorem read_of_wellFormed {bytes : Bytes} {value : Nat} (spelled : WellFormed bytes value)
    (rest : Bytes) : read (bytes ++ rest) = some (value, rest) :=
  readPlaces_of_spells spelled.spells rest spelled.short spelled.small

theorem spells_write (value : Nat) : Spells (write value) value := by
  induction value using write.induct with
  | case1 value small =>
    have byte : (UInt8.ofNat value).toNat = value := by
      rw [UInt8.toNat_ofNat']
      omega
    have spells : Spells [UInt8.ofNat value] (UInt8.ofNat value).toNat :=
      .last (by rw [byte]; exact small)
    rw [byte] at spells
    rwa [write, if_pos small]
  | case2 value large ih =>
    have byte : (UInt8.ofNat (value % 128 + 128)).toNat = value % 128 + 128 := by
      rw [UInt8.toNat_ofNat']
      omega
    have spells := Spells.more (b := UInt8.ofNat (value % 128 + 128)) (by omega) ih
    rw [byte, Nat.add_sub_cancel, Nat.mod_add_div] at spells
    rwa [write, if_neg large]

theorem length_write_le {places value : Nat} (small : value < capacity places) :
    (write value).length ≤ places + 1 := by
  induction places generalizing value with
  | zero =>
    have small : value < 2 := small
    rw [write, if_pos (by omega)]
    exact Nat.le_refl 1
  | succ places ih =>
    rw [write]
    split
    · simp
    · have small : value / 128 < capacity places := by
        rw [Nat.div_lt_iff_lt_mul (by decide), Nat.mul_comm]
        exact small
      exact Nat.succ_le_succ (ih small)

theorem wellFormed_write {value : Nat} (small : value < UInt64.size) :
    WellFormed (write value) value :=
  ⟨spells_write value, length_write_le (show value < capacity 9 from small), small⟩

end Varint

/-! ### Fields -/

/-- The number of a payload's form in a key. -/
def Payload.form : Payload → Nat
  | .varint _ => 0
  | .fixed64 _ => 1
  | .bytes _ => 2
  | .group => 3
  | .fixed32 _ => 5

/-- Bytes that spell a payload that is no group. -/
inductive Payload.Spells : Payload → Bytes → Prop where
  | varint {value : UInt64} {bytes : Bytes} :
      Varint.WellFormed bytes value.toNat → Spells (.varint value) bytes
  | fixed64 (content : Octets 8) : Spells (.fixed64 content) content.toList
  | bytes {content length : Bytes} :
      Varint.WellFormed length content.length → Spells (.bytes content) (length ++ content)
  | fixed32 (content : Octets 4) : Spells (.fixed32 content) content.toList

/-- Bytes that spell a field: a key for tag and form, and the payload. -/
inductive Field.Spells (field : Field) : Bytes → Prop where
  | intro {key content : Bytes} :
      0 < field.tag → field.tag ≤ maxTag →
      Varint.WellFormed key (8 * field.tag + field.payload.form) →
      field.payload.Spells content → Spells field (key ++ content)

theorem Field.Spells.ne_nil {field : Field} {bytes : Bytes} (spells : field.Spells bytes) :
    bytes ≠ [] := by
  obtain ⟨-, -, key, -⟩ := spells
  intro empty
  have := key.spells.length_pos
  rw [(List.append_eq_nil_iff.1 empty).1] at this
  cases this

theorem readKey_of_wellFormed {tag form : Nat} {key : Bytes} (positive : 0 < tag)
    (bounded : tag ≤ maxTag) (three_bits : form < 8)
    (spelled : Varint.WellFormed key (8 * tag + form)) (rest : Bytes) :
    readKey (key ++ rest) = some ((tag, form), rest) := by
  have large : UInt32.size = 8 * maxTag + 8 := by decide
  have tag_eq : (8 * tag + form) / 8 = tag := by omega
  have form_eq : (8 * tag + form) % 8 = form := by omega
  rw [readKey, Varint.read_of_wellFormed spelled]
  dsimp only
  rw [tag_eq, form_eq, if_neg (by omega)]

theorem readPayload_of_spells {payload : Payload} {bytes : Bytes} (spells : payload.Spells bytes)
    (rest : Bytes) : readPayload payload.form (bytes ++ rest) = some (payload, rest) := by
  cases spells with
  | varint number =>
    simp only [Payload.form, readPayload, Varint.read_of_wellFormed number, Option.map_some,
      UInt64.ofNat_toNat]
  | fixed64 content =>
    simp only [Payload.form, readPayload, take?_append content.length_toList, bind,
      Option.bind_some, Octets.ofList?_toList]
    rfl
  | @bytes content length number =>
    simp only [Payload.form, readPayload, List.append_assoc, Varint.read_of_wellFormed number, bind,
      Option.bind_some, take?_append rfl]
    rfl
  | fixed32 content =>
    simp only [Payload.form, readPayload, take?_append content.length_toList, bind,
      Option.bind_some, Octets.ofList?_toList]
    rfl

theorem Payload.Spells.form_eq {payload : Payload} {bytes : Bytes} (spells : payload.Spells bytes) :
    payload.form < 8 ∧ payload.form ≠ 3 := by
  cases spells <;> simp [Payload.form]

/-- A field is read from each of its spellings, whatever follows. -/
theorem readField_of_spells {field : Field} {bytes : Bytes} (spells : field.Spells bytes)
    (budget : Nat) (rest : Bytes) : readField budget (bytes ++ rest) = some (field, rest) := by
  obtain ⟨positive, bounded, key, content⟩ := spells
  obtain ⟨three_bits, no_group⟩ := content.form_eq
  rw [List.append_assoc, readField, readKey_of_wellFormed positive bounded three_bits key]
  simp only [bind, Option.bind_some, if_neg no_group, readPayload_of_spells content]
  rfl

theorem readFields_nil (budget : Nat) : readFields budget [] = some [] := by
  rw [readFields, if_pos rfl]

theorem readFields_of_spells {field : Field} {bytes : Bytes} (spells : field.Spells bytes)
    (budget : Nat) (rest : Bytes) :
    readFields budget (bytes ++ rest) = (readFields budget rest).map (field :: ·) := by
  have some_bytes : bytes ++ rest ≠ [] := fun empty =>
    spells.ne_nil (List.append_eq_nil_iff.1 empty).1
  rw [readFields, if_neg some_bytes]
  split
  · rename_i failed
    rw [readField_of_spells spells] at failed
    cases failed
  · rename_i found
    rw [readField_of_spells spells] at found
    cases found
    rfl

/-! ### Fields as they are written -/

/-- A field whose bytes can be read back: its key can hold the tag, it is no group, and it is no
longer than a length can say. -/
structure Field.Writable (field : Field) : Prop where
  positive : 0 < field.tag
  bounded : field.tag ≤ maxTag
  plain : field.payload ≠ .group
  short : field.write.length < UInt64.size

theorem length_content_le (tag : Nat) (content : Bytes) :
    content.length ≤ (Field.write ⟨tag, .bytes content⟩).length := by
  simp only [Field.write, List.length_append]
  omega

theorem length_write_le_of_mem {field : Field} {fields : List Field} (mem : field ∈ fields) :
    field.write.length ≤ (writeFields fields).length :=
  (List.sublist_flatten_of_mem (List.mem_map_of_mem mem)).length_le

/-- The writer spells a field. -/
theorem Field.Writable.spells {field : Field} (writable : field.Writable) :
    field.Spells field.write := by
  obtain ⟨tag, payload⟩ := field
  obtain ⟨positive, bounded, plain, short⟩ := writable
  -- a key is short, whatever the tag and the form
  have key : ∀ form < 8, Varint.WellFormed (writeKey tag form) (8 * tag + form) := by
    intro form three_bits
    have large : 8 * maxTag + 8 ≤ UInt64.size := by decide
    have bounded : tag ≤ maxTag := bounded
    exact Varint.wellFormed_write (by omega)
  cases payload with
  | varint value =>
    exact .intro positive bounded (key 0 (by decide))
      (.varint (Varint.wellFormed_write value.toNat_lt))
  | fixed64 content => exact .intro positive bounded (key 1 (by decide)) (.fixed64 content)
  | bytes content =>
    have fits : content.length < UInt64.size :=
      Nat.lt_of_le_of_lt (length_content_le tag content) short
    have spells : Spells ⟨tag, .bytes content⟩
        (writeKey tag 2 ++ (Varint.write content.length ++ content)) :=
      .intro positive bounded (key 2 (by decide)) (.bytes (Varint.wellFormed_write fits))
    rwa [← List.append_assoc] at spells
  | fixed32 content => exact .intro positive bounded (key 5 (by decide)) (.fixed32 content)
  | group => exact absurd rfl plain

/-! ### Messages with other fields in between -/

/-- Bytes of a message that holds these fields as they are written and, before, between and behind
them, any fields of tags that are not known. -/
inductive Padded (known : List Nat) : List Field → Bytes → Prop where
  | nil : Padded known [] []
  | own {fields : List Field} {bytes : Bytes} (field : Field) :
      Padded known fields bytes → Padded known (field :: fields) (field.write ++ bytes)
  | foreign {fields : List Field} {bytes piece : Bytes} {field : Field} :
      field.tag ∉ known → field.Spells piece →
      Padded known fields bytes → Padded known fields (piece ++ bytes)

namespace Padded

variable {known : List Nat} {fields : List Field}

/-- Nothing needs to be put in between. -/
theorem writeFields (known : List Nat) (fields : List Field) :
    Padded known fields (writeFields fields) := by
  induction fields with
  | nil => exact .nil
  | cons field rest ih => exact .own field ih

/-- A reader that passes over fields of tags that are not known finds what was written. -/
theorem foldlM_readFields {bytes : Bytes} (padded : Padded known fields bytes)
    (writable : ∀ field ∈ fields, field.Writable) {S : Type} {merge : S → Field → Option S}
    (passes : ∀ s field, field.tag ∉ known → merge s field = some s) (budget : Nat) (s : S) :
    ((readFields budget bytes).bind fun found => found.foldlM merge s) = fields.foldlM merge s := by
  induction padded generalizing s with
  | nil => rw [readFields_nil, Option.bind_some]
  | own field padded ih =>
    have spells := (writable field List.mem_cons_self).spells
    have later := ih fun other mem => writable other (List.mem_cons_of_mem _ mem)
    rw [readFields_of_spells spells, Option.bind_map]
    simp only [Function.comp_def, List.foldlM_cons, bind]
    -- where a field cannot be merged, nothing behind it matters
    cases merge s field with
    | none => exact Option.bind_fun_none _
    | some next => exact later next
  | foreign unknown spells padded ih =>
    -- what stands under a foreign tag is read like a field of our own, and passed over
    rw [readFields_of_spells spells, Option.bind_map]
    simp only [Function.comp_def, List.foldlM_cons, passes _ _ unknown, bind, Option.bind_some]
    exact ih writable s

end Padded

end SealedGroups.Wire
