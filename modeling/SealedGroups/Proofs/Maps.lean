import SealedGroups.Cbor.Fields
import Mathlib.Data.List.Nodup

/-!
# Maps with named fields are read back as they were written

A map that was written from named items is read back item by item, whatever follows it, if every
name is a known field of a fitting kind and no name is there twice. Items under other names may
stand anywhere among them; they are passed over, whatever they hold (`readEntries_writeEntries`).
Only a name that does not fit into one piece is too much for the reader
(`readEntries_of_long_name`).
-/

namespace SealedGroups.Cbor

/-! ### Heads -/

namespace Head

/-- A head whose number has the digits that its first byte announces. -/
theorem read_cons {kind low : Nat} (kind_lt : kind < 8) (low_lt : low < 28) {digits : Bytes}
    (announced : digits.length = width low) (rest : Bytes) :
    read (UInt8.ofNat (32 * kind + low) :: (digits ++ rest)) = do
      return (← make kind low (some (if low < 24 then low else natOfBE digits)), rest) := by
  have first : (UInt8.ofNat (32 * kind + low)).toNat = 32 * kind + low :=
    Nat.mod_eq_of_lt (by omega)
  have kind_eq : (32 * kind + low) / 32 = kind := by omega
  have low_eq : (32 * kind + low) % 32 = low := by omega
  unfold read
  simp only [first, kind_eq, low_eq, take?_append announced]
  rw [if_neg (by omega), if_neg (by omega)]

/-- A head is read as it was written, in whatever width. -/
theorem read_write {kind value : Nat} {head : Head} (kind_lt : kind < 8)
    (value_lt : value < UInt64.size) (made : ∀ low, make kind low (some value) = .ok head)
    (rest : Bytes) : read (write kind value ++ rest) = .ok (head, rest) := by
  -- four widths of an argument differ in their bounds alone
  have wide : ∀ {low n : Nat}, 24 ≤ low → low < 28 → width low = n → value < capacity n →
      read (UInt8.ofNat (32 * kind + low) :: (bytesBE n value ++ rest)) = .ok (head, rest) := by
    intro low n big small announced fits
    rw [read_cons kind_lt small ((length_bytesBE n value).trans announced.symm),
      if_neg (Nat.not_lt.2 big), natOfBE_bytesBE, Nat.mod_eq_of_lt fits, made]
    rfl
  unfold write
  split
  · rename_i small
    have none : ([] : Bytes).length = width value := (if_pos small).symm
    refine (read_cons kind_lt (by omega) none rest).trans ?_
    rw [if_pos small, made]
    rfl
  · split
    · rename_i fits
      exact wide (by decide) (by decide) rfl fits
    · split
      · rename_i fits
        exact wide (by decide) (by decide) rfl fits
      · split
        · rename_i fits
          exact wide (by decide) (by decide) rfl fits
        · exact wide (by decide) (by decide) rfl value_lt

theorem length_write_pos (kind value : Nat) : 0 < (write kind value).length := by
  unfold write
  split_ifs <;> exact Nat.zero_lt_succ _

end Head

theorem readUntagged_of_read {bytes rest : Bytes} {head : Head}
    (h : Head.read bytes = .ok (head, rest)) (untagged : ∀ number, head ≠ .tag number) :
    readUntagged bytes = .ok (head, rest) := by
  unfold readUntagged
  split
  · rename_i failed
    rw [h] at failed
    cases failed
  · rename_i tag rest' read
    rw [h] at read
    cases read
    exact absurd rfl (untagged tag)
  · rename_i read
    rw [h] at read
    cases read
    rfl

/-! ### Names and items -/

theorem readName_writeText {name : String} (short : (utf8 name).length ≤ longest) (rest : Bytes) :
    readName (writeText name ++ rest) = .ok (utf8 name, rest) := by
  have bound : (utf8 name).length < UInt64.size := Nat.lt_of_le_of_lt short (by decide)
  have head : Head.read (Head.write 3 (utf8 name).length ++ (utf8 name ++ rest)) =
      .ok (.text (some (utf8 name).length), utf8 name ++ rest) :=
    Head.read_write (by decide) bound (fun _ => rfl) _
  have content : readText [] (utf8 name).length (utf8 name ++ rest) = .ok (utf8 name, rest) := by
    rw [readText, if_pos short, take?_append rfl]
    simp [ofUtf8?_utf8]
  rw [readName, writeText, List.append_assoc, readUntagged_of_read head fun _ => nofun]
  simp [bind, Except.bind, short, content]

/-- A name that does not fit into one piece is refused, whatever it names. -/
theorem readName_writeText_of_long {name : String} (long : longest < (utf8 name).length)
    (bounded : (utf8 name).length < UInt64.size) (rest : Bytes) :
    readName (writeText name ++ rest) = .error .unexpected := by
  have head : Head.read (Head.write 3 (utf8 name).length ++ (utf8 name ++ rest)) =
      .ok (.text (some (utf8 name).length), utf8 name ++ rest) :=
    Head.read_write (by decide) bounded (fun _ => rfl) _
  rw [readName, writeText, List.append_assoc, readUntagged_of_read head fun _ => nofun]
  simp only [bind, Except.bind, if_neg (Nat.not_le.2 long)]
  rfl

/-- An item that a field of a kind can hold. -/
def Kind.holds : Kind → Item → Prop
  | .number, .number _ => True
  | .octets size, .octets content => content.length = size ∧ size ≤ longest
  | .string size, .octets content => content.length = size ∧ size ≤ longest
  | _, _ => False

theorem readFixed_write {content : Bytes} (short : content.length ≤ longest) (arrays : Bool)
    (rest : Bytes) :
    readFixed content.length arrays ((Item.octets content).write ++ rest) =
      .ok (content, rest) := by
  have bound : content.length < UInt64.size := Nat.lt_of_le_of_lt short (by decide)
  have head : Head.read (Head.write 2 content.length ++ (content ++ rest)) =
      .ok (.bytes (some content.length), content ++ rest) :=
    Head.read_write (by decide) bound (fun _ => rfl) _
  have piece : readPiece content.length (content ++ rest) = .ok (content, rest) := by
    rw [readPiece, if_pos short, readOctets, take?_append rfl]
    rfl
  rw [readFixed, Item.write, List.append_assoc, readUntagged_of_read head fun _ => nofun]
  simp [bind, Except.bind, piece, pure, Except.pure]

theorem readBelow_write (value : UInt64) (rest : Bytes) :
    readBelow UInt64.size ((Item.number value).write ++ rest) = .ok (value.toNat, rest) := by
  have bound : value.toNat < UInt64.size := value.toNat_lt_size
  have head : Head.read (Head.write 0 value.toNat ++ rest) = .ok (.unsigned value.toNat, rest) :=
    Head.read_write (by decide) bound (fun _ => rfl) rest
  have integer : readInteger ((Item.number value).write ++ rest) =
      .ok (⟨false, value.toNat⟩, rest) := by
    unfold readInteger Item.write
    -- only an unsigned number is at the head, the other kinds contradict it
    split
    · rename_i read
      rw [head] at read
      cases read
    · rename_i read
      rw [head] at read
      cases read
      rfl
    · rename_i read
      rw [head] at read
      cases read
    · rename_i read
      rw [head] at read
      cases read
    · rename_i number _ _ read
      rw [head] at read
      cases read
      exact absurd rfl (number _)
  rw [readBelow, integer]
  simp [bind, Except.bind, pure, Except.pure, bound]

/-- An item is read as it was written by a field that can hold it. -/
theorem Kind.read_write {kind : Kind} {item : Item} (holds : kind.holds item) (rest : Bytes) :
    kind.read (item.write ++ rest) = .ok (item, rest) := by
  cases kind with
  | number =>
    cases item with
    | number value =>
      rw [Kind.read, readBelow_write]
      simp [bind, Except.bind, pure, Except.pure]
    | octets content => cases holds
  | octets size =>
    cases item with
    | number value => cases holds
    | octets content =>
      obtain ⟨rfl, short⟩ := holds
      rw [Kind.read, readFixed_write short]
      rfl
  | string size =>
    cases item with
    | number value => cases holds
    | octets content =>
      obtain ⟨rfl, short⟩ := holds
      rw [Kind.read, readFixed_write short]
      rfl

/-- A number that a head can hold, or a byte string whose length is one. -/
def Item.Sized : Item → Prop
  | .number _ => True
  | .octets content => content.length < UInt64.size

instance : DecidablePred Item.Sized
  | .number _ => inferInstanceAs (Decidable True)
  | .octets _ => inferInstanceAs (Decidable (_ < _))

theorem Kind.sized_of_holds {kind : Kind} {item : Item} (holds : kind.holds item) : item.Sized := by
  have short : longest < UInt64.size := by decide
  cases item with
  | number value => exact trivial
  | octets content =>
    cases kind with
    | number => cases holds
    | octets size => exact Nat.lt_of_le_of_lt (Nat.le_trans (Nat.le_of_eq holds.1) holds.2) short
    | string size => exact Nat.lt_of_le_of_lt (Nat.le_trans (Nat.le_of_eq holds.1) holds.2) short

/-- An item is passed over whole. -/
theorem skip_write {item : Item} (sized : item.Sized) (depth : Nat) (rest : Bytes) :
    skip depth (item.write ++ rest) = .ok rest := by
  rw [skip, skipValue]
  cases item with
  | number value =>
    have head : Head.read ((Item.number value).write ++ rest) =
        .ok (.unsigned value.toNat, rest) :=
      Head.read_write (by decide) value.toNat_lt_size (fun _ => rfl) rest
    rw [head]
    rfl
  | octets content =>
    have head : Head.read (Head.write 2 content.length ++ (content ++ rest)) =
        .ok (.bytes (some content.length), content ++ rest) :=
      Head.read_write (by decide) sized (fun _ => rfl) _
    have taken : readString false readOctets [] (some content.length) (content ++ rest) =
        .ok (content, rest) := by
      rw [readString, readOctets, take?_append rfl]
      rfl
    rw [Item.write, List.append_assoc, head]
    simp only [bind, Except.bind, taken, pure, Except.pure]

/-! ### Maps -/

theorem utf8_injective : Function.Injective utf8 := by
  intro text other same
  have read := ofUtf8?_utf8 text
  rw [same, ofUtf8?_utf8] at read
  exact (Option.some.inj read).symm

/-- Whether a field has this name. -/
def isNamed (fields : List (String × Kind)) (name : String) : Bool :=
  fields.any (·.1 == name)

theorem field?_of_unnamed {fields : List (String × Kind)} {name : String}
    (unnamed : ¬ isNamed fields name = true) : field? fields (utf8 name) = none := by
  apply List.find?_eq_none.2
  intro field mem fit
  have same : field.1 = name := utf8_injective (beq_iff_eq.1 fit)
  exact unnamed (List.any_eq_true.2 ⟨field, mem, beq_iff_eq.2 same⟩)

/-- An entry that fields know: its name is short, and its field can hold it. -/
def Known (fields : List (String × Kind)) (entry : Entry) : Prop :=
  (utf8 entry.1).length ≤ longest ∧
    ∃ kind, field? fields (utf8 entry.1) = some (entry.1, kind) ∧ kind.holds entry.2

theorem Known.number {fields : List (String × Kind)} {name : String}
    (short : (utf8 name).length ≤ longest)
    (field : field? fields (utf8 name) = some (name, .number)) (value : UInt64) :
    Known fields (name, .number value) :=
  ⟨short, .number, field, trivial⟩

theorem Known.octets {fields : List (String × Kind)} {name : String} {size : Nat}
    (short : (utf8 name).length ≤ longest)
    (field : field? fields (utf8 name) = some (name, .octets size)) (size_le : size ≤ longest)
    (value : Octets size) : Known fields (name, .octets value.toList) :=
  ⟨short, .octets size, field, value.length_toList, size_le⟩

theorem Known.string {fields : List (String × Kind)} {name : String} {size : Nat}
    (short : (utf8 name).length ≤ longest)
    (field : field? fields (utf8 name) = some (name, .string size)) (size_le : size ≤ longest)
    (value : Octets size) : Known fields (name, .octets value.toList) :=
  ⟨short, .string size, field, value.length_toList, size_le⟩

theorem Known.named {fields : List (String × Kind)} {entry : Entry} (known : Known fields entry) :
    isNamed fields entry.1 = true := by
  obtain ⟨-, kind, field, -⟩ := known
  exact List.any_eq_true.2 ⟨_, List.mem_of_find?_eq_some field, beq_self_eq_true _⟩

/-- The entries that stand under the name of a field. -/
def named (fields : List (String × Kind)) (entries : List Entry) : List Entry :=
  entries.filter fun entry => isNamed fields entry.1

theorem named_eq_self {fields : List (String × Kind)} {entries : List Entry}
    (known : ∀ entry ∈ entries, Known fields entry) : named fields entries = entries :=
  List.filter_eq_self.2 fun entry mem => (known entry mem).named

theorem named_cons_of_known {fields : List (String × Kind)} {entry : Entry}
    {entries : List Entry} (known : Known fields entry) :
    named fields (entry :: entries) = entry :: named fields entries :=
  List.filter_cons_of_pos known.named

theorem named_cons_of_unnamed {fields : List (String × Kind)} {entry : Entry}
    {entries : List Entry} (unnamed : ¬ isNamed fields entry.1 = true) :
    named fields (entry :: entries) = named fields entries :=
  List.filter_cons_of_neg unnamed

/-- An entry that the reader of some fields takes, or passes over, unless its name is too long. -/
inductive Readable (fields : List (String × Kind)) (entry : Entry) : Prop where
  | known (known : Known fields entry)
  | foreign (unnamed : ¬ isNamed fields entry.1 = true) (sized : entry.2.Sized)

theorem lookup_eq_none {found : List Entry} {name : String} (absent : name ∉ found.map (·.1)) :
    found.lookup name = none := by
  induction found with
  | nil => rfl
  | cons entry rest ih =>
    rw [List.map_cons, List.mem_cons, not_or] at absent
    rw [List.lookup_cons, beq_false_of_ne absent.1]
    exact ih absent.2

section

variable {fields : List (String × Kind)} {depth rounds left : Nat} {entry : Entry}
  {found written : List Entry}

theorem writeEntries_cons (entry : Entry) (written : List Entry) (rest : Bytes) :
    writeEntries (entry :: written) ++ rest =
      writeText entry.1 ++ (entry.2.write ++ (writeEntries written ++ rest)) := by
  simp only [writeEntries, List.flatMap_cons, List.append_assoc]

theorem readEntries_of_known (known : Known fields entry) (unread : found.lookup entry.1 = none)
    (rest : Bytes) :
    readEntries fields depth (rounds + 1) (some (left + 1)) found
        (writeText entry.1 ++ (entry.2.write ++ rest)) =
      readEntries fields depth rounds (some left) (found ++ [entry]) rest := by
  obtain ⟨short, kind, field, holds⟩ := known
  simp only [readEntries, pure, Except.pure, bind, Except.bind, readName_writeText short, field,
    unread, Kind.read_write holds, Option.isSome_none, Bool.false_eq_true, if_false]

theorem readEntries_of_unnamed (unnamed : ¬ isNamed fields entry.1 = true)
    (short : (utf8 entry.1).length ≤ longest) (sized : entry.2.Sized) (rest : Bytes) :
    readEntries fields depth (rounds + 1) (some (left + 1)) found
        (writeText entry.1 ++ (entry.2.write ++ rest)) =
      readEntries fields depth rounds (some left) found rest := by
  simp only [readEntries, pure, Except.pure, bind, Except.bind, readName_writeText short,
    field?_of_unnamed unnamed, skip_write sized]

theorem readEntries_of_long (long : longest < (utf8 entry.1).length)
    (bounded : (utf8 entry.1).length < UInt64.size) (rest : Bytes) :
    readEntries fields depth (rounds + 1) (some (left + 1)) found (writeText entry.1 ++ rest) =
      .error .unexpected := by
  simp only [readEntries, pure, Except.pure, bind, Except.bind,
    readName_writeText_of_long long bounded]

/-- A known entry that comes next was not read before, and none after it is the same. -/
theorem distinct_of_known (known : Known fields entry)
    (distinct : (found.map (·.1) ++ (named fields (entry :: written)).map (·.1)).Nodup) :
    found.lookup entry.1 = none
      ∧ ((found ++ [entry]).map (·.1) ++ (named fields written).map (·.1)).Nodup := by
  rw [named_cons_of_known known, List.map_cons, List.append_cons] at distinct
  constructor
  · apply lookup_eq_none
    intro present
    exact (List.nodup_append.1 (List.nodup_append.1 distinct).1).2.2 _ present _
      List.mem_cons_self rfl
  · rw [List.map_append]
    exact distinct

/-- The entries of the fields are found in the order in which they stand. -/
theorem readEntries_writeEntries (depth : Nat) (readable : ∀ entry ∈ written, Readable fields entry)
    (short : ∀ entry ∈ written, (utf8 entry.1).length ≤ longest)
    (distinct : (found.map (·.1) ++ (named fields written).map (·.1)).Nodup)
    (enough : written.length < rounds) (rest : Bytes) :
    readEntries fields depth rounds (some written.length) found (writeEntries written ++ rest) =
      .ok (found ++ named fields written, rest) := by
  induction written generalizing found rounds with
  | nil =>
    cases rounds with
    | zero => cases enough
    | succ rounds =>
      rw [named, List.filter_nil, List.append_nil]
      rfl
  -- one round is spent on each entry, and more are left than entries
  | cons entry written ih =>
    obtain ⟨rounds, rfl⟩ : ∃ more, rounds = more + 1 :=
      Nat.exists_eq_add_one_of_ne_zero (Nat.ne_of_gt (Nat.zero_lt_of_lt enough))
    obtain ⟨head_readable, readable⟩ := List.forall_mem_cons.1 readable
    obtain ⟨head_short, short⟩ := List.forall_mem_cons.1 short
    have enough := Nat.lt_of_succ_lt_succ enough
    rw [writeEntries_cons, List.length_cons]
    -- a known entry is put behind those found so far, one without a field is passed over
    cases head_readable with
    | known known =>
      obtain ⟨unread, distinct⟩ := distinct_of_known known distinct
      rw [readEntries_of_known known unread, ih readable short distinct enough,
        named_cons_of_known known, List.append_assoc]
      rfl
    | foreign unnamed sized =>
      rw [named_cons_of_unnamed unnamed] at distinct ⊢
      rw [readEntries_of_unnamed unnamed head_short sized]
      exact ih readable short distinct enough

/-- Wherever a name stands that does not fit into one piece, reading ends there. -/
theorem readEntries_of_long_name (depth : Nat) (readable : ∀ entry ∈ written, Readable fields entry)
    (bounded : ∀ entry ∈ written, (utf8 entry.1).length < UInt64.size)
    (long : ∃ entry ∈ written, longest < (utf8 entry.1).length)
    (distinct : (found.map (·.1) ++ (named fields written).map (·.1)).Nodup)
    (enough : written.length < rounds) (rest : Bytes) :
    readEntries fields depth rounds (some written.length) found (writeEntries written ++ rest) =
      .error .unexpected := by
  induction written generalizing found rounds with
  | nil =>
    obtain ⟨_, none, -⟩ := long
    cases none
  | cons entry written ih =>
    obtain ⟨rounds, rfl⟩ : ∃ more, rounds = more + 1 :=
      Nat.exists_eq_add_one_of_ne_zero (Nat.ne_of_gt (Nat.zero_lt_of_lt enough))
    obtain ⟨head_readable, readable⟩ := List.forall_mem_cons.1 readable
    obtain ⟨head_bounded, bounded⟩ := List.forall_mem_cons.1 bounded
    have enough := Nat.lt_of_succ_lt_succ enough
    rw [writeEntries_cons, List.length_cons]
    by_cases here : longest < (utf8 entry.1).length
    · exact readEntries_of_long here head_bounded _
    · -- the long name comes later, where the reading stops
      have long : ∃ entry ∈ written, longest < (utf8 entry.1).length := by
        obtain ⟨other, mem, long⟩ := long
        rcases List.mem_cons.1 mem with rfl | later
        · exact absurd long here
        · exact ⟨other, later, long⟩
      cases head_readable with
      | known known =>
        obtain ⟨unread, distinct⟩ := distinct_of_known known distinct
        rw [readEntries_of_known known unread]
        exact ih readable bounded long distinct enough
      | foreign unnamed sized =>
        rw [named_cons_of_unnamed unnamed] at distinct
        rw [readEntries_of_unnamed unnamed (Nat.not_lt.1 here) sized]
        exact ih readable bounded long distinct enough

end

theorem length_le_writeEntries (entries : List Entry) :
    entries.length ≤ (writeEntries entries).length := by
  induction entries with
  | nil => exact Nat.le_refl _
  | cons entry entries ih =>
    have head := Head.length_write_pos 3 (utf8 entry.1).length
    simp only [writeEntries, List.flatMap_cons, List.length_cons, List.length_append,
      writeText] at ih ⊢
    omega

theorem writeMap_ne_nil (entries : List Entry) : writeMap entries ≠ [] := by
  have head := Head.length_write_pos 5 entries.length
  intro empty
  rw [(List.append_eq_nil_iff.1 empty).1] at head
  cases head

/-- Reading a map is reading its entries. -/
theorem readMap_writeMap_eq {fields : List (String × Kind)} {written : List Entry}
    (few : written.length < UInt64.size) (trailing : Bytes) :
    readMap fields (writeMap written ++ trailing) = (·.1) <$> readEntries fields (nesting - 1)
      ((writeEntries written ++ trailing).length + 1) (some written.length) []
      (writeEntries written ++ trailing) := by
  have head : Head.read (Head.write 5 written.length ++ (writeEntries written ++ trailing)) =
      .ok (.map (some written.length), writeEntries written ++ trailing) :=
    Head.read_write (by decide) few (fun _ => rfl) _
  rw [readMap, writeMap, List.append_assoc, readUntagged_of_read head fun _ => nofun]
  rfl

/-! ### Fields that were read -/

theorem lookup_eq_some {entries : List Entry} {name : String} {item : Item}
    (distinct : (entries.map (·.1)).Nodup) (mem : (name, item) ∈ entries) :
    entries.lookup name = some item := by
  induction entries with
  | nil => cases mem
  | cons entry rest ih =>
    rw [List.map_cons, List.nodup_cons] at distinct
    rcases List.mem_cons.1 mem with rfl | later
    · exact List.lookup_cons_self
    · -- a name that comes again would be there twice
      have other : name ≠ entry.1 := by
        rintro rfl
        exact distinct.1 (List.mem_map.2 ⟨_, later, rfl⟩)
      rw [List.lookup_cons, beq_false_of_ne other]
      exact ih distinct.2 later

theorem octets_of_mem {entries : List Entry} {name : String} {size : Nat} {value : Octets size}
    (distinct : (entries.map (·.1)).Nodup) (mem : (name, .octets value.toList) ∈ entries) :
    octets entries name size = .ok value := by
  rw [octets, lookup_eq_some distinct mem]
  simp

theorem number_of_mem {entries : List Entry} {name : String} {value : UInt64}
    (distinct : (entries.map (·.1)).Nodup) (mem : (name, .number value) ∈ entries) :
    number entries name = .ok value := by
  rw [number, lookup_eq_some distinct mem]

end SealedGroups.Cbor
