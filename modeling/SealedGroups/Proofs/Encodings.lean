import SealedGroups.Credential
import SealedGroups.Proofs.Maps
import SealedGroups.Samples

/-!
# Credentials and presentations survive encoding

Both are maps with named fields. The reader does not care for the order of the entries, for entries
that it has no field for, or for what follows the map: whatever a credential or a presentation is
written as, it is read again (`decode_of_mixed`). The one limit is the length of a name: it has to
fit into one piece, even where nobody knows it.
-/

namespace SealedGroups

open Cbor (Entry Known)

/-! ### Entries in any order, and others among them -/

namespace Cbor

/-- What a map may be written as instead of its own entries: these in any order, and entries under
names that no field has anywhere among them. How many there are and how long they are has to be a
number that a head can hold. -/
structure Mixed (fields : List (String × Kind)) (own written : List Entry) : Prop where
  own : (named fields written).Perm own
  names : ∀ entry ∈ written, (utf8 entry.1).length < UInt64.size
  items : ∀ entry ∈ written, entry.2.Sized
  count : written.length < UInt64.size

/-- Whether every name fits into one piece. -/
def ShortNames (written : List Entry) : Prop :=
  ∀ entry ∈ written, (utf8 entry.1).length ≤ longest

variable {fields : List (String × Kind)} {own written : List Entry}

theorem Mixed.self (known : ∀ entry ∈ own, Known fields entry) (count : own.length < UInt64.size) :
    Mixed fields own own where
  own := by rw [named_eq_self known]
  names entry mem := Nat.lt_of_le_of_lt (known entry mem).1 (by decide)
  items entry mem := by
    obtain ⟨-, kind, -, holds⟩ := known entry mem
    exact kind.sized_of_holds holds
  count := count

/-- The reader finds the own entries in the order in which they stand, unless a name is too long. -/
theorem Mixed.readMap (mixed : Mixed fields own written)
    (known : ∀ entry ∈ own, Known fields entry) (distinct : (own.map (·.1)).Nodup)
    (trailing : Bytes) :
    (ShortNames written →
      Cbor.readMap fields (writeMap written ++ trailing) = .ok (named fields written))
      ∧ (¬ ShortNames written →
        Cbor.readMap fields (writeMap written ++ trailing) = .error .unexpected) := by
  have readable : ∀ entry ∈ written, Readable fields entry := by
    intro entry mem
    by_cases ours : isNamed fields entry.1 = true
    · exact .known (known entry (mixed.own.mem_iff.1 (List.mem_filter.2 ⟨mem, ours⟩)))
    · exact .foreign ours (mixed.items entry mem)
  -- entries under names of its own come in another order, but none of them twice
  have distinct : (([] : List Entry).map (·.1) ++ (named fields written).map (·.1)).Nodup :=
    (mixed.own.map _).nodup_iff.2 distinct
  -- there is a round for each entry, as each takes a byte at least
  have enough : written.length < (writeEntries written ++ trailing).length + 1 := by
    rw [List.length_append]
    exact Nat.lt_succ_of_le (Nat.le_trans (length_le_writeEntries written) (Nat.le_add_right _ _))
  rw [readMap_writeMap_eq mixed.count]
  constructor
  · intro short
    rw [readEntries_writeEntries _ readable short distinct enough]
    rfl
  · intro long
    simp only [ShortNames, not_forall, Nat.not_le, exists_prop] at long
    rw [readEntries_of_long_name _ readable mixed.names long distinct enough]
    rfl

end Cbor

/-! ### Credentials -/

namespace Credential

variable (credential : Credential)

theorem known_entries : ∀ entry ∈ credential.entries, Known fields entry := by
  intro entry mem
  simp only [entries, List.mem_cons, List.not_mem_nil, or_false] at mem
  rcases mem with rfl | rfl | rfl | rfl
  · exact .string (by decide) (by decide) (by decide) credential.aci
  · exact .octets (by decide) (by decide) (by decide) credential.profileKey
  · exact .number (by decide) (by decide) credential.expiration
  · exact .octets (by decide) (by decide) (by decide) credential.signature

theorem distinct_entries : (credential.entries.map (·.1)).Nodup := by
  change ["aci", "profile_key", "expiration", "signature"].Nodup
  decide

theorem ofEntries_of_perm {found : List Entry} (perm : found.Perm credential.entries) :
    ofEntries found = .ok credential := by
  -- each field is looked up by its name, so the order does not matter
  have distinct := (perm.map (·.1)).nodup_iff.2 credential.distinct_entries
  have there : ∀ entry ∈ credential.entries, entry ∈ found := fun _ => perm.mem_iff.2
  have aci : Cbor.octets found "aci" 16 = .ok credential.aci :=
    Cbor.octets_of_mem distinct (there _ (by simp [entries]))
  have key : Cbor.octets found "profile_key" 32 = .ok credential.profileKey :=
    Cbor.octets_of_mem distinct (there _ (by simp [entries]))
  have expiration : Cbor.number found "expiration" = .ok credential.expiration :=
    Cbor.number_of_mem distinct (there _ (by simp [entries]))
  have signature : Cbor.octets found "signature" 64 = .ok credential.signature :=
    Cbor.octets_of_mem distinct (there _ (by simp [entries]))
  simp only [bind, Except.bind, ofEntries, aci, key, expiration, signature, pure, Except.pure]

theorem ofBytes_of_mixed {written : List Entry}
    (mixed : Cbor.Mixed fields credential.entries written) (trailing : Bytes) :
    (Cbor.ShortNames written → ofBytes (Cbor.writeMap written ++ trailing) = .ok credential)
      ∧ (¬ Cbor.ShortNames written →
        ofBytes (Cbor.writeMap written ++ trailing) = .error .unexpected) := by
  obtain ⟨reads, refuses⟩ :=
    mixed.readMap credential.known_entries credential.distinct_entries trailing
  constructor
  · intro short
    rw [ofBytes, reads short]
    exact credential.ofEntries_of_perm mixed.own
  · intro long
    rw [ofBytes, refuses long]
    rfl

theorem mixed_entries : Cbor.Mixed fields credential.entries credential.entries :=
  .self credential.known_entries (by decide : 4 < UInt64.size)

theorem shortNames_entries : Cbor.ShortNames credential.entries :=
  fun entry mem => (credential.known_entries entry mem).1

end Credential

/-! ### Presentations -/

namespace Presentation

variable (presentation : Presentation)

theorem toBytes_ne_nil : presentation.toBytes ≠ [] :=
  Cbor.writeMap_ne_nil presentation.entries

theorem known_entries : ∀ entry ∈ presentation.entries, Known fields entry := by
  intro entry mem
  simp only [entries, List.mem_cons, List.not_mem_nil, or_false] at mem
  rcases mem with rfl | rfl | rfl | rfl
  · exact .octets (by decide) (by decide) (by decide) presentation.identity
  · exact .octets (by decide) (by decide) (by decide) presentation.profileKey
  · exact .number (by decide) (by decide) presentation.expiration
  · exact .octets (by decide) (by decide) (by decide) presentation.proof

theorem distinct_entries : (presentation.entries.map (·.1)).Nodup := by
  change ["uid_ciphertext", "profile_key_ciphertext", "expiration", "proof"].Nodup
  decide

theorem ofEntries_of_perm {found : List Entry} (perm : found.Perm presentation.entries) :
    ofEntries found = .ok presentation := by
  have distinct := (perm.map (·.1)).nodup_iff.2 presentation.distinct_entries
  have there : ∀ entry ∈ presentation.entries, entry ∈ found := fun _ => perm.mem_iff.2
  have identity : Cbor.octets found "uid_ciphertext" 57 = .ok presentation.identity :=
    Cbor.octets_of_mem distinct (there _ (by simp [entries]))
  have key : Cbor.octets found "profile_key_ciphertext" 72 = .ok presentation.profileKey :=
    Cbor.octets_of_mem distinct (there _ (by simp [entries]))
  have expiration : Cbor.number found "expiration" = .ok presentation.expiration :=
    Cbor.number_of_mem distinct (there _ (by simp [entries]))
  have proof : Cbor.octets found "proof" 64 = .ok presentation.proof :=
    Cbor.octets_of_mem distinct (there _ (by simp [entries]))
  simp only [bind, Except.bind, ofEntries, identity, key, expiration, proof, pure, Except.pure]

theorem ofBytes_of_mixed {written : List Entry}
    (mixed : Cbor.Mixed fields presentation.entries written) (trailing : Bytes) :
    (Cbor.ShortNames written → ofBytes (Cbor.writeMap written ++ trailing) = .ok presentation)
      ∧ (¬ Cbor.ShortNames written →
        ofBytes (Cbor.writeMap written ++ trailing) = .error .unexpected) := by
  obtain ⟨reads, refuses⟩ :=
    mixed.readMap presentation.known_entries presentation.distinct_entries trailing
  constructor
  · intro short
    rw [ofBytes, reads short]
    exact presentation.ofEntries_of_perm mixed.own
  · intro long
    rw [ofBytes, refuses long]
    rfl

theorem mixed_entries : Cbor.Mixed fields presentation.entries presentation.entries :=
  .self presentation.known_entries (by decide : 4 < UInt64.size)

theorem shortNames_entries : Cbor.ShortNames presentation.entries :=
  fun entry mem => (presentation.known_entries entry mem).1

/-- A presentation is read back as it was written. -/
theorem ofBytes_toBytes : ofBytes presentation.toBytes = .ok presentation := by
  have read := (presentation.ofBytes_of_mixed presentation.mixed_entries []).1
    presentation.shortNames_entries
  rwa [List.append_nil] at read

end Presentation

/-! ### Both -/

/-- Credentials and presentations are read from the bytes they are written as, and from every other
map with the same entries, whatever order they are in, whatever stands under other names among them,
and whatever follows. Just those maps are refused where a name does not fit into one piece. -/
theorem decode_of_mixed (trailing : Bytes) :
    (∀ credential : Credential,
      Credential.ofBytes (credential.toBytes ++ trailing) = .ok credential
        ∧ ∀ written, Cbor.Mixed Credential.fields credential.entries written →
          (Cbor.ShortNames written →
            Credential.ofBytes (Cbor.writeMap written ++ trailing) = .ok credential)
          ∧ (¬ Cbor.ShortNames written →
            Credential.ofBytes (Cbor.writeMap written ++ trailing) = .error .unexpected))
      ∧ ∀ presentation : Presentation,
        Presentation.ofBytes (presentation.toBytes ++ trailing) = .ok presentation
          ∧ ∀ written, Cbor.Mixed Presentation.fields presentation.entries written →
            (Cbor.ShortNames written →
              Presentation.ofBytes (Cbor.writeMap written ++ trailing) = .ok presentation)
            ∧ (¬ Cbor.ShortNames written →
              Presentation.ofBytes (Cbor.writeMap written ++ trailing) = .error .unexpected) := by
  refine ⟨fun credential => ⟨?_, ?_⟩, fun presentation => ⟨?_, ?_⟩⟩
  · exact (credential.ofBytes_of_mixed credential.mixed_entries trailing).1
      credential.shortNames_entries
  · exact fun written mixed => credential.ofBytes_of_mixed mixed trailing
  · exact (presentation.ofBytes_of_mixed presentation.mixed_entries trailing).1
      presentation.shortNames_entries
  · exact fun written mixed => presentation.ofBytes_of_mixed mixed trailing

namespace Sample

/-- A presentation of zeros. -/
def blankPresentation : Presentation where
  identity := .replicate 57 0
  profileKey := .replicate 72 0
  expiration := 0
  proof := .replicate 64 0

/-- A name of so many letters. -/
def repeatedName (n : Nat) : String :=
  String.ofList (List.replicate n 'a')

theorem length_repeatedName (n : Nat) : (utf8 (repeatedName n)).length = n := by
  have size : ∀ text : String, (utf8 text).length = text.utf8ByteSize := fun _ => rfl
  induction n with
  | zero => rfl
  | succ n ih =>
    have one : (String.singleton 'a').utf8ByteSize = 1 := by decide
    rw [size] at ih ⊢
    rw [repeatedName, List.replicate_succ, String.ofList_cons, String.utf8ByteSize_append, one]
    rw [repeatedName] at ih
    rw [ih, Nat.add_comm]

theorem unnamed_repeatedName : ¬ Cbor.isNamed Presentation.fields (repeatedName 4097) = true := by
  intro named
  obtain ⟨field, mem, same⟩ := List.any_eq_true.1 named
  have short : ∀ field ∈ Presentation.fields, (utf8 field.1).length < 4097 := by decide
  have length := short field mem
  rw [beq_iff_eq.1 same, length_repeatedName] at length
  exact absurd length (Nat.lt_irrefl _)

/-- An entry under a name that no field has, one byte longer than a piece, before the entries of a
presentation: the map is refused. -/
theorem long_name_refused :
    let written := (repeatedName 4097, .number 0) :: blankPresentation.entries
    Cbor.Mixed Presentation.fields blankPresentation.entries written
      ∧ Presentation.ofBytes (Cbor.writeMap written) = .error .unexpected := by
  have length := length_repeatedName 4097
  have unnamed := unnamed_repeatedName
  -- nothing but the length of the name matters, and to spell it out would take long
  generalize repeatedName 4097 = name at length unnamed
  intro written
  have own := blankPresentation.mixed_entries
  have mixed : Cbor.Mixed Presentation.fields blankPresentation.entries written := by
    constructor
    case own =>
      rw [Cbor.named_cons_of_unnamed unnamed]
      -- the entry with the long name has no field, so the fields are those without it
      exact own.own
    case names => exact List.forall_mem_cons.2 ⟨length ▸ (by decide), own.names⟩
    case items => exact List.forall_mem_cons.2 ⟨trivial, own.items⟩
    case count => exact (by decide : 5 < UInt64.size)
  have long : ¬ Cbor.ShortNames written := by
    intro short
    have fits := short _ List.mem_cons_self
    rw [length] at fits
    exact absurd fits (by decide)
  have refused := (blankPresentation.ofBytes_of_mixed mixed []).2 long
  rw [List.append_nil] at refused
  exact ⟨mixed, refused⟩

/-- The entries of a credential in another order, with notes in between and bytes behind them. -/
theorem decode_of_mixed_sample :
    let credential : Credential := ⟨uuid 1, profileKey 1, 7, .replicate 64 5⟩
    let written : List Entry := [
      ("note", .octets [1, 2]), ("signature", .octets (.replicate 64 5)), ("expiration", .number 7),
      ("note", .number 3), ("aci", .octets (uuid 1).toList),
      ("profile_key", .octets (profileKey 1).toList)]
    Credential.ofBytes (Cbor.writeMap written ++ [255]) = .ok credential := by
  intro credential written
  have mixed : Cbor.Mixed Credential.fields credential.entries written := by
    constructor
    case own => decide +kernel
    case names => decide +kernel
    case items => decide +kernel
    case count => decide
  have short : Cbor.ShortNames written := by
    unfold Cbor.ShortNames
    decide +kernel
  exact (((decode_of_mixed [255]).1 credential).2 written mixed).1 short

end Sample

end SealedGroups
