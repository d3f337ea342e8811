import SealedGroups.Octets

/-!
# Scalars

Numbers modulo the order of the group that signatures are made in. A scalar is always reduced, so
it has one spelling in 32 bytes: reading accepts that spelling only (`ofCanonical?`), while 64 bytes
of hash output are reduced into a scalar (`ofWide`).
-/

namespace SealedGroups

/-- The order of the group. -/
def Scalar.order : Nat := (1 <<< 252) + 27742317777372353535851937790883648493

/-- A number modulo the group order. -/
structure Scalar where
  value : Nat
  lt_order : value < Scalar.order
deriving DecidableEq

namespace Scalar

theorem ext_value {a b : Scalar} (h : a.value = b.value) : a = b := by
  cases a; cases b; cases h; rfl

def ofNat (n : Nat) : Scalar :=
  ⟨n % order, Nat.mod_lt n (by decide)⟩

instance : Inhabited Scalar := ⟨ofNat 0⟩

instance : Add Scalar := ⟨fun a b => ofNat (a.value + b.value)⟩

instance : Mul Scalar := ⟨fun a b => ofNat (a.value * b.value)⟩

instance : Neg Scalar := ⟨fun a => ofNat (order - a.value)⟩

theorem value_add (a b : Scalar) : (a + b).value = (a.value + b.value) % order := rfl

theorem value_mul (a b : Scalar) : (a * b).value = a.value * b.value % order := rfl

theorem value_neg (a : Scalar) : (-a).value = (order - a.value) % order := rfl

/-- 64 bytes reduced modulo the order. -/
def ofWide (bytes : Octets 64) : Scalar :=
  ofNat bytes.toNatLE

/-- The one spelling of a scalar. -/
def toOctets (a : Scalar) : Octets 32 :=
  .ofNatLE 32 a.value

/-- The scalar spelled by 32 bytes, if they are reduced. -/
def ofCanonical? (bytes : Octets 32) : Option Scalar :=
  if h : bytes.toNatLE < order then some ⟨bytes.toNatLE, h⟩ else none

theorem ofCanonical?_toOctets (a : Scalar) : ofCanonical? a.toOctets = some a := by
  have lt : a.value < order := a.lt_order
  have value : a.toOctets.toNatLE = a.value := by
    have wide : order ≤ capacity 32 := by decide
    rw [Octets.toNatLE, toOctets, Octets.ofNatLE, natOfLE_bytesLE,
      Nat.mod_eq_of_lt (Nat.lt_of_lt_of_le lt wide)]
  unfold ofCanonical?
  rw [dif_pos (by rw [value]; exact lt)]
  exact congrArg some (ext_value value)

theorem toOctets_inj {a b : Scalar} : a.toOctets = b.toOctets ↔ a = b := by
  refine ⟨fun same => ?_, congrArg toOctets⟩
  have read := ofCanonical?_toOctets a
  rw [same, ofCanonical?_toOctets] at read
  exact (Option.some.inj read).symm

theorem toOctets_of_ofCanonical? {bytes : Octets 32} {a : Scalar}
    (h : ofCanonical? bytes = some a) : a.toOctets = bytes := by
  unfold ofCanonical? at h
  split at h
  · cases h
    apply Octets.ext_toList
    have := bytesLE_natOfLE bytes.toList
    rwa [bytes.length_toList] at this
  · cases h

end Scalar

end SealedGroups
