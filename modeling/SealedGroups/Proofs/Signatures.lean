import SealedGroups.Curve.Ristretto
import SealedGroups.Schnorr
import Mathlib.Algebra.BigOperators.Group.List.Basic
import Mathlib.Data.ZMod.Basic
import Mathlib.GroupTheory.Perm.Basic

/-!
# Signatures verify

What a signature says is an equation between discrete logarithms: of a nonce, of a key, and of the
sum that the verifier makes of them. So what is needed of a curve is that sums and multiples of
points are sums and multiples of discrete logarithms, and that the encoding of a point tells its
discrete logarithm and nothing else (`Curve.Lawful`). Over such a curve every signature verifies
under the key it was made with (`Schnorr.verify_signWith`), and nothing else does: a signature that
is accepted is the answer to a challenge, under some nonce (`Schnorr.verify_eq_ok_iff`).

Points are never compared themselves, because a group element may have several of them.
-/

namespace SealedGroups

/-! ### Curves with discrete logarithms -/

namespace Curve

/-- The laws of a group of prime order with a faithful encoding. `IsLog P e` says that the point `P`
stands for the `e`-fold of the base point. A curve may have points that stand for nothing, but none
that can be decoded. -/
structure Lawful (G : Curve) (IsLog : G.Point → ZMod Scalar.order → Prop) : Prop where
  base : IsLog G.base 1
  add {P Q : G.Point} {e f : ZMod Scalar.order} :
    IsLog P e → IsLog Q f → IsLog (G.add P Q) (e + f)
  mul {P : G.Point} {e : ZMod Scalar.order} (n : Nat) : IsLog P e → IsLog (G.mul n P) (n * e)
  compress_eq_iff {P Q : G.Point} {e f : ZMod Scalar.order} :
    IsLog P e → IsLog Q f → (G.compress P = G.compress Q ↔ e = f)
  decompress_compress {P : G.Point} {e : ZMod Scalar.order} :
    IsLog P e → ∃ Q, G.decompress? (G.compress P) = some Q
  compress_decompress {bytes : Octets 32} {P : G.Point} :
    G.decompress? bytes = some P → (∃ e, IsLog P e) ∧ G.compress P = bytes

namespace Lawful

variable {G : Curve} {IsLog : G.Point → ZMod Scalar.order → Prop}

theorem multiple (lawful : G.Lawful IsLog) (a : Scalar) :
    IsLog (G.mul a.value G.base) (a.value : ZMod Scalar.order) := by
  have log := lawful.mul a.value lawful.base
  rwa [mul_one] at log

/-- The encoding of a point is decoded to a point of the same discrete logarithm. -/
theorem decompress (lawful : G.Lawful IsLog) {P : G.Point} {e : ZMod Scalar.order}
    (log : IsLog P e) : ∃ Q, G.decompress? (G.compress P) = some Q ∧ IsLog Q e := by
  obtain ⟨Q, decoded⟩ := lawful.decompress_compress log
  obtain ⟨⟨f, logQ⟩, same⟩ := lawful.compress_decompress decoded
  have equal : f = e := (lawful.compress_eq_iff logQ log).1 same
  exact ⟨Q, decoded, equal ▸ logQ⟩

end Lawful

end Curve

/-! ### Scalars as discrete logarithms -/

namespace Scalar

instance : NeZero order := ⟨by decide⟩

variable (a b : Scalar)

theorem cast_add : ((a + b).value : ZMod order) = a.value + b.value := by
  rw [value_add, ZMod.natCast_mod, Nat.cast_add]

theorem cast_mul : ((a * b).value : ZMod order) = a.value * b.value := by
  rw [value_mul, ZMod.natCast_mod, Nat.cast_mul]

theorem cast_neg : ((-a).value : ZMod order) = -a.value := by
  rw [value_neg, ZMod.natCast_mod, Nat.cast_sub a.lt_order.le, ZMod.natCast_self, zero_sub]

/-- Different scalars are different discrete logarithms. -/
theorem cast_inj {a b : Scalar} : (a.value : ZMod order) = b.value ↔ a = b := by
  rw [ZMod.natCast_eq_natCast_iff, Nat.ModEq, Nat.mod_eq_of_lt a.lt_order,
    Nat.mod_eq_of_lt b.lt_order]
  exact ⟨ext_value, congrArg value⟩

/-- Every discrete logarithm is a scalar. -/
theorem exists_value_eq (e : ZMod order) : ∃ a : Scalar, (a.value : ZMod order) = e := by
  refine ⟨.ofNat e.val, ?_⟩
  change ((e.val % order : Nat) : ZMod order) = e
  rw [ZMod.natCast_mod, ZMod.natCast_zmod_val]

end Scalar

/-! ### Signing and verifying -/

namespace Schnorr

variable {G : Curve} {IsLog : G.Point → ZMod Scalar.order → Prop}

/-- The signature that answers the challenge of a message and a nonce. -/
def answer (G : Curve) (key : SigningKey) (message : Bytes) (nonce : Scalar) : Signature :=
  let h := challenge (G.encodedMultiple nonce) (verifyingKey G key) message
  (G.encodedMultiple nonce).append (nonce + h * key).toOctets

theorem signWith_eq_answer (G : Curve) (key : SigningKey) (message entropy : Bytes) :
    signWith G key message entropy =
      answer G key message (.ofWide (sha512 (nonceInput key message entropy))) :=
  rfl

/-- The verifier accepts the encoding of a nonce followed by a reduced scalar, if the scalar is the
nonce plus the challenge times the discrete logarithm of the verifying key. -/
theorem verify_eq_ok_iff_of_log (lawful : G.Lawful IsLog) {bytes : VerifyingKey} {A : G.Point}
    {a : ZMod Scalar.order} (decoded : G.decompress? bytes = some A) (log : IsLog A a)
    {message : Bytes} {signature : Signature} :
    verify G bytes message signature = .ok () ↔ ∃ nonce s : Scalar,
      (G.encodedMultiple nonce).append s.toOctets = signature ∧
        (s.value : ZMod Scalar.order) =
          nonce.value + (challenge (G.encodedMultiple nonce) bytes message).value * a := by
  -- what the verifier adds up, for any first half of a signature and any scalar
  have sum : ∀ (first : Octets 32) (s : Scalar),
      IsLog (G.add (G.mul s.value G.base) (G.mul (-challenge first bytes message).value A))
        (s.value - (challenge first bytes message).value * a) := by
    intro first s
    have log := lawful.add (lawful.multiple s)
      (lawful.mul (-challenge first bytes message).value log)
    rwa [Scalar.cast_neg, neg_mul, ← sub_eq_add_neg] at log
  simp only [verify, decoded]
  constructor
  · intro verified
    split at verified
    · cases verified
    · rename_i s canonical
      split at verified
      · rename_i same
        -- the nonce is not known, but on a lawful curve there is one for every first half
        obtain ⟨nonce, value⟩ := Scalar.exists_value_eq
          (s.value - (challenge (Octets.left (n := 32) 32 signature) bytes message).value * a)
        have first : G.encodedMultiple nonce = Octets.left (n := 32) 32 signature :=
          ((lawful.compress_eq_iff (sum _ s) (lawful.multiple nonce)).2 value.symm).symm.trans same
        refine ⟨nonce, s, ?_, ?_⟩
        · rw [first, Scalar.toOctets_of_ofCanonical? canonical]
          exact Octets.ext_toList (Octets.left_append_right (m := 32) (n := 32) signature)
        · rw [value, first, sub_add_cancel]
      · cases verified
  · rintro ⟨nonce, s, rfl, equation⟩
    simp only [Octets.left_append, Octets.right_append, Scalar.ofCanonical?_toOctets]
    refine if_pos ((lawful.compress_eq_iff (sum _ s) (lawful.multiple nonce)).2 ?_)
    rw [equation, add_sub_cancel_right]

/-- The verifier accepts an answer under some nonce, and nothing else. -/
theorem verify_eq_ok_iff (lawful : G.Lawful IsLog) {key : SigningKey} {message : Bytes}
    {signature : Signature} :
    verify G (verifyingKey G key) message signature = .ok () ↔
      ∃ nonce, answer G key message nonce = signature := by
  obtain ⟨A, decoded, log⟩ := lawful.decompress (lawful.multiple key)
  have decoded : G.decompress? (verifyingKey G key) = some A := decoded
  rw [verify_eq_ok_iff_of_log lawful decoded log]
  refine exists_congr fun nonce => ?_
  constructor
  · rintro ⟨s, rfl, equation⟩
    -- the equation is one of residues, and scalars are those below the order
    have same : nonce + challenge (G.encodedMultiple nonce) (verifyingKey G key) message * key =
      s := by
      apply Scalar.cast_inj.1
      rw [Scalar.cast_add, Scalar.cast_mul]
      exact equation.symm
    rw [← same]
    rfl
  · rintro rfl
    refine ⟨_, rfl, ?_⟩
    rw [Scalar.cast_add, Scalar.cast_mul]

/-- Whatever is signed, and whatever is mixed into the nonce, the signature verifies. -/
theorem verify_signWith (lawful : G.Lawful IsLog) (key : SigningKey) (message entropy : Bytes) :
    verify G (verifyingKey G key) message (signWith G key message entropy) = .ok () :=
  (verify_eq_ok_iff lawful).2 ⟨_, (signWith_eq_answer G key message entropy).symm⟩

end Schnorr

/-! ### Lawful curves -/

namespace Curve

/-- The curve where every point is its own discrete logarithm. Its encodings are those of scalars,
put in other places by a permutation. -/
def ofSpelling (spelling : Equiv.Perm (Octets 32)) : Curve where
  Point := Scalar
  base := .ofNat 1
  add := (· + ·)
  mul n a := .ofNat (n * a.value)
  compress a := spelling a.toOctets
  decompress? bytes := Scalar.ofCanonical? (spelling.symm bytes)

theorem lawful_ofSpelling (spelling : Equiv.Perm (Octets 32)) :
    (ofSpelling spelling).Lawful fun a e => (a.value : ZMod Scalar.order) = e where
  base := by
    change ((1 % Scalar.order : Nat) : ZMod Scalar.order) = 1
    rw [ZMod.natCast_mod, Nat.cast_one]
  add := by
    rintro a b _ _ rfl rfl
    exact Scalar.cast_add a b
  mul := by
    rintro a _ n rfl
    change ((n * a.value % Scalar.order : Nat) : ZMod Scalar.order) = n * a.value
    rw [ZMod.natCast_mod, Nat.cast_mul]
  compress_eq_iff := by
    rintro (a : Scalar) (b : Scalar) _ _ rfl rfl
    -- different scalars have different spellings, whatever the permutation
    refine Iff.trans ⟨fun same => ?_, congrArg _⟩ Scalar.cast_inj.symm
    exact Scalar.toOctets_inj.1 (spelling.injective same)
  decompress_compress := by
    rintro (a : Scalar) _ rfl
    refine ⟨a, ?_⟩
    change Scalar.ofCanonical? (spelling.symm (spelling a.toOctets)) = some a
    rw [Equiv.symm_apply_apply, Scalar.ofCanonical?_toOctets]
  compress_decompress := by
    intro bytes a decoded
    refine ⟨⟨_, rfl⟩, ?_⟩
    change spelling a.toOctets = bytes
    rw [Scalar.toOctets_of_ofCanonical? decoded, Equiv.apply_symm_apply]

theorem encodedMultiple_ofSpelling (spelling : Equiv.Perm (Octets 32)) (a : Scalar) :
    (ofSpelling spelling).encodedMultiple a = spelling a.toOctets := by
  have one : Scalar.ofNat (a.value * (Scalar.ofNat 1).value) = a := by
    apply Scalar.ext_value
    change a.value * 1 % Scalar.order = a.value
    rw [Nat.mul_one, Nat.mod_eq_of_lt a.lt_order]
  change spelling (Scalar.ofNat (a.value * (Scalar.ofNat 1).value)).toOctets = _
  rw [one]

/-- The lawful curve that encodes these multiples of the base point as Ristretto does, and no
others. -/
def lookalike (known : List Scalar) : Curve :=
  ofSpelling (known.map fun a => Equiv.swap a.toOctets (Ristretto.curve.encodedMultiple a)).prod

theorem lawful_lookalike (known : List Scalar) :
    (lookalike known).Lawful fun (a : Scalar) e => (a.value : ZMod Scalar.order) = e :=
  lawful_ofSpelling _

end Curve

/-! ### Curves that encode as Ristretto does -/

section

variable {α β : Type} [DecidableEq β] {source target : α → β} {known : List α}

theorem prod_swap_apply_of_not_mem {b : β}
    (other : b ∉ known.map source ++ known.map target) :
    (known.map fun a => Equiv.swap (source a) (target a)).prod b = b := by
  induction known with
  | nil => rfl
  | cons a rest ih =>
    simp only [List.map_cons, List.cons_append, List.mem_cons, List.mem_append, not_or] at other
    obtain ⟨ne_source, later_source, ne_target, later_target⟩ := other
    -- the swaps behind the first one do not touch the element either
    rw [List.map_cons, List.prod_cons, Equiv.Perm.mul_apply,
      ih fun mem => (List.mem_append.1 mem).elim later_source later_target]
    exact Equiv.swap_apply_of_ne_of_ne ne_source ne_target

/-- Swaps that do not meet can be made one after another. -/
theorem prod_swap_apply (distinct : (known.map source ++ known.map target).Nodup) {a : α}
    (mem : a ∈ known) :
    (known.map fun a => Equiv.swap (source a) (target a)).prod (source a) = target a := by
  induction known with
  | nil => cases mem
  | cons first rest ih =>
    obtain ⟨sources, targets, apart⟩ := List.nodup_append.1 distinct
    obtain ⟨new_source, -⟩ := List.nodup_cons.1 sources
    obtain ⟨new_target, -⟩ := List.nodup_cons.1 targets
    rw [List.map_cons, List.prod_cons, Equiv.Perm.mul_apply]
    rcases List.mem_cons.1 mem with rfl | later
    · -- nothing behind the first swap touches the spelling that it gives away
      have other : source a ∉ rest.map source ++ rest.map target := by
        intro known
        rcases List.mem_append.1 known with known | known
        · exact new_source known
        · exact apart _ List.mem_cons_self _ (List.mem_cons_of_mem _ known) rfl
      rw [prod_swap_apply_of_not_mem other, Equiv.swap_apply_left]
    · have mem_target : target a ∈ rest.map target := List.mem_map_of_mem later
      -- the element was sent on by a swap behind, and the first one is about others
      have ne_source : target a ≠ source first :=
        (apart _ List.mem_cons_self _ (List.mem_cons_of_mem _ mem_target)).symm
      have ne_target : target a ≠ target first := fun same => new_target (same ▸ mem_target)
      rw [ih (distinct.sublist ((List.sublist_cons_self _ _).append (List.sublist_cons_self _ _)))
        later]
      exact Equiv.swap_apply_of_ne_of_ne ne_source ne_target

end

theorem Curve.encodedMultiple_lookalike {known : List Scalar}
    (distinct : (known.map Scalar.toOctets ++ known.map Ristretto.curve.encodedMultiple).Nodup)
    {a : Scalar} (mem : a ∈ known) :
    (lookalike known).encodedMultiple a = Ristretto.curve.encodedMultiple a := by
  rw [lookalike, encodedMultiple_ofSpelling]
  exact prod_swap_apply distinct mem

namespace Ristretto

/-- `fpow` on exponents of so many bits. -/
def fpowBits : (bits a n : Nat) → Nat
  | 0, _, _ => 1
  | bits + 1, a, n =>
    if n = 0 then 1
    else
      let square := fpowBits bits (fmul a a) (n / 2)
      if n % 2 = 1 then fmul a square else square

/-- `mul` on factors of so many bits. -/
def mulBits : (bits n : Nat) → Point → Point
  | 0, _, _ => zero
  | bits + 1, n, P =>
    if n = 0 then zero
    else
      let half := mulBits bits (n / 2) P
      let double := add half half
      if n % 2 = 1 then add double P else double

theorem fpow_eq_fpowBits {bits : Nat} (a : Nat) {n : Nat} (small : n < 2 ^ bits) :
    fpow a n = fpowBits bits a n := by
  induction bits generalizing a n with
  | zero =>
    have none : n = 0 := by omega
    rw [fpow, if_pos none, fpowBits]
  | succ bits ih =>
    rw [fpow, fpowBits, ih (fmul a a) (by omega)]

theorem mul_eq_mulBits {bits n : Nat} (P : Point) (small : n < 2 ^ bits) :
    mul n P = mulBits bits n P := by
  induction bits generalizing n with
  | zero =>
    have none : n = 0 := by omega
    rw [mul, if_pos none, mulBits]
  | succ bits ih =>
    rw [mul, mulBits, ih (by omega)]

theorem fpow_eq : fpow = fun a n => fpowBits (n.log2 + 1) a n := by
  funext a n
  exact fpow_eq_fpowBits a Nat.lt_log2_self

theorem mul_eq : mul = fun n P => mulBits (n.log2 + 1) n P := by
  funext n P
  exact mul_eq_mulBits P Nat.lt_log2_self

/-- How a multiple of the base point is encoded, in terms of what the equations above are about. -/
theorem encodedMultiple_curve :
    curve.encodedMultiple = fun a => compress (mul a.value base) :=
  rfl

end Ristretto

end SealedGroups
