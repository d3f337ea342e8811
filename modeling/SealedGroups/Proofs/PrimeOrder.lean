import SealedGroups.Curve.Scalar
import Mathlib.Data.List.Prime
import Mathlib.NumberTheory.LucasPrimality
import Mathlib.Tactic.NormNum.Prime

/-!
# The group has prime order

Scalars other than zero can be divided by, as the order of the group is prime
(`Scalar.prime_order`). That is proved by Lucas's test: `p` is prime if the powers of some number
run through all of its remainders but zero, for which only the exponents `(p - 1) / q` have to be
looked at, `q` being a prime factor of `p - 1`. These factors are tested in the same way, down to
primes that are small. Powers are computed by squaring, so that the kernel can evaluate the tests.
-/

namespace SealedGroups

namespace Lucas

/-- A power modulo `m`, for an exponent of so many bits. -/
def powMod (m : Nat) : (bits a n : Nat) → Nat
  | 0, _, _ => 1
  | bits + 1, a, n =>
    let square := powMod m bits (a * a % m) (n / 2)
    if n % 2 = 1 then a * square % m else square

theorem cast_powMod {m bits : Nat} (a : Nat) {n : Nat} (small : n < 2 ^ bits) :
    (powMod m bits a n : ZMod m) = a ^ n := by
  induction bits generalizing a n with
  | zero =>
    have none : n = 0 := by omega
    rw [none, powMod, pow_zero, Nat.cast_one]
  | succ bits ih =>
    -- half the exponent is left, with one bit less, for the square
    have square : (powMod m bits (a * a % m) (n / 2) : ZMod m) = a ^ (2 * (n / 2)) := by
      rw [ih _ (by omega), ZMod.natCast_mod, Nat.cast_mul, pow_mul, sq]
    simp only [powMod]
    split
    · rw [ZMod.natCast_mod, Nat.cast_mul, square, ← pow_succ']
      exact congrArg _ (by omega)
    · rw [square]
      exact congrArg _ (by omega)

/-- A number to be tested: it, a number whose powers are looked at, and the prime factors of its
predecessor. -/
structure Test where
  p : Nat
  a : Nat
  factors : List Nat

/-- Whether a number of at most 256 bits passes the test, given some primes. -/
def Test.passes (known : List Nat) (test : Test) : Bool :=
  test.p ≤ 2 ^ 256 ∧ test.factors.prod = test.p - 1 ∧ (∀ q ∈ test.factors, q ∈ known)
    ∧ powMod test.p 256 test.a (test.p - 1) ≡ 1 [MOD test.p]
    ∧ ∀ q ∈ test.factors, ¬ powMod test.p 256 test.a ((test.p - 1) / q) ≡ 1 [MOD test.p]

/-- Whether all of them pass, each of them given those before it. -/
def allPass : (known : List Nat) → List Test → Bool
  | _, [] => true
  | known, test :: rest => test.passes known && allPass (test.p :: known) rest

theorem Test.prime {known : List Nat} {test : Test} (primes : ∀ q ∈ known, q.Prime)
    (passes : test.passes known = true) : test.p.Prime := by
  obtain ⟨bounded, product, factors, one, others⟩ := of_decide_eq_true passes
  -- the powers that the test computes are the powers in the residues
  have power : ∀ n ≤ test.p - 1, ((test.a : ZMod test.p) ^ n = 1 ↔
      powMod test.p 256 test.a n ≡ 1 [MOD test.p]) := by
    intro n le
    rw [← ZMod.natCast_eq_natCast_iff, cast_powMod _ (by omega), Nat.cast_one]
  refine lucas_primality _ test.a ((power _ le_rfl).2 one) ?_
  intro q prime divides
  rw [← product] at divides
  -- a prime that divides the product is one of the factors that were listed
  obtain ⟨factor, mem, divides⟩ := (Prime.dvd_prod_iff prime.prime).1 divides
  obtain rfl := (Nat.prime_dvd_prime_iff_eq prime (primes _ (factors _ mem))).1 divides
  exact fun same => others q mem ((power _ (Nat.div_le_self _ _)).1 same)

theorem primes_of_allPass {known : List Nat} {tests : List Test}
    (primes : ∀ q ∈ known, q.Prime) (pass : allPass known tests = true) :
    ∀ test ∈ tests, test.p.Prime := by
  induction tests generalizing known with
  | nil => exact List.forall_mem_nil _
  | cons test rest ih =>
    obtain ⟨passes, later⟩ := Bool.and_eq_true_iff.1 pass
    have prime := test.prime primes passes
    exact List.forall_mem_cons.2 ⟨prime, ih (List.forall_mem_cons.2 ⟨prime, primes⟩) later⟩

/-- Primes that are small enough to be tried. -/
def small : List Nat :=
  [2, 3, 5, 7, 11, 23, 41, 43, 73, 269, 307, 1361, 2851, 5879, 34123, 30703, 82163, 132667,
    137849, 531581, 1224481]

theorem prime_of_mem_small : ∀ q ∈ small, q.Prime := by
  unfold small
  norm_num

/-- The order of the group, behind the primes that it is tested with. -/
def tests : List Test := [
  ⟨409477, 2, [2, 2, 3, 34123]⟩,
  ⟨14741173, 2, [2, 2, 3, 3, 409477]⟩,
  ⟨58964693, 2, [2, 2, 14741173]⟩,
  ⟨292386187, 2, [2, 3, 3, 3, 3, 307, 5879]⟩,
  ⟨213441916511, 13, [2, 5, 73, 292386187]⟩,
  ⟨1257559732178653, 2, [2, 2, 3, 7, 23, 531581, 1224481]⟩,
  ⟨4434155615661930479, 17, [2, 41, 43, 1257559732178653]⟩,
  ⟨172054593956031949258510691, 2, [2, 5, 1361, 2851, 4434155615661930479]⟩,
  ⟨19757330305831588566944191468367130476339, 2,
    [2, 269, 213441916511, 172054593956031949258510691]⟩,
  ⟨276602624281642239937218680557139826668747, 2,
    [2, 7, 19757330305831588566944191468367130476339]⟩,
  ⟨3044861653679985063343, 5, [2, 3, 11, 30703, 82163, 132667, 137849]⟩,
  ⟨198211423230930754013084525763697, 5,
    [2, 2, 2, 2, 3, 23, 58964693, 3044861653679985063343]⟩,
  ⟨Scalar.order, 2, [2, 2, 3, 11, 198211423230930754013084525763697,
    276602624281642239937218680557139826668747]⟩]

theorem allPass_tests : allPass small tests = true := by
  decide +kernel

end Lucas

theorem Scalar.prime_order : order.Prime :=
  Lucas.primes_of_allPass Lucas.prime_of_mem_small Lucas.allPass_tests
    (Lucas.tests.getLast (List.cons_ne_nil _ _)) (List.getLast_mem _)

end SealedGroups
