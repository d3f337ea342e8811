import SealedGroups.Curve.Basic

/-!
# Ristretto

The prime-order group made from the twisted Edwards curve `-x² + y² = 1 + d x² y²` over the field of
`2^255 - 19` elements. Field elements are reduced natural numbers, points are in extended
coordinates, and one addition formula serves all pairs of points, equal ones included. Encoding
picks one spelling for the four or eight points that stand for the same group element; decoding
accepts that spelling only.
-/

namespace SealedGroups.Ristretto

/-! ### The field -/

/-- The number of field elements. -/
def p : Nat := (1 <<< 255) - 19

def fadd (a b : Nat) : Nat := (a + b) % p

def fsub (a b : Nat) : Nat := (a + (p - b)) % p

def fmul (a b : Nat) : Nat := a * b % p

def fneg (a : Nat) : Nat := (p - a) % p

/-- Powers by repeated squaring. -/
def fpow (a : Nat) (n : Nat) : Nat :=
  if n = 0 then 1
  else
    let square := fpow (fmul a a) (n / 2)
    if n % 2 = 1 then fmul a square else square
termination_by n
decreasing_by omega

/-- A field element counts as negative when it is odd. -/
def isNegative (a : Nat) : Bool := a % 2 = 1

/-- Whichever of an element and its negative is not negative. -/
def fabs (a : Nat) : Nat := if isNegative a then fneg a else a

/-- The curve's constant. -/
def d : Nat :=
  37095705934669439343138083508754565189542113879843219016388785533085940283555

/-- A square root of -1. -/
def sqrtM1 : Nat :=
  19681161376707505956807079304988542015446066515923890162744021073123829784752

/-- The inverse of a square root of `-1 - d`. -/
def invSqrtAMinusD : Nat :=
  54469307008909316920995813868745141605393597292927456921205312896311721017578

/-- The non-negative square root of `1 / v` and `true` if there is one; otherwise that of
`sqrtM1 / v` and `false`. -/
def invSqrt (v : Nat) : Bool × Nat :=
  let v3 := fmul (fmul v v) v
  let v7 := fmul (fmul v3 v3) v
  let r := fmul v3 (fpow v7 ((p - 5) / 8))
  let check := fmul v (fmul r r)
  let flipped := check = fneg 1
  let flippedI := check = fneg sqrtM1
  let r := if flipped ∨ flippedI then fmul sqrtM1 r else r
  (check = 1 ∨ flipped, fabs r)

/-! ### Points -/

/-- A point in extended coordinates: `x = X / Z`, `y = Y / Z`, `x y = T / Z`. -/
structure Point where
  x : Nat
  y : Nat
  z : Nat
  t : Nat
deriving DecidableEq

def zero : Point := ⟨0, 1, 1, 0⟩

def base : Point where
  x := 15112221349535400772501151409588531511454012693041857206046113283949847762202
  y := 46316835694926478169428394003475163141307993866256225615783033603165251855960
  z := 1
  t := fmul 15112221349535400772501151409588531511454012693041857206046113283949847762202
    46316835694926478169428394003475163141307993866256225615783033603165251855960

def add (P Q : Point) : Point :=
  let a := fmul (fsub P.y P.x) (fsub Q.y Q.x)
  let b := fmul (fadd P.y P.x) (fadd Q.y Q.x)
  let c := fmul (fmul (fmul P.t 2) d) Q.t
  let e := fmul (fmul P.z 2) Q.z
  let f := fsub b a
  let g := fsub e c
  let h := fadd e c
  let i := fadd b a
  ⟨fmul f g, fmul h i, fmul g h, fmul f i⟩

/-- Multiples by doubling and adding. -/
def mul (n : Nat) (P : Point) : Point :=
  if n = 0 then zero
  else
    let half := mul (n / 2) P
    let double := add half half
    if n % 2 = 1 then add double P else double
termination_by n
decreasing_by omega

/-! ### Encoding -/

/-- The one spelling of the group element a point stands for. -/
def compress (P : Point) : Octets 32 :=
  let u1 := fmul (fadd P.z P.y) (fsub P.z P.y)
  let u2 := fmul P.x P.y
  let root := (invSqrt (fmul u1 (fmul u2 u2))).2
  let den1 := fmul root u1
  let den2 := fmul root u2
  let zInv := fmul (fmul den1 den2) P.t
  let rotate := isNegative (fmul P.t zInv)
  let x := if rotate then fmul P.y sqrtM1 else P.x
  let y := if rotate then fmul P.x sqrtM1 else P.y
  let den := if rotate then fmul den1 invSqrtAMinusD else den2
  let y := if isNegative (fmul x zInv) then fneg y else y
  .ofNatLE 32 (fabs (fmul den (fsub P.z y)))

/-- A point for the group element that 32 bytes spell, if they are a spelling. -/
def decompress? (bytes : Octets 32) : Option Point :=
  let s := bytes.toNatLE
  if s < p ∧ ¬ isNegative s then
    let ss := fmul s s
    let u1 := fsub 1 ss
    let u2 := fadd 1 ss
    let u2u2 := fmul u2 u2
    let v := fsub (fneg (fmul d (fmul u1 u1))) u2u2
    let (isSquare, root) := invSqrt (fmul v u2u2)
    let denX := fmul root u2
    let denY := fmul (fmul root denX) v
    let x := fabs (fmul (fmul 2 s) denX)
    let y := fmul u1 denY
    let t := fmul x y
    if isSquare ∧ ¬ isNegative t ∧ y ≠ 0 then some ⟨x, y, 1, t⟩ else none
  else none

/-- The group used in practice. -/
def curve : Curve where
  Point := Point
  base := base
  add := add
  mul := mul
  compress := compress
  decompress? := decompress?

end SealedGroups.Ristretto
