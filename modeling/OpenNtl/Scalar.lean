import Mathlib.Analysis.SpecialFunctions.Pow.Real

/-! # The `f32` operations of the node

Weights, scores and potentials are `f32` in the source. The model is generic over the
operations it performs on them. Nothing is assumed of these operations, so a result stated
for every `Scalar` also holds of rounded arithmetic; results about exact arithmetic are
stated over `ℝ`.
-/
namespace OpenNtl

class Scalar (F : Type) where
  instZero : Zero F
  instOne : One F
  instAdd : Add F
  instSub : Sub F
  instMul : Mul F
  instDiv : Div F
  instNeg : Neg F
  instLE : LE F
  instLT : LT F
  instMin : Min F
  instMax : Max F
  /-- The value of a literal, or of an integer cast. -/
  lit : ℚ → F
  exp : F → F
  exp2 : F → F
  isFinite : F → Bool
  decLE : DecidableLE F
  decLT : DecidableLT F

-- Low priority: `ℝ` and `ℚ` keep their own instances.
instance (priority := 10) {F : Type} [Scalar F] : Zero F := Scalar.instZero
instance (priority := 10) {F : Type} [Scalar F] : One F := Scalar.instOne
instance (priority := 10) {F : Type} [Scalar F] : Add F := Scalar.instAdd
instance (priority := 10) {F : Type} [Scalar F] : Sub F := Scalar.instSub
instance (priority := 10) {F : Type} [Scalar F] : Mul F := Scalar.instMul
instance (priority := 10) {F : Type} [Scalar F] : Div F := Scalar.instDiv
instance (priority := 10) {F : Type} [Scalar F] : Neg F := Scalar.instNeg
instance (priority := 10) {F : Type} [Scalar F] : LE F := Scalar.instLE
instance (priority := 10) {F : Type} [Scalar F] : LT F := Scalar.instLT
instance (priority := 10) {F : Type} [Scalar F] : Min F := Scalar.instMin
instance (priority := 10) {F : Type} [Scalar F] : Max F := Scalar.instMax
instance (priority := 10) Scalar.decidableLE {F : Type} [Scalar F] : DecidableLE F := Scalar.decLE
instance (priority := 10) Scalar.decidableLT {F : Type} [Scalar F] : DecidableLT F := Scalar.decLT

noncomputable instance : Scalar ℝ where
  instZero := inferInstance
  instOne := inferInstance
  instAdd := inferInstance
  instSub := inferInstance
  instMul := inferInstance
  instDiv := inferInstance
  instNeg := inferInstance
  instLE := inferInstance
  instLT := inferInstance
  instMin := inferInstance
  instMax := inferInstance
  lit q := q
  exp := Real.exp
  exp2 x := 2 ^ x
  isFinite _ := true
  decLE := inferInstance
  decLT := inferInstance

namespace Scalar

variable {F : Type} [Scalar F]

def epsilon : F := lit (1 / 8388608)

def abs (x : F) : F := max x (-x)

def clamp (x lo hi : F) : F := if x < lo then lo else if hi < x then hi else x

def partialCmp (a b : F) : Ordering := if a < b then .lt else if b < a then .gt else .eq

/-- `iter().sum()`: a left fold, since rounded addition does not associate. -/
def sum (xs : List F) : F := xs.foldl (· + ·) 0

end Scalar

/-- What results about order and sign rely on. Rounding keeps these laws, so they hold of `f32`
as long as no operation gives a NaN. Antisymmetry is not among them: `-0` and `0` differ. -/
class OrderedScalar (F : Type) [Scalar F] : Prop where
  le_refl (a : F) : a ≤ a
  le_trans {a b c : F} : a ≤ b → b ≤ c → a ≤ c
  le_total (a b : F) : a ≤ b ∨ b ≤ a
  lt_iff {a b : F} : a < b ↔ ¬ b ≤ a
  min_le_left (a b : F) : min a b ≤ a
  min_le_right (a b : F) : min a b ≤ b
  le_min {a b c : F} : c ≤ a → c ≤ b → c ≤ min a b
  add_nonneg {a b : F} : 0 ≤ a → 0 ≤ b → 0 ≤ a + b
  mul_nonneg {a b : F} : 0 ≤ a → 0 ≤ b → 0 ≤ a * b

/-- The values for which `P` holds are ordered. Nothing is asked of the others. -/
structure OrderedOn {F : Type} [Scalar F] (P : F → Prop) : Prop where
  le_trans {a b c : F} : P a → P b → P c → a ≤ b → b ≤ c → a ≤ c
  le_total {a b : F} : P a → P b → a ≤ b ∨ b ≤ a
  lt_iff {a b : F} : P a → P b → (a < b ↔ ¬ b ≤ a)

namespace OrderedOn

variable {F : Type} [Scalar F] {P : F → Prop} {a b : F}

theorem le_of_lt (order : OrderedOn P) (ha : P a) (hb : P b) (less : a < b) : a ≤ b :=
  (order.le_total ha hb).resolve_right ((order.lt_iff ha hb).mp less)

theorem not_lt (order : OrderedOn P) (ha : P a) (hb : P b) (notLess : ¬ a < b) : b ≤ a :=
  not_not.mp fun no => notLess ((order.lt_iff ha hb).mpr no)

theorem isLE_partialCmp (order : OrderedOn P) (ha : P a) (hb : P b) :
    (Scalar.partialCmp a b).isLE = true ↔ a ≤ b := by
  unfold Scalar.partialCmp
  split_ifs with less more
  · simpa using order.le_of_lt ha hb less
  · simpa using (order.lt_iff hb ha).mp more
  · simpa using order.not_lt hb ha more

theorem partialCmp_trans (order : OrderedOn P) :
    Std.TransCmp fun a b : Subtype P => Scalar.partialCmp a.1 b.1 where
  eq_swap {a b} := by
    unfold Scalar.partialCmp
    split_ifs with less more more
    · exact absurd (order.le_of_lt b.2 a.2 more) ((order.lt_iff a.2 b.2).mp less)
    · rfl
    · rfl
    · rfl
  isLE_trans {a b c} h h' := (order.isLE_partialCmp a.2 c.2).mpr
    (order.le_trans a.2 b.2 c.2 ((order.isLE_partialCmp a.2 b.2).mp h)
      ((order.isLE_partialCmp b.2 c.2).mp h'))

end OrderedOn

namespace OrderedScalar

variable {F : Type} [Scalar F] [OrderedScalar F] {a b c : F}

theorem ordered : OrderedOn fun _ : F => True where
  le_trans _ _ _ := le_trans
  le_total _ _ := le_total _ _
  lt_iff _ _ := lt_iff

theorem le_of_lt (h : a < b) : a ≤ b := (le_total a b).resolve_right (lt_iff.mp h)

theorem not_lt (h : ¬ a < b) : b ≤ a := not_not.mp fun no => h (lt_iff.mpr no)

theorem lt_irrefl (h : a < b) (h' : b ≤ a) : False := lt_iff.mp h h'

omit [OrderedScalar F] in
theorem partialCmp_eq_lt : Scalar.partialCmp a b = .lt ↔ a < b := by
  unfold Scalar.partialCmp
  split_ifs with less more
  · simpa using less
  · simpa using less
  · simpa using less

section Clamp

variable {x lo hi bound : F}

theorem le_clamp (order : lo ≤ hi) : lo ≤ Scalar.clamp x lo hi := by
  unfold Scalar.clamp
  split_ifs with low high
  · exact le_refl lo
  · exact order
  · exact not_lt low

theorem clamp_le (order : lo ≤ hi) : Scalar.clamp x lo hi ≤ hi := by
  unfold Scalar.clamp
  split_ifs with low high
  · exact order
  · exact le_refl hi
  · exact not_lt high

/-- Clamping goes no lower than what was below both the value and the upper bound. -/
theorem le_clamp_of_le (below : bound ≤ x) (under : bound ≤ hi) :
    bound ≤ Scalar.clamp x lo hi := by
  unfold Scalar.clamp
  split_ifs with low high
  · exact le_trans below (le_of_lt low)
  · exact under
  · exact below

/-- Clamping goes no higher than what was above both the value and the lower bound. -/
theorem clamp_le_of_le (above : x ≤ bound) (floor : lo ≤ bound) :
    Scalar.clamp x lo hi ≤ bound := by
  unfold Scalar.clamp
  split_ifs with low high
  · exact floor
  · exact le_trans (le_of_lt high) above
  · exact above

end Clamp

end OrderedScalar

/-- The finite values are ordered. This holds of `f32` whatever else its operations give. -/
class FiniteOrder (F : Type) [Scalar F] : Prop where
  ordered : OrderedOn fun a : F => Scalar.isFinite a = true

/-- What `f32` keeps with its infinities and its NaN. A NaN compares with nothing, not even with
itself; the other values are the numbers. -/
class FloatScalar (F : Type) [Scalar F] : Prop where
  numbers : OrderedOn fun a : F => a ≤ a
  number_left {a b : F} : a ≤ b → a ≤ a
  number_right {a b : F} : a ≤ b → b ≤ b
  number_of_finite {a : F} : Scalar.isFinite a = true → a ≤ a
  zero_le_zero : (0 : F) ≤ 0
  min_le_right (a : F) {b : F} : b ≤ b → min a b ≤ b
  le_min {a b c : F} : c ≤ a → c ≤ b → c ≤ min a b
  add_nonneg {a b : F} : 0 ≤ a → 0 ≤ b → 0 ≤ a + b
  mul_nonneg {a b : F} : Scalar.isFinite a = true → Scalar.isFinite b = true →
    0 ≤ a → 0 ≤ b → 0 ≤ a * b

instance FloatScalar.finiteOrder {F : Type} [Scalar F] [FloatScalar F] : FiniteOrder F where
  ordered := {
    le_trans := fun ha hb hc => numbers.le_trans (number_of_finite ha) (number_of_finite hb)
      (number_of_finite hc)
    le_total := fun ha hb => numbers.le_total (number_of_finite ha) (number_of_finite hb)
    lt_iff := fun ha hb => numbers.lt_iff (number_of_finite ha) (number_of_finite hb) }

instance OrderedScalar.floatScalar {F : Type} [Scalar F] [OrderedScalar F] : FloatScalar F where
  numbers := {
    le_trans := fun _ _ _ => le_trans
    le_total := fun _ _ => le_total _ _
    lt_iff := fun _ _ => lt_iff }
  number_left _ := le_refl _
  number_right _ := le_refl _
  number_of_finite _ := le_refl _
  zero_le_zero := le_refl 0
  min_le_right a b _ := OrderedScalar.min_le_right a b
  le_min := OrderedScalar.le_min
  add_nonneg := OrderedScalar.add_nonneg
  mul_nonneg _ _ := OrderedScalar.mul_nonneg

namespace FloatScalar

variable {F : Type} [Scalar F] [FloatScalar F] {a b c : F}

theorem le_trans (h : a ≤ b) (h' : b ≤ c) : a ≤ c :=
  numbers.le_trans (number_left h) (number_right h) (number_right h') h h'

theorem lt_of_not_le (ha : a ≤ a) (hb : b ≤ b) (h : ¬ b ≤ a) : a < b :=
  (numbers.lt_iff ha hb).mpr h

theorem not_lt_of_le (h : a ≤ b) : ¬ b < a := fun less =>
  (numbers.lt_iff (number_right h) (number_left h)).mp less h

end FloatScalar

/-- What results about load and counting rely on. Rounding is monotone and exact where the result
is itself a value, so `f32` keeps these laws with its infinities and its NaN. -/
class RoundedScalar (F : Type) [Scalar F] : Prop extends FloatScalar F where
  le_of_lt {a b : F} : a < b → a ≤ b
  zero_lt_one : (0 : F) < 1
  finite_zero : Scalar.isFinite (0 : F) = true
  finite_one : Scalar.isFinite (1 : F) = true
  zero_add_one : (0 : F) + 1 = 1
  one_add_zero : (1 : F) + 0 = 1
  mul_one (a : F) : a * 1 = a
  mul_one_add_one (a : F) : a * (1 + 1) = Scalar.lit 2 * a
  add_zero_le {a : F} : a ≤ a → a + 0 ≤ a
  le_add_one {a : F} : a ≤ a → a ≤ a + 1
  add_one_le_add_one {a b : F} : a ≤ b → a + 1 ≤ b + 1
  one_add_le_one_add {a b : F} : a ≤ b → 1 + a ≤ 1 + b
  mul_le_mul_left {a b c : F} : 0 < a → 1 ≤ b → b ≤ c → a * b ≤ a * c
  number_of_mul {a b c : F} : a * b ≤ c → a ≤ a ∧ b ≤ b
  min_le_left {a : F} (b : F) : a ≤ a → min a b ≤ a
  le_min_of_not_lt {a b c : F} : c ≤ a → ¬ b < c → c ≤ min a b
  ratio_number {m n : ℕ} : m ≤ n → 0 < n → n < 2 ^ 64 →
    (Scalar.lit m / Scalar.lit n : F) ≤ Scalar.lit m / Scalar.lit n
  ratio_self {n : ℕ} : 0 < n → n < 2 ^ 64 → (Scalar.lit n / Scalar.lit n : F) = 1

namespace RoundedScalar

variable {F : Type} [Scalar F] [RoundedScalar F] {x : F}

theorem zero_le_one : (0 : F) ≤ 1 := le_of_lt zero_lt_one

theorem one_le_one : (1 : F) ≤ 1 := FloatScalar.number_right zero_le_one

theorem clamp_unit (number : x ≤ x) : 0 ≤ Scalar.clamp x 0 1 ∧ Scalar.clamp x 0 1 ≤ 1 := by
  unfold Scalar.clamp
  split_ifs with low high
  · exact ⟨FloatScalar.zero_le_zero, zero_le_one⟩
  · exact ⟨zero_le_one, one_le_one⟩
  · exact ⟨FloatScalar.numbers.not_lt number FloatScalar.zero_le_zero low,
      FloatScalar.numbers.not_lt one_le_one number high⟩

theorem clamp_one : Scalar.clamp (1 : F) 0 1 = 1 := by
  unfold Scalar.clamp
  rw [if_neg (FloatScalar.not_lt_of_le zero_le_one), if_neg (FloatScalar.not_lt_of_le one_le_one)]

end RoundedScalar

/-- What results about the size of sums, products and quotients rely on. Rounding is monotone and
exact at zero and one, so it keeps these laws as well. -/
class SignedScalar (F : Type) [Scalar F] : Prop extends OrderedScalar F where
  le_max_left (a b : F) : a ≤ max a b
  le_max_right (a b : F) : b ≤ max a b
  max_le {a b c : F} : a ≤ c → b ≤ c → max a b ≤ c
  zero_le_one : (0 : F) ≤ 1
  lit_nonpos {q : ℚ} : q ≤ 0 → (Scalar.lit q : F) ≤ 0
  add_le_of_nonpos {a b : F} : b ≤ 0 → a + b ≤ a
  sub_nonneg {a b : F} : b ≤ a → 0 ≤ a - b
  sub_le {a b : F} : 0 ≤ b → a - b ≤ a
  mul_nonpos_right {a b : F} : 0 ≤ a → b ≤ 0 → a * b ≤ 0
  mul_nonpos_left {a b : F} : a ≤ 0 → 0 ≤ b → a * b ≤ 0
  mul_le_of_le_one {a b : F} : 0 ≤ a → b ≤ 1 → a * b ≤ a
  div_nonneg {a b : F} : 0 ≤ a → 0 < b → 0 ≤ a / b
  div_le_one {a b : F} : 0 < b → a ≤ b → a / b ≤ 1

/-- What results about scaled bounds rely on. Rounding is monotone, and exact where a sum or a
product is itself a value, so it keeps these laws as well. -/
class MonotoneScalar (F : Type) [Scalar F] : Prop extends SignedScalar F where
  add_le_add_left {a b : F} (c : F) : a ≤ b → c + a ≤ c + b
  mul_le_mul_left {a b c : F} : 0 ≤ c → a ≤ b → c * a ≤ c * b
  one_add_zero : (1 : F) + 0 = 1
  mul_one (a : F) : a * 1 = a
  mul_one_add_one (a : F) : a * (1 + 1) = Scalar.lit 2 * a

instance : OrderedScalar ℝ where
  le_refl := le_refl
  le_trans := le_trans
  le_total := le_total
  lt_iff := lt_iff_not_ge
  min_le_left := min_le_left
  min_le_right := min_le_right
  le_min := le_min
  add_nonneg := add_nonneg
  mul_nonneg := mul_nonneg

instance : SignedScalar ℝ where
  le_max_left := le_max_left
  le_max_right := le_max_right
  max_le := max_le
  zero_le_one := zero_le_one
  lit_nonpos := fun h => Rat.cast_nonpos.mpr h
  add_le_of_nonpos := add_le_of_nonpos_right
  sub_nonneg := sub_nonneg.mpr
  sub_le := fun h => sub_le_self _ h
  mul_nonpos_right := mul_nonpos_of_nonneg_of_nonpos
  mul_nonpos_left := mul_nonpos_of_nonpos_of_nonneg
  mul_le_of_le_one := mul_le_of_le_one_right
  div_nonneg := fun ha hb => div_nonneg ha hb.le
  div_le_one := fun hb h => (div_le_one hb).mpr h

instance : MonotoneScalar ℝ where
  add_le_add_left := fun c h => add_le_add_right h c
  mul_le_mul_left := fun hc h => mul_le_mul_of_nonneg_left h hc
  one_add_zero := add_zero 1
  mul_one := mul_one
  mul_one_add_one := by
    intro a
    show a * (1 + 1) = ((2 : ℚ) : ℝ) * a
    push_cast
    ring

instance : RoundedScalar ℝ where
  le_of_lt := le_of_lt
  zero_lt_one := zero_lt_one
  finite_zero := rfl
  finite_one := rfl
  zero_add_one := zero_add 1
  one_add_zero := add_zero 1
  mul_one := mul_one
  mul_one_add_one := MonotoneScalar.mul_one_add_one
  add_zero_le := fun _ => (add_zero _).le
  le_add_one := fun _ => le_add_of_nonneg_right zero_le_one
  add_one_le_add_one := fun h => add_le_add_left h 1
  one_add_le_one_add := fun h => add_le_add_right h 1
  mul_le_mul_left := fun positive _ h => mul_le_mul_of_nonneg_left h positive.le
  number_of_mul := fun _ => ⟨le_refl _, le_refl _⟩
  min_le_left := fun b _ => min_le_left _ b
  le_min_of_not_lt := fun h notLess => le_min h (not_lt.mp notLess)
  ratio_number := fun _ _ _ => le_refl _
  ratio_self := by
    intro n positive _
    show ((n : ℚ) : ℝ) / ((n : ℚ) : ℝ) = 1
    rw [Rat.cast_natCast, div_self (Nat.cast_ne_zero.mpr positive.ne')]

/-- Exact rational arithmetic, for evaluating runs. An irrational power has no value here, so
only runs that never reach `exp` or `exp2` mean anything. -/
instance : Scalar ℚ where
  instZero := inferInstance
  instOne := inferInstance
  instAdd := inferInstance
  instSub := inferInstance
  instMul := inferInstance
  instDiv := inferInstance
  instNeg := inferInstance
  instLE := inferInstance
  instLT := inferInstance
  instMin := inferInstance
  instMax := inferInstance
  lit q := q
  exp _ := 0
  exp2 _ := 0
  isFinite _ := true
  decLE := inferInstance
  decLT := inferInstance

instance : OrderedScalar ℚ where
  le_refl := fun _ => le_rfl
  le_trans := le_trans
  le_total := le_total
  lt_iff := lt_iff_not_ge
  min_le_left := min_le_left
  min_le_right := min_le_right
  le_min := le_min
  add_nonneg := add_nonneg
  mul_nonneg := mul_nonneg

instance : SignedScalar ℚ where
  le_max_left := le_max_left
  le_max_right := le_max_right
  max_le := max_le
  zero_le_one := zero_le_one
  lit_nonpos := fun h => h
  add_le_of_nonpos := add_le_of_nonpos_right
  sub_nonneg := sub_nonneg.mpr
  sub_le := fun h => sub_le_self _ h
  mul_nonpos_right := mul_nonpos_of_nonneg_of_nonpos
  mul_nonpos_left := mul_nonpos_of_nonpos_of_nonneg
  mul_le_of_le_one := mul_le_of_le_one_right
  div_nonneg := fun ha hb => div_nonneg ha hb.le
  div_le_one := fun hb h => (div_le_one hb).mpr h

instance : MonotoneScalar ℚ where
  add_le_add_left := fun c h => add_le_add_right h c
  mul_le_mul_left := fun hc h => mul_le_mul_of_nonneg_left h hc
  one_add_zero := add_zero 1
  mul_one := mul_one
  mul_one_add_one := by
    intro a
    show a * (1 + 1) = 2 * a
    ring

instance : RoundedScalar ℚ where
  le_of_lt := le_of_lt
  zero_lt_one := zero_lt_one
  finite_zero := rfl
  finite_one := rfl
  zero_add_one := zero_add 1
  one_add_zero := add_zero 1
  mul_one := mul_one
  mul_one_add_one := MonotoneScalar.mul_one_add_one
  add_zero_le := fun _ => (add_zero _).le
  le_add_one := fun _ => le_add_of_nonneg_right zero_le_one
  add_one_le_add_one := fun h => add_le_add_left h 1
  one_add_le_one_add := fun h => add_le_add_right h 1
  mul_le_mul_left := fun positive _ h => mul_le_mul_of_nonneg_left h positive.le
  number_of_mul := fun _ => ⟨le_refl _, le_refl _⟩
  min_le_left := fun b _ => min_le_left _ b
  le_min_of_not_lt := fun h notLess => le_min h (not_lt.mp notLess)
  ratio_number := fun _ _ _ => le_refl _
  ratio_self := by
    intro n positive _
    exact div_self (Nat.cast_ne_zero.mpr positive.ne')

/-- Exact arithmetic: each value stands for a real number and is added, multiplied and compared as
that number is. -/
class ExactScalar (F : Type) [Scalar F] where
  toReal : F → ℝ
  toReal_injective : Function.Injective toReal
  toReal_zero : toReal 0 = 0
  toReal_one : toReal 1 = 1
  toReal_lit (q : ℚ) : toReal (Scalar.lit q) = q
  toReal_add (a b : F) : toReal (a + b) = toReal a + toReal b
  toReal_sub (a b : F) : toReal (a - b) = toReal a - toReal b
  toReal_mul (a b : F) : toReal (a * b) = toReal a * toReal b
  toReal_neg (a : F) : toReal (-a) = -toReal a
  toReal_min (a b : F) : toReal (min a b) = min (toReal a) (toReal b)
  toReal_max (a b : F) : toReal (max a b) = max (toReal a) (toReal b)
  toReal_le {a b : F} : toReal a ≤ toReal b ↔ a ≤ b
  toReal_lt {a b : F} : toReal a < toReal b ↔ a < b

attribute [simp] ExactScalar.toReal_zero ExactScalar.toReal_one ExactScalar.toReal_lit
  ExactScalar.toReal_add ExactScalar.toReal_sub ExactScalar.toReal_mul ExactScalar.toReal_neg
  ExactScalar.toReal_min ExactScalar.toReal_max ExactScalar.toReal_le ExactScalar.toReal_lt

namespace ExactScalar

variable {F : Type} [Scalar F] [ExactScalar F]

@[simp] theorem toReal_abs (a : F) : toReal (Scalar.abs a) = |toReal a| := by
  unfold Scalar.abs
  rw [toReal_max, toReal_neg]
  rfl

theorem toReal_sum (xs : List F) : toReal (Scalar.sum xs) = (xs.map toReal).sum := by
  have fold : ∀ (xs : List F) (a : F),
      toReal (xs.foldl (· + ·) a) = toReal a + (xs.map toReal).sum := by
    intro xs
    induction xs with
    | nil =>
      intro a
      simp
    | cons x xs ih =>
      intro a
      rw [List.foldl_cons, ih, toReal_add, List.map_cons, List.sum_cons, add_assoc]
  unfold Scalar.sum
  rw [fold, toReal_zero, zero_add]

theorem toReal_clamp {lo hi : F} (order : lo ≤ hi) (x : F) :
    toReal (Scalar.clamp x lo hi) = max (toReal lo) (min (toReal hi) (toReal x)) := by
  have order' := toReal_le.mpr order
  unfold Scalar.clamp
  split_ifs with low high
  · have low' := toReal_lt.mpr low
    rw [min_eq_right (low'.le.trans order'), max_eq_left low'.le]
  · have high' := toReal_lt.mpr high
    rw [min_eq_left high'.le, max_eq_right order']
  · have low' := not_lt.mp fun h => low (toReal_lt.mp h)
    have high' := not_lt.mp fun h => high (toReal_lt.mp h)
    rw [min_eq_right high', max_eq_right low']

theorem zero_le_one_exact : (0 : F) ≤ 1 := by
  apply toReal_le.mp
  rw [toReal_zero, toReal_one]
  exact zero_le_one

theorem clamp_unit_nonneg (x : F) : 0 ≤ toReal (Scalar.clamp x 0 1) := by
  rw [toReal_clamp zero_le_one_exact, toReal_zero]
  exact le_max_left _ _

end ExactScalar

class ExactDivision (F : Type) [Scalar F] extends ExactScalar F where
  toReal_div (a b : F) : toReal (a / b) = toReal a / toReal b

attribute [simp] ExactDivision.toReal_div

instance : ExactScalar ℝ where
  toReal := id
  toReal_injective := Function.injective_id
  toReal_zero := rfl
  toReal_one := rfl
  toReal_lit := fun _ => rfl
  toReal_add := fun _ _ => rfl
  toReal_sub := fun _ _ => rfl
  toReal_mul := fun _ _ => rfl
  toReal_neg := fun _ => rfl
  toReal_min := fun _ _ => rfl
  toReal_max := fun _ _ => rfl
  toReal_le := Iff.rfl
  toReal_lt := Iff.rfl

instance : ExactScalar ℚ where
  toReal := Rat.cast
  toReal_injective := Rat.cast_injective
  toReal_zero := Rat.cast_zero
  toReal_one := Rat.cast_one
  toReal_lit := fun _ => rfl
  toReal_add := Rat.cast_add
  toReal_sub := Rat.cast_sub
  toReal_mul := Rat.cast_mul
  toReal_neg := Rat.cast_neg
  toReal_min := Rat.cast_min
  toReal_max := Rat.cast_max
  toReal_le := Rat.cast_le
  toReal_lt := Rat.cast_lt

instance : ExactDivision ℝ where
  toReal_div := fun _ _ => rfl

instance : ExactDivision ℚ where
  toReal_div := Rat.cast_div

/-- The rationals with a NaN, for evaluating runs that meet one. A quotient by zero is a NaN here,
since there are no infinities. -/
inductive NanRational where
  | nan
  | num (value : ℚ)
  deriving DecidableEq, Repr

namespace NanRational

def lift (f : ℚ → ℚ → NanRational) : NanRational → NanRational → NanRational
  | num a, num b => f a b
  | _, _ => nan

def either (f : ℚ → ℚ → ℚ) : NanRational → NanRational → NanRational
  | num a, num b => num (f a b)
  | nan, b => b
  | a, nan => a

def Compares (r : ℚ → ℚ → Prop) : NanRational → NanRational → Prop
  | num a, num b => r a b
  | _, _ => False

instance {r : ℚ → ℚ → Prop} [DecidableRel r] : DecidableRel (Compares r)
  | num a, num b => inferInstanceAs (Decidable (r a b))
  | nan, _ => isFalse id
  | num _, nan => isFalse id

instance : Scalar NanRational where
  instZero := ⟨num 0⟩
  instOne := ⟨num 1⟩
  instAdd := ⟨lift fun a b => num (a + b)⟩
  instSub := ⟨lift fun a b => num (a - b)⟩
  instMul := ⟨lift fun a b => num (a * b)⟩
  instDiv := ⟨lift fun a b => if b = 0 then nan else num (a / b)⟩
  instNeg := ⟨fun a => lift (fun zero a => num (zero - a)) (num 0) a⟩
  instLE := ⟨Compares (· ≤ ·)⟩
  instLT := ⟨Compares (· < ·)⟩
  instMin := ⟨either min⟩
  instMax := ⟨either max⟩
  lit := num
  exp _ := nan
  exp2 _ := nan
  isFinite a := decide (a ≠ nan)
  decLE := inferInstanceAs (DecidableRel (Compares (· ≤ ·)))
  decLT := inferInstanceAs (DecidableRel (Compares (· < ·)))

theorem le_iff {a b : NanRational} : a ≤ b ↔ ∃ x y : ℚ, a = num x ∧ b = num y ∧ x ≤ y := by
  constructor
  · intro le
    cases a with
    | nan => exact False.elim le
    | num x =>
      cases b with
      | nan => exact False.elim le
      | num y => exact ⟨x, y, rfl, rfl, le⟩
  · rintro ⟨x, y, rfl, rfl, le⟩
    exact le

@[simp] theorem num_le_num {a b : ℚ} : num a ≤ num b ↔ a ≤ b := Iff.rfl

@[simp] theorem num_lt_num {a b : ℚ} : num a < num b ↔ a < b := Iff.rfl

theorem num_le_iff {x : ℚ} {b : NanRational} : num x ≤ b ↔ ∃ y, b = num y ∧ x ≤ y := by
  rw [le_iff]
  constructor
  · rintro ⟨x', y, same, rfl, le⟩
    cases same
    exact ⟨y, rfl, le⟩
  · rintro ⟨y, rfl, le⟩
    exact ⟨x, y, rfl, rfl, le⟩

theorem number_iff {a : NanRational} : a ≤ a ↔ ∃ x, a = num x := by
  rw [le_iff]
  constructor
  · rintro ⟨x, -, same, -⟩
    exact ⟨x, same⟩
  · rintro ⟨x, rfl⟩
    exact ⟨x, x, rfl, rfl, le_rfl⟩

instance : FloatScalar NanRational where
  numbers := {
    le_trans := by
      intro a b c ha hb hc h h'
      obtain ⟨x, rfl⟩ := number_iff.mp ha
      obtain ⟨y, rfl⟩ := number_iff.mp hb
      obtain ⟨z, rfl⟩ := number_iff.mp hc
      exact le_trans (num_le_num.mp h) (num_le_num.mp h')
    le_total := by
      intro a b ha hb
      obtain ⟨x, rfl⟩ := number_iff.mp ha
      obtain ⟨y, rfl⟩ := number_iff.mp hb
      exact le_total x y
    lt_iff := by
      intro a b ha hb
      obtain ⟨x, rfl⟩ := number_iff.mp ha
      obtain ⟨y, rfl⟩ := number_iff.mp hb
      rw [num_lt_num, num_le_num, not_le] }
  number_left := by
    intro a b h
    obtain ⟨x, y, rfl, rfl, -⟩ := le_iff.mp h
    exact num_le_num.mpr le_rfl
  number_right := by
    intro a b h
    obtain ⟨x, y, rfl, rfl, -⟩ := le_iff.mp h
    exact num_le_num.mpr le_rfl
  number_of_finite := by
    intro a finite
    cases a with
    | nan => cases finite
    | num x => exact num_le_num.mpr le_rfl
  zero_le_zero := num_le_num.mpr le_rfl
  min_le_right := by
    intro a b number
    obtain ⟨y, rfl⟩ := number_iff.mp number
    cases a with
    | nan => exact number
    | num x => exact num_le_num.mpr (min_le_right x y)
  le_min := by
    intro a b c h h'
    obtain ⟨z, x, rfl, rfl, first⟩ := le_iff.mp h
    obtain ⟨y, rfl, second⟩ := num_le_iff.mp h'
    exact num_le_num.mpr (le_min first second)
  add_nonneg := by
    intro a b h h'
    obtain ⟨x, rfl, first⟩ := num_le_iff.mp h
    obtain ⟨y, rfl, second⟩ := num_le_iff.mp h'
    exact num_le_num.mpr (add_nonneg first second)
  mul_nonneg := by
    intro a b _ _ h h'
    obtain ⟨x, rfl, first⟩ := num_le_iff.mp h
    obtain ⟨y, rfl, second⟩ := num_le_iff.mp h'
    exact num_le_num.mpr (mul_nonneg first second)

instance : RoundedScalar NanRational where
  le_of_lt := by
    intro a b less
    cases a with
    | nan => exact False.elim less
    | num x =>
      cases b with
      | nan => exact False.elim less
      | num y => exact num_le_num.mpr (num_lt_num.mp less).le
  zero_lt_one := num_lt_num.mpr zero_lt_one
  finite_zero := rfl
  finite_one := rfl
  zero_add_one := congrArg num (zero_add 1)
  one_add_zero := congrArg num (add_zero 1)
  mul_one := by
    intro a
    cases a with
    | nan => rfl
    | num x => exact congrArg num (mul_one x)
  mul_one_add_one := by
    intro a
    cases a with
    | nan => rfl
    | num x => exact congrArg num (MonotoneScalar.mul_one_add_one x)
  add_zero_le := by
    intro a number
    obtain ⟨x, rfl⟩ := number_iff.mp number
    exact num_le_num.mpr (add_zero x).le
  le_add_one := by
    intro a number
    obtain ⟨x, rfl⟩ := number_iff.mp number
    exact num_le_num.mpr (le_add_of_nonneg_right zero_le_one)
  add_one_le_add_one := by
    intro a b h
    obtain ⟨x, y, rfl, rfl, le⟩ := le_iff.mp h
    exact num_le_num.mpr (add_le_add_left le 1)
  one_add_le_one_add := by
    intro a b h
    obtain ⟨x, y, rfl, rfl, le⟩ := le_iff.mp h
    exact num_le_num.mpr (add_le_add_right le 1)
  mul_le_mul_left := by
    intro a b c positive _ h
    obtain ⟨y, z, rfl, rfl, le⟩ := le_iff.mp h
    cases a with
    | nan => exact False.elim positive
    | num x => exact num_le_num.mpr (mul_le_mul_of_nonneg_left le (num_lt_num.mp positive).le)
  number_of_mul := by
    intro a b c h
    obtain ⟨z, y, same, -⟩ := le_iff.mp h
    cases a with
    | nan => cases same
    | num x =>
      cases b with
      | nan => cases same
      | num y => exact ⟨num_le_num.mpr le_rfl, num_le_num.mpr le_rfl⟩
  min_le_left := by
    intro a b number
    obtain ⟨x, rfl⟩ := number_iff.mp number
    cases b with
    | nan => exact number
    | num y => exact num_le_num.mpr (min_le_left x y)
  le_min_of_not_lt := by
    intro a b c h notLess
    obtain ⟨z, x, rfl, rfl, le⟩ := le_iff.mp h
    cases b with
    | nan => exact h
    | num y => exact num_le_num.mpr (le_min le (not_lt.mp notLess))
  ratio_number := by
    intro m n _ positive _
    have some : (n : ℚ) ≠ 0 := Nat.cast_ne_zero.mpr positive.ne'
    apply number_iff.mpr
    exact ⟨m / n, if_neg some⟩
  ratio_self := by
    intro n positive _
    have some : (n : ℚ) ≠ 0 := Nat.cast_ne_zero.mpr positive.ne'
    have quotient : (Scalar.lit n / Scalar.lit n : NanRational) = num (n / n) := if_neg some
    rw [quotient, div_self some]
    rfl

end NanRational

end OpenNtl
