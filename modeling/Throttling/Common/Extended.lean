import Mathlib.Algebra.Order.Field.Basic
import Mathlib.Tactic.Linarith
/-!
# Exact numbers with infinities and a NaN

The values of a floating-point format with its rounding left out: the
elements of an ordered field, two infinities, and one NaN. The operations
and comparisons are IEEE 754's; there is one zero, taken as positive where
its sign would matter. On finite values they are the field's own, which
is the `simp` set of this file; of the rest it states what a computation
with an infinity runs into.
-/

/-- **A number of the field, an infinity, or no number.** -/
inductive Extended (K : Type*) where
  | finite (q : K)
  | posInf
  | negInf
  | nan
deriving DecidableEq, Repr

namespace Extended

variable {K : Type*}

/-! ## Operations -/

section Operations

variable [Field K] [LinearOrder K]

/-- An infinity of the sign of a number, which zero has none of. -/
def infinity (q : K) : Extended K := if 0 < q then posInf else if q < 0 then negInf else nan

def neg : Extended K → Extended K
  | finite q => finite (-q)
  | posInf => negInf
  | negInf => posInf
  | nan => nan

/-- Infinities of different signs have no sum. -/
def add : Extended K → Extended K → Extended K
  | nan, _ | _, nan => nan
  | finite p, finite q => finite (p + q)
  | posInf, negInf | negInf, posInf => nan
  | posInf, _ | _, posInf => posInf
  | negInf, _ | _, negInf => negInf

/-- Nor have zero and an infinity a product. -/
def mul : Extended K → Extended K → Extended K
  | nan, _ | _, nan => nan
  | finite p, finite q => finite (p * q)
  | posInf, finite q | finite q, posInf => infinity q
  | negInf, finite q | finite q, negInf => infinity (-q)
  | posInf, posInf | negInf, negInf => posInf
  | posInf, negInf | negInf, posInf => negInf

/-- Nor zero and zero, or two infinities, a quotient. -/
def div : Extended K → Extended K → Extended K
  | nan, _ | _, nan => nan
  | finite p, finite q => if q = 0 then infinity p else finite (p / q)
  | finite _, posInf | finite _, negInf => finite 0
  | posInf, finite q => if q = 0 then posInf else infinity q
  | negInf, finite q => if q = 0 then negInf else infinity (-q)
  | posInf, posInf | posInf, negInf | negInf, posInf | negInf, negInf => nan

instance : Zero (Extended K) := ⟨finite 0⟩
instance : IntCast (Extended K) := ⟨fun n => finite n⟩
instance : NatCast (Extended K) := ⟨fun n => finite n⟩
instance : Add (Extended K) := ⟨add⟩
instance : Sub (Extended K) := ⟨fun a b => add a (neg b)⟩
instance : Mul (Extended K) := ⟨mul⟩
instance : Div (Extended K) := ⟨div⟩

/-! ## Comparisons -/

/-- Nothing is below, or above, a NaN. -/
def lt : Extended K → Extended K → Prop
  | finite p, finite q => p < q
  | finite _, posInf | negInf, finite _ | negInf, posInf => True
  | _, _ => False

/-- And a NaN is not even equal to itself. -/
def le : Extended K → Extended K → Prop
  | finite p, finite q => p ≤ q
  | finite _, posInf | negInf, finite _ | negInf, posInf => True
  | posInf, posInf | negInf, negInf => True
  | _, _ => False

instance : LT (Extended K) := ⟨lt⟩
instance : LE (Extended K) := ⟨le⟩

instance : DecidableLT (Extended K) := fun a b =>
  match a, b with
  | finite p, finite q => inferInstanceAs (Decidable (p < q))
  | finite _, posInf | negInf, finite _ | negInf, posInf => isTrue trivial
  | finite _, negInf | finite _, nan | posInf, _ | negInf, negInf | negInf, nan | nan, _ =>
    isFalse id

instance : DecidableLE (Extended K) := fun a b =>
  match a, b with
  | finite p, finite q => inferInstanceAs (Decidable (p ≤ q))
  | finite _, posInf | negInf, finite _ | negInf, posInf => isTrue trivial
  | posInf, posInf | negInf, negInf => isTrue trivial
  | finite _, negInf | finite _, nan | posInf, finite _ | posInf, negInf | posInf, nan
  | negInf, nan | nan, _ => isFalse id

end Operations

/-! ## Sums and differences -/

section Field

variable [Field K] {p q : K}

theorem natCast_def (n : ℕ) : (n : Extended K) = finite (n : K) := rfl

@[simp] theorem finite_add_finite : (finite p + finite q : Extended K) = finite (p + q) := rfl

@[simp] theorem finite_sub_finite : (finite p - finite q : Extended K) = finite (p - q) := by
  rw [sub_eq_add_neg]
  rfl

@[simp] theorem posInf_add_posInf : (posInf + posInf : Extended K) = posInf := rfl

@[simp] theorem add_nan (a : Extended K) : a + nan = nan := by
  cases a <;> rfl

end Field

/-! ## Order -/

section Order

variable [LinearOrder K] {p q : K}

@[simp] theorem finite_lt_finite : (finite p : Extended K) < finite q ↔ p < q := Iff.rfl

@[simp] theorem finite_le_finite : (finite p : Extended K) ≤ finite q ↔ p ≤ q := Iff.rfl

@[simp] theorem finite_lt_posInf : (finite p : Extended K) < posInf := trivial

@[simp] theorem finite_le_posInf : (finite p : Extended K) ≤ posInf := trivial

@[simp] theorem posInf_le_posInf : (posInf : Extended K) ≤ posInf := trivial

@[simp] theorem not_posInf_lt (a : Extended K) : ¬ posInf < a := by
  cases a <;> exact id

@[simp] theorem not_lt_nan (a : Extended K) : ¬ a < nan := by
  cases a <;> exact id

@[simp] theorem not_le_nan (a : Extended K) : ¬ a ≤ nan := by
  cases a <;> exact id

end Order

/-! ## Products and quotients -/

section Signs

variable [Field K] [LinearOrder K] {p q : K}

@[simp] theorem finite_mul_finite : (finite p * finite q : Extended K) = finite (p * q) := rfl

theorem finite_div_finite (hq : q ≠ 0) : (finite p / finite q : Extended K) = finite (p / q) :=
  if_neg hq

theorem finite_mul_posInf (hp : 0 < p) : (finite p * posInf : Extended K) = posInf := if_pos hp

/-- **Zero times an infinity is no number.** -/
theorem zero_mul_posInf : (finite 0 * posInf : Extended K) = nan := by
  have hpos : ¬ (0 : K) < 0 := lt_irrefl _
  change infinity (0 : K) = nan
  rw [infinity, if_neg hpos, if_neg hpos]

theorem posInf_div_finite (hq : 0 < q) : (posInf / finite q : Extended K) = posInf := by
  change (if q = 0 then posInf else infinity q) = posInf
  rw [if_neg hq.ne']
  exact if_pos hq

@[simp] theorem nan_div (a : Extended K) : nan / a = nan := by
  cases a <;> rfl

/-- **What is not below zero**: a number that is not, an infinity, or no
number at all. -/
theorem eq_of_not_lt_zero {a : Extended K} (h : ¬ a < 0) :
    (∃ q, 0 ≤ q ∧ a = finite q) ∨ a = posInf ∨ a = nan := by
  cases a with
  | finite q => exact .inl ⟨q, not_lt.mp h, rfl⟩
  | posInf => exact .inr (.inl rfl)
  | negInf => exact absurd trivial h
  | nan => exact .inr (.inr rfl)

end Signs

end Extended
