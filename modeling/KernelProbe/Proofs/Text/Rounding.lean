import Mathlib.Algebra.Order.Field.Power
import Mathlib.Algebra.Order.Ring.Abs
import Mathlib.Algebra.Ring.Parity
import Mathlib.Data.Rat.Cast.Order
import Mathlib.Tactic.FieldSimp
import Mathlib.Tactic.Linarith
import Mathlib.Tactic.Positivity
import Mathlib.Tactic.Ring
import KernelProbe.Text.Kilobytes

/-!
# Rounding to the nearest number

A number is rounded to the nearest one of a grid, and where two are equally near, to the even one.
So quotients of natural numbers are rounded to the multiples of a unit, and words to floating point
numbers of 64 bits. The latter form a finer grid below each power of two than above it, but what is
rounded above needs nothing of the finer part.

* `RoundsTo` -- what it is to be rounded to the nearest number of a grid;
* `RoundsTo.le_of_lt` -- a rounded number never falls below that of a smaller one;
* `roundsTo_roundQuotient` -- quotients are rounded to multiples of a unit;
* `roundsTo_roundToBits` -- words are rounded to floating point numbers.
-/

namespace KernelProbe.Text

/-! ## 1. Nearest numbers -/

/-- **A number is rounded to the nearest one of a grid**, a tie goes to an even one. -/
structure RoundsTo (grid even : ℚ → Prop) (x y : ℚ) : Prop where
  onGrid : grid y
  nearest : ∀ other, grid other → |x - y| ≤ |x - other|
  tie : ∀ other, grid other → other ≠ y → |x - other| = |x - y| → even y

namespace RoundsTo

variable {grid even fine fineEven : ℚ → Prop} {x y x' y' floor : ℚ}

/-- A number of the grid is the nearest one to itself. -/
theorem of_grid (hx : grid x) : RoundsTo grid even x x where
  onGrid := hx
  nearest other _ := by
    rw [sub_self, abs_zero]
    exact abs_nonneg _
  tie other _ hne heq := by
    rw [sub_self, abs_zero, abs_eq_zero, sub_eq_zero] at heq
    exact absurd heq.symm hne

theorem eq_of_grid (h : RoundsTo grid even x y) (hx : grid x) : y = x := by
  have hzero := h.nearest x hx
  rw [sub_self, abs_zero, abs_nonpos_iff, sub_eq_zero] at hzero
  exact hzero.symm

/-- **A rounded number never falls below that of a smaller one.** -/
theorem le_of_lt (h : RoundsTo grid even x y) (h' : RoundsTo grid even x' y') (hlt : x < x') :
    y ≤ y' := by
  have hbelow : (x - y) ^ 2 ≤ (x - y') ^ 2 := sq_le_sq.mpr (h.nearest y' h'.onGrid)
  have habove : (x' - y') ^ 2 ≤ (x' - y) ^ 2 := sq_le_sq.mpr (h'.nearest y h.onGrid)
  have hproduct : 0 ≤ (x' - x) * (y' - y) := by linarith
  exact sub_nonneg.mp ((mul_nonneg_iff_of_pos_left (sub_pos.mpr hlt)).mp hproduct)

/-- A grid can be refined below one of its numbers without a change of what is rounded above it. -/
theorem refine_below (h : RoundsTo grid even x y) (hy : fine y) (heven : even y → fineEven y)
    (hfloor : grid floor) (hle : floor ≤ x) (hfine : ∀ z, fine z → z < floor ∨ grid z) :
    RoundsTo fine fineEven x y := by
  have hfar : ∀ z, z < floor → |x - y| < |x - z| := fun z hz => by
    have hnear := h.nearest floor hfloor
    rw [abs_of_nonneg (sub_nonneg.mpr hle)] at hnear
    rw [abs_of_nonneg (a := x - z) (by linarith)]
    linarith
  refine ⟨hy, fun other hother => ?_, fun other hother hne heq => heven ?_⟩
  · rcases hfine other hother with hbelow | hgrid
    · exact (hfar other hbelow).le
    · exact h.nearest other hgrid
  · rcases hfine other hother with hbelow | hgrid
    · exact absurd heq (hfar other hbelow).ne'
    · exact h.tie other hgrid hne heq

end RoundsTo

/-! ## 2. Multiples of a unit -/

/-- A multiple of a unit. -/
def Multiple (unit x : ℚ) : Prop :=
  ∃ n : ℤ, x = n * unit

/-- An even multiple of a unit. -/
def EvenMultiple (unit x : ℚ) : Prop :=
  ∃ n : ℤ, Even n ∧ x = n * unit

/-- What is at most half a unit away is nearest, if it is even wherever it is half a unit away. -/
theorem roundsTo_multiple {unit x : ℚ} {n : ℤ} (hunit : 0 < unit)
    (hnear : |x - n * unit| ≤ unit / 2) (htie : |x - n * unit| = unit / 2 → Even n) :
    RoundsTo (Multiple unit) (EvenMultiple unit) x (n * unit) := by
  have hapart : ∀ m : ℤ, m ≠ n → unit ≤ |x - n * unit| + |x - m * unit| := fun m hne => by
    have hone : (1 : ℚ) ≤ |(m : ℚ) - n| := by
      exact_mod_cast Int.one_le_abs (sub_ne_zero.mpr hne)
    calc unit ≤ |(m : ℚ) - n| * unit := le_mul_of_one_le_left hunit.le hone
      _ = |(x - n * unit) - (x - m * unit)| := by
        rw [sub_sub_sub_cancel_left, ← sub_mul, abs_mul, abs_of_pos hunit]
      _ ≤ |x - n * unit| + |x - m * unit| := abs_sub _ _
  refine ⟨⟨n, rfl⟩, ?_, ?_⟩
  · rintro _ ⟨m, rfl⟩
    rcases eq_or_ne m n with rfl | hne
    · exact le_rfl
    · linarith [hapart m hne]
  · rintro _ ⟨m, rfl⟩ hother heq
    have hne : m ≠ n := fun hmn => hother (by rw [hmn])
    exact ⟨n, htie (by linarith [hapart m hne]), rfl⟩

/-! ## 3. Quotients -/

section Quotients

variable {num den low high : Nat}

theorem roundQuotient_down (h : 2 * (num % den) < den) : roundQuotient num den = num / den :=
  if_pos h

theorem roundQuotient_up (h : den < 2 * (num % den)) : roundQuotient num den = num / den + 1 := by
  rw [roundQuotient, if_neg (by omega), if_pos h]

theorem roundQuotient_tie (h : 2 * (num % den) = den) :
    roundQuotient num den = num / den + num / den % 2 := by
  rw [roundQuotient, if_neg (by omega), if_neg (by omega)]

/-- A rounded quotient is at most one half away from the exact one, and even if it is so far. -/
theorem abs_sub_roundQuotient (num : Nat) (h : 0 < den) :
    |(num : ℚ) - roundQuotient num den * den| ≤ den / 2 ∧
      (|(num : ℚ) - roundQuotient num den * den| = den / 2 → Even (roundQuotient num den)) := by
  have hexact : (num : ℚ) = (num / den : ℕ) * den + (num % den : ℕ) := by
    exact_mod_cast (Nat.div_add_mod' num den).symm
  have hden : (0 : ℚ) < den := by exact_mod_cast h
  rcases lt_trichotomy (2 * (num % den)) den with hdown | htie | hup
  · have hrest : (2 : ℚ) * (num % den : ℕ) < den := by exact_mod_cast hdown
    have hlt : |(num : ℚ) - roundQuotient num den * den| < den / 2 := by
      rw [roundQuotient_down hdown, hexact, add_sub_cancel_left, Nat.abs_cast]
      linarith
    exact ⟨hlt.le, fun heq => absurd heq hlt.ne⟩
  · have heven : Even (roundQuotient num den) := by
      rw [roundQuotient_tie htie, Nat.even_iff]
      omega
    have hrest : (2 : ℚ) * (num % den : ℕ) = den := by exact_mod_cast htie
    refine ⟨?_, fun _ => heven⟩
    rcases Nat.mod_two_eq_zero_or_one (num / den) with hparity | hparity <;>
    · rw [roundQuotient_tie htie, hparity, hexact, abs_le]
      push_cast
      constructor <;> linarith
  · have hrest : (den : ℚ) < 2 * (num % den : ℕ) := by exact_mod_cast hup
    have hmod : ((num % den : ℕ) : ℚ) < den := by exact_mod_cast Nat.mod_lt num h
    have hlt : |(num : ℚ) - roundQuotient num den * den| < den / 2 := by
      rw [roundQuotient_up hup, hexact, abs_lt]
      push_cast
      constructor <;> linarith
    exact ⟨hlt.le, fun heq => absurd heq hlt.ne⟩

/-- **Quotients are rounded** to the multiples of any unit that they are taken of. -/
theorem roundsTo_roundQuotient (num : Nat) (h : 0 < den) {unit : ℚ} (hunit : 0 < unit) :
    RoundsTo (Multiple unit) (EvenMultiple unit) (num / den * unit)
      (roundQuotient num den * unit) := by
  obtain ⟨hnear, htie⟩ := abs_sub_roundQuotient num h
  have hden : (0 : ℚ) < den := by exact_mod_cast h
  have hscale : |num / den * unit - roundQuotient num den * unit| =
      |(num : ℚ) - roundQuotient num den * den| * (unit / den) := by
    rw [← abs_of_pos (div_pos hunit hden), ← abs_mul]
    congr 1
    field_simp
  have hhalf : unit / 2 = den / 2 * (unit / den) := by
    field_simp
  have hround : RoundsTo (Multiple unit) (EvenMultiple unit) (num / den * unit)
      ((roundQuotient num den : ℤ) * unit) := by
    refine roundsTo_multiple hunit ?_ fun heq => ?_
    · rw [Int.cast_natCast, hscale, hhalf]
      exact mul_le_mul_of_nonneg_right hnear (div_pos hunit hden).le
    · rw [Int.cast_natCast, hscale, hhalf] at heq
      exact_mod_cast htie (mul_right_cancel₀ (div_pos hunit hden).ne' heq)
  rwa [Int.cast_natCast] at hround

theorem div_le_roundQuotient (num den : Nat) : num / den ≤ roundQuotient num den := by
  unfold roundQuotient
  grind

theorem roundQuotient_le_div_succ (num den : Nat) : roundQuotient num den ≤ num / den + 1 := by
  unfold roundQuotient
  grind

theorem le_roundQuotient (h : 0 < den) (hlow : low * den ≤ num) : low ≤ roundQuotient num den :=
  Nat.le_trans ((Nat.le_div_iff_mul_le h).mpr hlow) (div_le_roundQuotient num den)

theorem roundQuotient_le (h : 0 < den) (hhigh : num < high * den) :
    roundQuotient num den ≤ high :=
  Nat.le_trans (roundQuotient_le_div_succ num den) ((Nat.div_lt_iff_lt_mul h).mpr hhigh)

end Quotients

/-! ## 4. Floating point numbers -/

/-- A finite floating point number of 64 bits. -/
structure Double where
  significand : ℤ
  exponent : ℤ
  significand_lt : |significand| < 2 ^ 53
  le_exponent : -1074 ≤ exponent
  exponent_le : exponent ≤ 971

namespace Double

/-- What the number is: the significand, times a power of two. -/
def value (double : Double) : ℚ :=
  double.significand * 2 ^ double.exponent

/-- The exponent is as small as it can be, so that the significand has a last bit of its own. -/
def Normal (double : Double) : Prop :=
  2 ^ 52 ≤ |double.significand| ∨ double.exponent = -1074

end Double

/-- A number that is a floating point number of 64 bits. -/
def IsDouble (x : ℚ) : Prop :=
  ∃ double : Double, double.value = x

/-- A floating point number the last bit of whose significand is zero. -/
def IsEvenDouble (x : ℚ) : Prop :=
  ∃ double : Double, double.Normal ∧ Even double.significand ∧ double.value = x

/-- Large floating point numbers are multiples of a power of two. -/
theorem Double.multiple_of_le (double : Double) {exponent : ℤ}
    (h : 2 ^ (52 + exponent) ≤ double.value) : Multiple (2 ^ exponent) double.value := by
  have hlt : (2 : ℚ) ^ (52 + exponent) < 2 ^ (53 + double.exponent) := by
    have hsignificand : (double.significand : ℚ) < 2 ^ 53 := by
      exact_mod_cast lt_of_abs_lt double.significand_lt
    calc (2 : ℚ) ^ (52 + exponent) ≤ double.significand * 2 ^ double.exponent := h
      _ < 2 ^ 53 * 2 ^ double.exponent :=
        mul_lt_mul_of_pos_right hsignificand (zpow_pos (by norm_num) _)
      _ = 2 ^ (53 + double.exponent) := by
        rw [zpow_add₀ (by norm_num)]
        norm_num
  have hle : exponent ≤ double.exponent := by
    have := (zpow_lt_zpow_iff_right₀ (by norm_num : (1 : ℚ) < 2)).mp hlt
    omega
  obtain ⟨more, hmore⟩ := Int.le.dest hle
  refine ⟨double.significand * 2 ^ more, ?_⟩
  rw [Double.value, ← hmore, zpow_add₀ (by norm_num), zpow_natCast]
  push_cast
  ring

/-- A significand of 53 bits may be rounded up to one more, without leaving the grid. -/
theorem exists_double {significand : Nat} (exponent : ℤ) (h : significand ≤ 2 ^ 53)
    (hlow : -1074 ≤ exponent) (hhigh : exponent ≤ 970) :
    ∃ double : Double, double.value = significand * 2 ^ exponent ∧
      (2 ^ 52 ≤ significand → Even significand → double.Normal ∧ Even double.significand) := by
  rcases Nat.lt_or_eq_of_le h with hlt | rfl
  · have hbound : |(significand : ℤ)| < 2 ^ 53 := by
      rw [Nat.abs_cast]
      exact_mod_cast hlt
    refine ⟨⟨significand, exponent, hbound, hlow, by omega⟩, ?_, fun hnormal heven => ⟨.inl ?_, ?_⟩⟩
    · rw [Double.value, Int.cast_natCast]
    · rw [Nat.abs_cast]
      exact_mod_cast hnormal
    · exact (Int.even_coe_nat significand).mpr heven
  · have hsignificand : |(2 : ℤ) ^ 52| < 2 ^ 53 := by decide
    have heven : Even ((2 : ℤ) ^ 52) := by decide
    refine ⟨⟨2 ^ 52, exponent + 1, hsignificand, by omega, by omega⟩, ?_,
      fun _ _ => ⟨.inl (le_abs_self _), heven⟩⟩
    rw [Double.value, zpow_add₀ (by norm_num)]
    push_cast
    ring

/-! ## 5. Rounding to floating point numbers -/

/-- The power of two that a word is rounded to the multiples of, so that 53 bits are left. -/
def unitExponent (n : Nat) : Nat :=
  n.log2 + 1 - 53

variable {n : Nat}

theorem roundToBits_eq (n : Nat) : roundToBits 53 n =
    roundQuotient n (2 ^ unitExponent n) * 2 ^ unitExponent n := by
  rw [roundToBits, Nat.one_shiftLeft]
  rfl

theorem lt_unit (n : Nat) : n < 2 ^ 53 * 2 ^ unitExponent n := by
  refine Nat.lt_of_lt_of_le Nat.lt_log2_self ?_
  rw [← Nat.pow_add]
  exact Nat.pow_le_pow_right (by decide) (by rw [unitExponent]; omega)

theorem unit_le (h : 2 ^ 53 ≤ n) : 2 ^ 52 * 2 ^ unitExponent n ≤ n := by
  have hpos : n ≠ 0 := by omega
  have hlog : 53 ≤ n.log2 := (Nat.le_log2 hpos).mpr h
  refine Nat.le_trans ?_ (Nat.log2_self_le hpos)
  rw [← Nat.pow_add]
  exact Nat.pow_le_pow_right (by decide) (by rw [unitExponent]; omega)

theorem unitExponent_le (h : n < 2 ^ 64) : unitExponent n ≤ 11 := by
  rcases Nat.eq_zero_or_pos n with rfl | hpos
  · decide
  · have hlog : n.log2 < 64 := (Nat.log2_lt hpos.ne').mpr h
    rw [unitExponent]
    omega

/-- A rounded word as a significand times a power of two. -/
theorem cast_roundToBits (n : Nat) : (roundToBits 53 n : ℚ) =
    roundQuotient n (2 ^ unitExponent n) * 2 ^ (unitExponent n : ℤ) := by
  rw [roundToBits_eq, zpow_natCast]
  push_cast
  rfl

theorem significand_le (n : Nat) : roundQuotient n (2 ^ unitExponent n) ≤ 2 ^ 53 :=
  roundQuotient_le (Nat.two_pow_pos _) (lt_unit n)

theorem roundToBits_of_lt (h : n < 2 ^ 53) : roundToBits 53 n = n := by
  have hlog : n.log2 + 1 - 53 = 0 := by
    rcases Nat.eq_zero_or_pos n with rfl | hpos
    · decide
    · have := (Nat.log2_lt hpos.ne').mpr h
      omega
  rw [roundToBits_eq, unitExponent, hlog, pow_zero, Nat.mul_one, roundQuotient_down (by omega),
    Nat.div_one]

/-- The last bit of a large rounded word is that of the quotient, which has 53 bits. -/
theorem exists_double_roundToBits (h : n < 2 ^ 64) :
    ∃ double : Double, double.value = roundToBits 53 n ∧
      (2 ^ 53 ≤ n → Even (roundQuotient n (2 ^ unitExponent n)) →
        double.Normal ∧ Even double.significand) := by
  have hexponent := unitExponent_le h
  obtain ⟨double, hvalue, hnormal⟩ := exists_double (unitExponent n) (significand_le n)
    (by omega) (by omega)
  exact ⟨double, hvalue.trans (cast_roundToBits n).symm, fun hlarge =>
    hnormal (le_roundQuotient (Nat.two_pow_pos _) (unit_le hlarge))⟩

/-- A word that needs no rounding. -/
theorem isDouble_natCast (h : n ≤ 2 ^ 53) : IsDouble n := by
  obtain ⟨double, hvalue, -⟩ := exists_double 0 h (by decide) (by decide)
  exact ⟨double, by rw [hvalue, zpow_zero, mul_one]⟩

/-- A rounded word can be divided by a small power of two without another rounding. -/
theorem isDouble_roundToBits_div (h : n < 2 ^ 64) : IsDouble (roundToBits 53 n / 1024) := by
  have hexponent := unitExponent_le h
  obtain ⟨double, hvalue, -⟩ := exists_double (unitExponent n - 10) (significand_le n)
    (by omega) (by omega)
  refine ⟨double, ?_⟩
  rw [hvalue, cast_roundToBits, zpow_sub₀ (by norm_num), mul_div_assoc]
  norm_num

theorem unit_pos (n : Nat) : (0 : ℚ) < 2 ^ (unitExponent n : ℤ) :=
  zpow_pos (by norm_num) _

theorem roundsTo_units (n : Nat) : RoundsTo (Multiple (2 ^ (unitExponent n : ℤ)))
    (EvenMultiple (2 ^ (unitExponent n : ℤ))) n (roundToBits 53 n) := by
  have hround := roundsTo_roundQuotient n (Nat.two_pow_pos (unitExponent n)) (unit_pos n)
  have hcast : ((2 ^ unitExponent n : ℕ) : ℚ) = 2 ^ (unitExponent n : ℤ) := by
    rw [zpow_natCast]
    push_cast
    rfl
  rwa [hcast, div_mul_cancel₀ _ (unit_pos n).ne', ← cast_roundToBits] at hround

theorem even_of_evenMultiple
    (h : EvenMultiple (2 ^ (unitExponent n : ℤ)) (roundToBits 53 n)) :
    Even (roundQuotient n (2 ^ unitExponent n)) := by
  obtain ⟨multiple, heven, hmultiple⟩ := h
  rw [cast_roundToBits] at hmultiple
  have hsame : (roundQuotient n (2 ^ unitExponent n) : ℤ) = multiple := by
    exact_mod_cast mul_right_cancel₀ (unit_pos n).ne' hmultiple
  rwa [← hsame, Int.even_coe_nat] at heven

/-- **Words are rounded to floating point numbers.** -/
theorem roundsTo_roundToBits (h : n < 2 ^ 64) :
    RoundsTo IsDouble IsEvenDouble n (roundToBits 53 n) := by
  rcases Nat.lt_or_ge n (2 ^ 53) with hsmall | hlarge
  · rw [roundToBits_of_lt hsmall]
    exact .of_grid (isDouble_natCast hsmall.le)
  · have hfloor : (2 : ℚ) ^ (52 + (unitExponent n : ℤ)) =
        (2 ^ 52 : ℤ) * 2 ^ (unitExponent n : ℤ) := by
      rw [zpow_add₀ (by norm_num)]
      norm_num
    have hle : (2 : ℚ) ^ (52 + (unitExponent n : ℤ)) ≤ n := by
      rw [hfloor, zpow_natCast]
      exact_mod_cast unit_le hlarge
    obtain ⟨double, hvalue, heven⟩ := exists_double_roundToBits h
    -- Below this power of two the floating point numbers lie closer than the multiples do.
    refine (roundsTo_units n).refine_below ⟨double, hvalue⟩ (fun hmultiple => ?_) ⟨_, hfloor⟩ hle ?_
    · obtain ⟨hnormal, hlast⟩ := heven hlarge (even_of_evenMultiple hmultiple)
      exact ⟨double, hnormal, hlast, hvalue⟩
    · rintro _ ⟨other, rfl⟩
      exact (lt_or_ge other.value _).imp_right other.multiple_of_le

/-- A word that is a floating point number stays as it is. -/
theorem roundToBits_of_le (h : n ≤ 2 ^ 53) : (roundToBits 53 n : ℚ) = n :=
  (roundsTo_roundToBits (Nat.lt_of_le_of_lt h (by decide))).eq_of_grid (isDouble_natCast h)

/-! ## 6. Order -/

theorem roundQuotient_mono {num other den : Nat} (h : num ≤ other) (hden : 0 < den) :
    roundQuotient num den ≤ roundQuotient other den := by
  rcases Nat.eq_or_lt_of_le h with rfl | hlt
  · exact Nat.le_refl _
  · have hquotient : (num / den * 1 : ℚ) < other / den * 1 := by
      have hpos : (0 : ℚ) < den := by exact_mod_cast hden
      rw [mul_one, mul_one]
      exact div_lt_div_of_pos_right (by exact_mod_cast hlt) hpos
    have hle := (roundsTo_roundQuotient num hden one_pos).le_of_lt
      (roundsTo_roundQuotient other hden one_pos) hquotient
    rw [mul_one, mul_one] at hle
    exact_mod_cast hle

theorem roundToBits_mono {few many : Nat} (h : few ≤ many) (hmany : many < 2 ^ 64) :
    roundToBits 53 few ≤ roundToBits 53 many := by
  rcases Nat.eq_or_lt_of_le h with rfl | hlt
  · exact Nat.le_refl _
  · have hfew : few < 2 ^ 64 := Nat.lt_trans hlt hmany
    exact_mod_cast (roundsTo_roundToBits hfew).le_of_lt (roundsTo_roundToBits hmany)
      (by exact_mod_cast hlt)

end KernelProbe.Text
