import Mathlib.Algebra.Order.Field.Power
import Mathlib.Data.Rat.Cast.Order
import Mathlib.Tactic.FieldSimp
import Mathlib.Tactic.Linarith
import Mathlib.Tactic.Positivity
import Mathlib.Tactic.Ring
import PageDesigner.Proofs.Decimal.Reading

/-!
The reals that round to a double make up an interval, and the intervals of doubles next to each other
meet in one point, which belongs to at most one of them. The digits that are chosen for a double lie
in its own interval, so no other double has the same ones.
-/

namespace PageDesigner.Decimal

theorem zpow_eq_div {base : ℚ} (nonzero : base ≠ 0) (exponent : Int) :
    base ^ exponent = base ^ exponent.toNat / base ^ (-exponent).toNat := by
  rw [← zpow_natCast, ← zpow_natCast, ← zpow_sub₀ nonzero, Int.toNat_sub_toNat_neg]

theorem Scaled.value_eq_div (s : Scaled) :
    s.value = s.digits * 10 ^ s.exponent.toNat / 10 ^ (-s.exponent).toNat := by
  rw [value, zpow_eq_div (by norm_num), mul_div_assoc]

namespace Interval

def lower (i : Interval) : ℚ := i.low / i.denominator

def upper (i : Interval) : ℚ := i.high / i.denominator

/-- The number rounds to the value. -/
def Within (i : Interval) (x : ℚ) : Prop :=
  if i.closed then i.lower ≤ x ∧ x ≤ i.upper else i.lower < x ∧ x < i.upper

theorem Within.bounds {i : Interval} {x : ℚ} (within : i.Within x) : i.lower ≤ x ∧ x ≤ i.upper := by
  unfold Within at within
  split at within
  · exact within
  · exact ⟨within.1.le, within.2.le⟩

theorem Within.closed_of_end {i : Interval} {x : ℚ} (within : i.Within x)
    (ends : x = i.lower ∨ x = i.upper) : i.closed = true := by
  by_contra unclosed
  rw [Within, if_neg unclosed] at within
  rcases ends with rfl | rfl
  · exact lt_irrefl _ within.1
  · exact lt_irrefl _ within.2

theorem numerator_le_iff {denominator : Nat} (positive : 0 < denominator) (numerator : Nat)
    (s : Scaled) :
    numerator * 10 ^ (-s.exponent).toNat ≤ s.digits * 10 ^ s.exponent.toNat * denominator ↔
      (numerator : ℚ) / denominator ≤ s.value := by
  have denominatorPos : (0 : ℚ) < denominator := by exact_mod_cast positive
  have unitPos : (0 : ℚ) < 10 ^ (-s.exponent).toNat := by positivity
  rw [s.value_eq_div, div_le_div_iff₀ denominatorPos unitPos]
  exact_mod_cast Iff.rfl

theorem le_numerator_iff {denominator : Nat} (positive : 0 < denominator) (numerator : Nat)
    (s : Scaled) :
    s.digits * 10 ^ s.exponent.toNat * denominator ≤ numerator * 10 ^ (-s.exponent).toNat ↔
      s.value ≤ (numerator : ℚ) / denominator := by
  have denominatorPos : (0 : ℚ) < denominator := by exact_mod_cast positive
  have unitPos : (0 : ℚ) < 10 ^ (-s.exponent).toNat := by positivity
  rw [s.value_eq_div, div_le_div_iff₀ unitPos denominatorPos]
  exact_mod_cast Iff.rfl

theorem holds_iff {i : Interval} (positive : 0 < i.denominator) (s : Scaled) :
    i.holds s.digits s.exponent = true ↔ i.Within s.value := by
  unfold holds Within lower upper
  simp only [Nat.pow_eq]
  split
  · rw [Bool.and_eq_true, decide_eq_true_eq, decide_eq_true_eq, numerator_le_iff positive,
      le_numerator_iff positive]
  · -- an end that does not belong to the interval is told by what lies on the other side of it
    rw [Bool.and_eq_true, decide_eq_true_eq, decide_eq_true_eq, ← not_le, ← not_le,
      le_numerator_iff positive, numerator_le_iff positive, not_le, not_le]

section Search

variable {i : Interval}

theorem neighbour?_holds {exponent : Int} {digits : Nat}
    (found : i.neighbour? exponent = some digits) : i.holds digits exponent = true := by
  unfold neighbour? at found
  dsimp only at found
  split at found
  · rename_i below above
    injection found with chosen
    rw [← chosen]
    split
    · exact below
    · exact above
  · rename_i below _
    injection found with chosen
    rw [← chosen]
    exact below
  · rename_i above
    injection found with chosen
    rw [← chosen]
    exact above
  · cases found

theorem search_holds {magnitude : Int} {more places : Nat} {s : Scaled}
    (found : i.search magnitude more places = some s) : i.holds s.digits s.exponent = true := by
  induction more generalizing places with
  | zero => cases found
  | succ more ih =>
    unfold search at found
    split at found
    · rename_i neighbour
      injection found with chosen
      rw [← chosen]
      exact neighbour?_holds neighbour
    · exact ih found

end Search
end Interval

namespace Binary

variable (b : Binary)

def value : ℚ := b.significand * (2 : ℚ) ^ b.exponent

theorem denominator_pos : 0 < (Interval.ofBinary b).denominator := by
  have power : 0 < 2 ^ (-b.exponent).toNat := Nat.two_pow_pos _
  simp only [Interval.ofBinary, Nat.pow_eq]
  omega

/-- A numerator of the interval, in quarters of the last place. -/
theorem quarters (numerator : Nat) :
    ((numerator * Nat.pow 2 b.exponent.toNat : Nat) : ℚ) /
        (4 * Nat.pow 2 (-b.exponent).toNat : Nat) =
      numerator / 4 * (2 : ℚ) ^ b.exponent := by
  rw [zpow_eq_div (by norm_num)]
  push_cast [Nat.pow_eq]
  rw [div_mul_div_comm]

theorem lower_eq : (Interval.ofBinary b).lower =
    ((4 * b.significand - if b.narrow then 1 else 2 : Nat) : ℚ) / 4 * 2 ^ b.exponent :=
  b.quarters _

theorem upper_eq : (Interval.ofBinary b).upper =
    ((4 * b.significand + 2 : Nat) : ℚ) / 4 * 2 ^ b.exponent :=
  b.quarters _

theorem lower_lt_upper : (Interval.ofBinary b).lower < (Interval.ofBinary b).upper := by
  rw [lower_eq, upper_eq]
  have quarters : (4 * b.significand - if b.narrow then 1 else 2) < 4 * b.significand + 2 := by omega
  gcongr

theorem within_value : (Interval.ofBinary b).Within b.value := by
  have middle : b.value = ((4 * b.significand : Nat) : ℚ) / 4 * 2 ^ b.exponent := by
    rw [value]
    push_cast
    ring
  have above : 4 * b.significand < 4 * b.significand + 2 := by omega
  have closed : (Interval.ofBinary b).closed = decide (b.significand % 2 = 0) := rfl
  unfold Interval.Within
  rw [closed, lower_eq, upper_eq, middle]
  split
  · have below : (4 * b.significand - if b.narrow then 1 else 2) ≤ 4 * b.significand := by omega
    constructor <;> gcongr
  · rename_i odd
    rw [decide_eq_true_eq] at odd
    have below : (4 * b.significand - if b.narrow then 1 else 2) < 4 * b.significand := by
      split <;> omega
    constructor <;> gcongr

theorem exact_value : b.exact.value = b.value := by
  rw [Scaled.value, value, exact]
  simp only [Nat.pow_eq]
  rcases le_total 0 b.exponent with whole | below
  · obtain ⟨places, same⟩ := Int.eq_ofNat_of_zero_le whole
    rw [same, min_eq_right (by omega), zpow_zero, zpow_natCast]
    simp
  · obtain ⟨places, same⟩ := Int.eq_ofNat_of_zero_le (neg_nonneg.mpr below)
    have negative : b.exponent = -(places : Int) := by omega
    have ten : (10 : ℚ) = 2 * 5 := by norm_num
    rw [negative, min_eq_left (by omega), neg_neg, Int.toNat_natCast, Int.toNat_neg_natCast,
      zpow_neg, zpow_neg, zpow_natCast, zpow_natCast, ten, mul_pow]
    push_cast
    field_simp

theorem shortest_within : (Interval.ofBinary b).Within (shortest b).value := by
  unfold shortest
  dsimp only
  cases found : (Interval.ofBinary b).search (Interval.ofBinary b).magnitude sufficientPlaces 1 with
  | some s => exact (Interval.holds_iff b.denominator_pos s).mp (Interval.search_holds found)
  | none =>
    rw [Option.getD_none, exact_value]
    exact b.within_value

/-- All that rounds to the double with these bits. -/
abbrev interval (bits : Nat) : Interval := Interval.ofBinary (ofBits bits)

section Fields

variable {bits biased fraction : Nat}

theorem exists_fields (room : bits < 2 ^ 63) :
    ∃ biased fraction, biased < 2 ^ 11 ∧ fraction < 2 ^ 52 ∧ bits = biased * 2 ^ 52 + fraction :=
  ⟨bits / 2 ^ 52, bits % 2 ^ 52, by omega, by omega, by omega⟩

theorem ofBits_subnormal (small : fraction < 2 ^ 52) :
    ofBits (0 * 2 ^ 52 + fraction) = ⟨fraction, -1074, false⟩ := by
  have fractionField : (0 * 2 ^ 52 + fraction) % 2 ^ 52 = fraction := by omega
  have exponentField : (0 * 2 ^ 52 + fraction) / 2 ^ 52 % 2 ^ 11 = 0 := by omega
  simp only [ofBits, fractionBits, Nat.pow_eq, fractionField, exponentField, ↓reduceIte]

theorem ofBits_normal (normal : 0 < biased) (room : biased < 2 ^ 11) (small : fraction < 2 ^ 52) :
    ofBits (biased * 2 ^ 52 + fraction) =
      ⟨2 ^ 52 + fraction, biased - 1075, fraction = 0 && 1 < biased⟩ := by
  have fractionField : (biased * 2 ^ 52 + fraction) % 2 ^ 52 = fraction := by omega
  have exponentField : (biased * 2 ^ 52 + fraction) / 2 ^ 52 % 2 ^ 11 = biased := by omega
  simp only [ofBits, fractionBits, Nat.pow_eq, fractionField, exponentField,
    if_neg (Nat.ne_of_gt normal)]

/-- The last bit of a double is the last bit of its significand. -/
theorem significand_parity (room : bits < 2 ^ 63) : (ofBits bits).significand % 2 = bits % 2 := by
  obtain ⟨biased, fraction, biasedRoom, small, rfl⟩ := exists_fields room
  rcases Nat.eq_zero_or_pos biased with rfl | normal
  · rw [ofBits_subnormal small]
    dsimp only
    omega
  · rw [ofBits_normal normal biasedRoom small]
    dsimp only
    omega

/-- Between a double and the next one, the interval of the one ends where that of the other starts,
also where the exponent changes. -/
theorem upper_eq_lower_succ (room : bits + 1 < 2 ^ 63) :
    (interval bits).upper = (interval (bits + 1)).lower := by
  obtain ⟨biased, fraction, biasedRoom, small, rfl⟩ := exists_fields (Nat.lt_of_succ_lt room)
  rw [upper_eq, lower_eq]
  by_cases inside : fraction + 1 < 2 ^ 52
  · -- both doubles have the exponent, and the next one is no power of two
    rw [Nat.add_assoc]
    rcases Nat.eq_zero_or_pos biased with rfl | normal
    · rw [ofBits_subnormal small, ofBits_subnormal inside]
      congr 3
    · rw [ofBits_normal normal biasedRoom small, ofBits_normal normal biasedRoom inside]
      congr 3
  · -- the fraction is full, so the next double is a power of two
    have last : fraction = 2 ^ 52 - 1 := by omega
    have carried : biased * 2 ^ 52 + fraction + 1 = (biased + 1) * 2 ^ 52 + 0 := by omega
    rw [carried, ofBits_normal (Nat.succ_pos biased) (by omega) (by decide)]
    rcases Nat.eq_zero_or_pos biased with rfl | normal
    · rw [ofBits_subnormal small, last]
      norm_num
    · -- the gap doubles there, which is why the interval of a power of two is narrow below
      have narrow : (decide (0 = 0) && decide (1 < biased + 1)) = true := by simpa using normal
      have exponent : ((biased + 1 : Nat) : Int) - 1075 = (biased : Int) - 1075 + 1 := by omega
      rw [ofBits_normal normal biasedRoom small, last]
      dsimp only
      rw [if_pos narrow, exponent, zpow_add_one₀ (by norm_num)]
      norm_num
      ring

end Fields

section Apart

variable {left right : Nat} {x : ℚ}

theorem upper_le_lower (less : left < right) (room : right < 2 ^ 63) :
    (interval left).upper ≤ (interval right).lower := by
  induction right, less using Nat.le_induction with
  | base => exact (upper_eq_lower_succ room).le
  | succ right _ ih =>
    calc
      (interval left).upper ≤ (interval right).lower := ih (by omega)
      _ ≤ (interval right).upper := (lower_lt_upper _).le
      _ = (interval (right + 1)).lower := upper_eq_lower_succ room

theorem upper_lt_lower (apart : left + 1 < right) (room : right < 2 ^ 63) :
    (interval left).upper < (interval right).lower :=
  calc
    (interval left).upper = (interval (left + 1)).lower := upper_eq_lower_succ (by omega)
    _ < (interval (left + 1)).upper := lower_lt_upper _
    _ ≤ (interval right).lower := upper_le_lower apart room

/-- The end that an interval shares with the next one belongs to the double whose last bit is
zero. -/
theorem not_within_both (less : left < right) (room : right < 2 ^ 63)
    (withinLeft : (interval left).Within x) : ¬(interval right).Within x := by
  intro withinRight
  have below := withinLeft.bounds.2
  have above := withinRight.bounds.1
  have adjacent : right = left + 1 := by
    by_contra apart
    have gap := upper_lt_lower (by omega : left + 1 < right) room
    linarith
  have meet := upper_le_lower less room
  have leftClosed := withinLeft.closed_of_end (.inr (by linarith))
  have rightClosed := withinRight.closed_of_end (.inl (by linarith))
  have leftEven : (ofBits left).significand % 2 = 0 := of_decide_eq_true leftClosed
  have rightEven : (ofBits right).significand % 2 = 0 := of_decide_eq_true rightClosed
  rw [significand_parity (by omega)] at leftEven rightEven
  omega

theorem eq_of_within (leftRoom : left < 2 ^ 63) (rightRoom : right < 2 ^ 63)
    (withinLeft : (interval left).Within x) (withinRight : (interval right).Within x) :
    left = right := by
  rcases Nat.lt_trichotomy left right with less | same | greater
  · exact absurd withinRight (not_within_both less rightRoom withinLeft)
  · exact same
  · exact absurd withinLeft (not_within_both greater leftRoom withinRight)

end Apart
end Binary
end PageDesigner.Decimal
