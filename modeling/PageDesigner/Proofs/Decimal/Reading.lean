import Mathlib.Data.List.TakeWhile
import Mathlib.Data.Rat.Cast.Order
import Mathlib.Tactic.FieldSimp
import Mathlib.Tactic.Ring
import PageDesigner.Proofs.Decimal.Positional

/-!
Reading digits in positional notation gives back the number that was placed there, wherever the point
went and whichever zeros were written or left out.
-/

namespace PageDesigner.Decimal

def Scaled.value (s : Scaled) : ℚ := s.digits * (10 : ℚ) ^ s.exponent

/-- What digits with at most one point among them stand for. -/
def reading (chars : List Char) : ℚ :=
  let whole := chars.takeWhile (· != '.')
  let fraction := (chars.dropWhile (· != '.')).tail
  Nat.ofDigitChars 10 (whole ++ fraction) 0 / (10 : ℚ) ^ fraction.length

theorem before_point {digits : List Char} (plain : '.' ∉ digits) :
    ∀ c ∈ digits, (c != '.') = true := by
  intro c member
  exact bne_iff_ne.mpr fun point => plain (point ▸ member)

theorem reading_whole {digits : List Char} (plain : '.' ∉ digits) :
    reading digits = Nat.ofDigitChars 10 digits 0 := by
  have all := before_point plain
  have whole : digits.takeWhile (· != '.') = digits := List.takeWhile_eq_self_iff.mpr all
  have fraction : digits.dropWhile (· != '.') = [] := List.dropWhile_eq_nil_iff.mpr all
  simp [reading, whole, fraction]

theorem reading_point {whole : List Char} (plain : '.' ∉ whole) (fraction : List Char) :
    reading (whole ++ '.' :: fraction) =
      Nat.ofDigitChars 10 (whole ++ fraction) 0 / (10 : ℚ) ^ fraction.length := by
  have all := before_point plain
  simp [reading, List.takeWhile_append_of_pos all, List.dropWhile_append_of_pos all]

theorem ofDigitChars_append_zeros (digits : List Char) (count : Nat) :
    Nat.ofDigitChars 10 (digits ++ zeros count) 0 = Nat.ofDigitChars 10 digits 0 * 10 ^ count := by
  rw [Nat.ofDigitChars_append, zeros, Nat.ofDigitChars_replicate_zero, Nat.mul_comm]

theorem ofDigitChars_zeros_append (digits : List Char) (count : Nat) :
    Nat.ofDigitChars 10 (zeros count ++ digits) 0 = Nat.ofDigitChars 10 digits 0 := by
  rw [Nat.ofDigitChars_append, zeros, Nat.ofDigitChars_replicate_zero, Nat.mul_zero]

theorem reading_place {digits : List Char} (plain : '.' ∉ digits) (exponent : Int) :
    reading (place digits exponent) = Nat.ofDigitChars 10 digits 0 * (10 : ℚ) ^ exponent := by
  unfold place
  split
  · rename_i whole
    obtain ⟨count, rfl⟩ := Int.eq_ofNat_of_zero_le whole
    have noPoint : '.' ∉ digits ++ zeros count := by
      rw [List.mem_append, not_or]
      exact ⟨plain, fun member => absurd (mem_zeros member) (by decide)⟩
    rw [Int.toNat_natCast, reading_whole noPoint, ofDigitChars_append_zeros]
    push_cast
    rw [zpow_natCast]
  · rename_i below
    obtain ⟨places, rfl⟩ : ∃ places : Nat, exponent = -places := ⟨(-exponent).toNat, by omega⟩
    have power : (10 : ℚ) ^ (-(places : Int)) = 1 / 10 ^ places := by
      rw [zpow_neg, zpow_natCast, one_div]
    rw [neg_neg, Int.toNat_natCast, power, mul_one_div]
    dsimp only
    split
    · rename_i inside
      have noPoint : '.' ∉ digits.take (digits.length - places) :=
        fun member => plain (List.mem_of_mem_take member)
      have behind : (digits.drop (digits.length - places)).length = places := by
        rw [List.length_drop]
        omega
      rw [reading_point noPoint, List.take_append_drop, behind]
    · rename_i outside
      have behind : (zeros (places - digits.length) ++ digits).length = places := by
        rw [List.length_append, zeros, List.length_replicate]
        omega
      have spelled : '0' :: '.' :: zeros (places - digits.length) ++ digits =
          ['0'] ++ '.' :: (zeros (places - digits.length) ++ digits) := by
        simp
      have leading : ['0'] ++ (zeros (places - digits.length) ++ digits) =
          zeros (places - digits.length + 1) ++ digits := by
        simp [zeros, List.replicate_succ]
      rw [spelled, reading_point (by decide), behind, leading, ofDigitChars_zeros_append]

theorem exists_trailingZeros (digits : List Char) :
    ∃ dropped, digits = dropTrailingZeros digits ++ zeros dropped := by
  let trailing := digits.reverse.takeWhile (· = '0')
  have zero : ∀ c ∈ trailing, c = '0' := by
    intro c member
    simpa using List.mem_takeWhile_imp member
  have spelled : trailing.reverse = zeros trailing.length :=
    List.eq_replicate_iff.mpr
      ⟨List.length_reverse, fun c member => zero c (List.mem_reverse.mp member)⟩
  refine ⟨trailing.length, ?_⟩
  calc
    digits = (trailing ++ digits.reverse.dropWhile (· = '0')).reverse := by
      rw [List.takeWhile_append_dropWhile, List.reverse_reverse]
    _ = dropTrailingZeros digits ++ trailing.reverse := List.reverse_append
    _ = dropTrailingZeros digits ++ zeros trailing.length := by rw [spelled]

theorem reading_positional (s : Scaled) : reading s.positional = s.value := by
  let digits := Nat.toDigits 10 s.digits
  have plain : '.' ∉ dropTrailingZeros digits := by
    intro member
    have digit := Nat.isDigit_of_mem_toDigits (by decide) (by decide) (mem_dropTrailingZeros member)
    exact absurd digit (by decide)
  obtain ⟨dropped, spelled⟩ := exists_trailingZeros digits
  have count : digits.length - (dropTrailingZeros digits).length = dropped := by
    have lengths := congrArg List.length spelled
    rw [List.length_append, zeros, List.length_replicate] at lengths
    omega
  have kept : s.digits = Nat.ofDigitChars 10 (dropTrailingZeros digits) 0 * 10 ^ dropped := by
    rw [← ofDigitChars_append_zeros, ← spelled, Nat.ofDigitChars_ten_toDigits]
  calc
    reading s.positional =
        Nat.ofDigitChars 10 (dropTrailingZeros digits) 0 *
          (10 : ℚ) ^ (s.exponent + (dropped : Int)) := by
      rw [← count, ← reading_place plain]
      rfl
    _ = Nat.ofDigitChars 10 (dropTrailingZeros digits) 0 * 10 ^ dropped *
          (10 : ℚ) ^ s.exponent := by
      rw [zpow_add₀ (by norm_num), zpow_natCast, mul_comm ((10 : ℚ) ^ s.exponent), mul_assoc]
    _ = s.value := by
      rw [Scaled.value, kept]
      push_cast
      rfl

end PageDesigner.Decimal
