import PageDesigner.Proofs.Decimal.Shortest

/-!
The text of a double tells it apart from every other one: the sign stands in front, infinities and
the value that is no number have texts with letters in them, and the digits of a finite double read
back into its own interval.
-/

namespace PageDesigner.Decimal

open Float.Model

section Magnitude

/-- The digits that are written for a magnitude round to it again. -/
theorem reading_within (bits : Nat) :
    (Binary.interval bits).Within (reading (magnitudeText bits)) := by
  unfold magnitudeText
  split
  · rename_i zero
    have value : (Binary.ofBits 0).value = reading ['0'] := by
      rw [reading_whole (by decide)]
      simp [Binary.value, Binary.ofBits, Nat.ofDigitChars_cons]
    rw [zero, ← value]
    exact Binary.within_value _
  · rw [reading_positional]
    exact Binary.shortest_within _

theorem magnitudeText_injective {left right : Nat} (leftRoom : left < 2 ^ 63)
    (rightRoom : right < 2 ^ 63) (same : magnitudeText left = magnitudeText right) :
    left = right := by
  have within := reading_within right
  rw [← same] at within
  exact Binary.eq_of_within leftRoom rightRoom (reading_within left) within

end Magnitude

section Sign

/-- The text without its sign. -/
def unsigned (x : Float) : List Char :=
  if x.isInf then ['i', 'n', 'f'] else magnitudeText (x.toBits.toNat % 2 ^ 63)

def sign (x : Float) : List Char := if 2 ^ 63 ≤ x.toBits.toNat then ['-'] else []

theorem characters_of_number {x : Float} (number : x.isNaN = false) :
    characters x = sign x ++ unsigned x := by
  unfold characters sign unsigned
  dsimp only
  rw [if_neg (by rw [number]; decide)]
  split
  · rfl
  · rfl

theorem unsigned_alphabet (x : Float) :
    ∀ c ∈ unsigned x, c.isDigit = true ∨ c ∈ ['.', 'i', 'n', 'f'] := by
  have letters : ['i', 'n', 'f'] ⊆ ['.', 'i', 'n', 'f'] := by decide
  intro c member
  unfold unsigned at member
  split at member
  · exact .inr (letters member)
  · rcases magnitudeText_alphabet _ c member with digit | point
    · exact .inl digit
    · exact .inr (point ▸ List.mem_cons_self)

theorem minus_not_mem_unsigned (x : Float) : '-' ∉ unsigned x := by
  intro member
  rcases unsigned_alphabet x '-' member with digit | letter
  · exact absurd digit (by decide)
  · exact absurd letter (by decide)

theorem signed_inj {x y : Float} (same : sign x ++ unsigned x = sign y ++ unsigned y) :
    (2 ^ 63 ≤ x.toBits.toNat ↔ 2 ^ 63 ≤ y.toBits.toNat) ∧ unsigned x = unsigned y := by
  have xPlain := minus_not_mem_unsigned x
  have yPlain := minus_not_mem_unsigned y
  unfold sign at same
  by_cases xNegative : 2 ^ 63 ≤ x.toBits.toNat <;> by_cases yNegative : 2 ^ 63 ≤ y.toBits.toNat
  · rw [if_pos xNegative, if_pos yNegative] at same
    exact ⟨iff_of_true xNegative yNegative, List.append_cancel_left same⟩
  · rw [if_pos xNegative, if_neg yNegative, List.nil_append] at same
    have minus : '-' ∈ unsigned y := same ▸ List.mem_cons_self
    exact absurd minus yPlain
  · rw [if_neg xNegative, if_pos yNegative, List.nil_append] at same
    have minus : '-' ∈ unsigned x := same.symm ▸ List.mem_cons_self
    exact absurd minus xPlain
  · rw [if_neg xNegative, if_neg yNegative] at same
    exact ⟨iff_of_false xNegative yNegative, same⟩

end Sign

section Bits

/-- Both infinities have all bits of the exponent set and none of the fraction. -/
theorem size_of_isInf {x : Float} (infinite : x.isInf = true) :
    x.toBits.toNat % 2 ^ 63 = 2047 * 2 ^ 52 := by
  let bits : BitVec Format.binary64.numBits := x.toBits.toBitVec
  change (UnpackedFloat.unpack Format.binary64 bits).isInf = true at infinite
  unfold UnpackedFloat.unpack at infinite
  dsimp only at infinite
  by_cases exponent : UnpackedFloat.unpackExponent bits = -1#11
  · by_cases mantissa : UnpackedFloat.unpackMantissa bits = 0#52
    · have exponentField : x.toBits.toNat / 2 ^ 52 % 2 ^ 11 = 2047 := by
        simpa [bits, UnpackedFloat.unpackExponent, Nat.shiftRight_eq_div_pow] using
          congrArg BitVec.toNat exponent
      have mantissaField : x.toBits.toNat % 2 ^ 52 = 0 := by
        simpa [bits, UnpackedFloat.unpackMantissa] using congrArg BitVec.toNat mantissa
      omega
    · rw [if_pos exponent, if_neg mantissa] at infinite
      cases infinite
  · rw [if_neg exponent] at infinite
    by_cases small : UnpackedFloat.unpackExponent bits = 0#11
    · rw [if_pos small] at infinite
      by_cases zero : UnpackedFloat.unpackMantissa bits = 0#52
      · rw [dif_pos zero] at infinite
        cases infinite
      · rw [dif_neg zero] at infinite
        cases infinite
    · rw [if_neg small] at infinite
      cases infinite

theorem eq_of_bits {x y : Float} (same : x.toBits.toNat = y.toBits.toNat) : x = y := by
  obtain ⟨⟨xBits, xValid⟩⟩ := x
  obtain ⟨⟨yBits, yValid⟩⟩ := y
  have bits : xBits = yBits := UInt64.toNat_inj.mp same
  subst bits
  rfl

end Bits

theorem size_eq_of_unsigned_eq {x y : Float} (same : unsigned x = unsigned y) :
    x.toBits.toNat % 2 ^ 63 = y.toBits.toNat % 2 ^ 63 := by
  have letter (bits : Nat) : ['i', 'n', 'f'] ≠ magnitudeText bits := by
    intro spelled
    have inside : 'i' ∈ magnitudeText bits := spelled ▸ List.mem_cons_self
    rcases magnitudeText_alphabet bits 'i' inside with digit | point
    · exact absurd digit (by decide)
    · exact absurd point (by decide)
  unfold unsigned at same
  split at same
  · rename_i xInfinite
    split at same
    · rename_i yInfinite
      rw [size_of_isInf xInfinite, size_of_isInf yInfinite]
    · exact absurd same (letter _)
  · split at same
    · exact absurd same.symm (letter _)
    · exact magnitudeText_injective (by omega) (by omega) same

theorem eq_of_text_eq {x y : Float} (xNumber : x.isNaN = false) (yNumber : y.isNaN = false)
    (same : text x = text y) : x = y := by
  have spelled : characters x = characters y := String.ofList_injective same
  rw [characters_of_number xNumber, characters_of_number yNumber] at spelled
  obtain ⟨signs, sizes⟩ := signed_inj spelled
  have sizeEq := size_eq_of_unsigned_eq sizes
  have xRoom := x.toBits.toNat_lt
  have yRoom := y.toBits.toNat_lt
  exact eq_of_bits (by omega)

theorem isNaN_of_text_eq {x y : Float} (notNumber : x.isNaN = true) (same : text x = text y) :
    y.isNaN = true := by
  by_contra number
  have spelled : characters x = characters y := String.ofList_injective same
  have nan : characters x = ['N', 'a', 'N'] := by
    unfold characters
    exact if_pos notNumber
  rw [nan, characters_of_number (Bool.eq_false_of_not_eq_true number)] at spelled
  have letter : 'N' ∈ sign y ++ unsigned y := spelled ▸ List.mem_cons_self
  rcases List.mem_append.mp letter with front | rest
  · unfold sign at front
    split at front
    · exact absurd front (by decide)
    · cases front
  · rcases unsigned_alphabet y 'N' rest with digit | other
    · exact absurd digit (by decide)
    · exact absurd other (by decide)

end PageDesigner.Decimal
