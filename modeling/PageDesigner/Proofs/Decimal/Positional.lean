import PageDesigner.Decimal.Positional

/-!
The alphabet of the text of a double: digits, a point, a minus sign, and the letters of the values
that have no digits.
-/

namespace PageDesigner.Decimal

theorem mem_dropTrailingZeros {digits : List Char} {c : Char}
    (member : c ∈ dropTrailingZeros digits) : c ∈ digits := by
  have kept := (List.dropWhile_sublist _).mem (List.mem_reverse.mp member)
  exact List.mem_reverse.mp kept

theorem mem_zeros {count : Nat} {c : Char} (member : c ∈ zeros count) : c = '0' :=
  List.eq_of_mem_replicate member

theorem mem_place {digits : List Char} {exponent : Int} {c : Char}
    (member : c ∈ place digits exponent) : c ∈ digits ∨ c = '0' ∨ c = '.' := by
  unfold place at member
  dsimp only at member
  split at member
  · rcases List.mem_append.mp member with digit | zero
    · exact .inl digit
    · exact .inr (.inl (mem_zeros zero))
  · split at member
    · rcases List.mem_append.mp member with whole | rest
      · exact .inl (List.mem_of_mem_take whole)
      · rcases List.mem_cons.mp rest with point | fraction
        · exact .inr (.inr point)
        · exact .inl (List.mem_of_mem_drop fraction)
    · rcases List.mem_cons.mp member with zero | rest
      · exact .inr (.inl zero)
      · rcases List.mem_cons.mp rest with point | rest
        · exact .inr (.inr point)
        · rcases List.mem_append.mp rest with zero | digit
          · exact .inr (.inl (mem_zeros zero))
          · exact .inl digit

theorem positional_alphabet (s : Scaled) :
    ∀ c ∈ s.positional, c.isDigit = true ∨ c = '.' := by
  intro c member
  rcases mem_place member with kept | zero | point
  · exact .inl (Nat.isDigit_of_mem_toDigits (by decide) (by decide) (mem_dropTrailingZeros kept))
  · exact .inl (zero ▸ rfl)
  · exact .inr point

theorem magnitudeText_alphabet (bits : Nat) :
    ∀ c ∈ magnitudeText bits, c.isDigit = true ∨ c = '.' := by
  unfold magnitudeText
  split
  · intro c member
    exact .inl (List.mem_singleton.mp member ▸ rfl)
  · exact positional_alphabet _

/-- The characters besides digits. -/
def marks : List Char := ['.', '-', 'N', 'a', 'i', 'n', 'f']

theorem characters_alphabet (x : Float) : ∀ c ∈ characters x, c.isDigit = true ∨ c ∈ marks := by
  have sign (negative : Prop) [Decidable negative] :
      (if negative then ['-'] else []) ⊆ marks := by
    split <;> decide
  have nan : ['N', 'a', 'N'] ⊆ marks := by decide
  have infinite : ['i', 'n', 'f'] ⊆ marks := by decide
  intro c member
  unfold characters at member
  dsimp only at member
  split at member
  · exact .inr (nan member)
  · split at member
    · exact .inr (List.append_subset.mpr ⟨sign _, infinite⟩ member)
    · rcases List.mem_append.mp member with minus | magnitude
      · exact .inr (sign _ minus)
      · rcases magnitudeText_alphabet _ c magnitude with digit | point
        · exact .inl digit
        · exact .inr (point ▸ List.mem_cons_self)

end PageDesigner.Decimal
