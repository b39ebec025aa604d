import Mathlib.Data.List.Nodup
import PageDesigner.Identity.Source

/-!
The ids of one source are numbered through, and as long as the counter does not wrap around no two
of them are equal.
-/

namespace PageDesigner.IdSource

theorem idText_injective (seed : String) : Function.Injective (idText seed) := by
  intro left right same
  have digits : Nat.toDigits 10 left = Nat.toDigits 10 right := by
    simpa [idText, String.toList_append] using congrArg String.toList same
  have numbers := congrArg (fun text => Nat.ofDigitChars 10 text 0) digits
  simpa only [Nat.ofDigitChars_ten_toDigits] using numbers

theorem mintMany_succ (count : Nat) (source : IdSource) :
    mintMany (count + 1) source =
      (source.advance.current :: (mintMany count source.advance).1,
        (mintMany count source.advance).2) := rfl

theorem mintMany_length (count : Nat) (source : IdSource) :
    (mintMany count source).1.length = count := by
  induction count generalizing source with
  | zero => rfl
  | succ count ih => rw [mintMany_succ, List.length_cons, ih]

theorem mintMany_add (first second : Nat) (source : IdSource) :
    mintMany (first + second) source =
      ((mintMany first source).1 ++ (mintMany second (mintMany first source).2).1,
        (mintMany second (mintMany first source).2).2) := by
  induction first generalizing source with
  | zero => rw [Nat.zero_add]; rfl
  | succ first ih => rw [Nat.succ_add, mintMany_succ, mintMany_succ, ih, List.cons_append]

theorem mintMany_ids (count : Nat) (source : IdSource)
    (room : source.minted.toNat + count < UInt64.size) :
    (mintMany count source).1 =
      (List.range' (source.minted.toNat + 1) count).map (idText source.seed) := by
  induction count generalizing source with
  | zero => rfl
  | succ count ih =>
    have next : source.advance.minted.toNat = source.minted.toNat + 1 := by
      have small : source.minted.toNat + 1 < UInt64.size := by omega
      simp only [advance, UInt64.toNat_add]
      exact Nat.mod_eq_of_lt small
    have tail := ih source.advance (by omega)
    rw [mintMany_succ, tail, next, List.range'_succ, List.map_cons, current, next]
    rfl

/-- The ids that a new source hands out first. -/
theorem mintMany_ofSeed (seed : String) (count : Nat) (room : count < UInt64.size) :
    (mintMany count (ofSeed seed)).1 = (List.range' 1 count).map (idText seed) := by
  have start : (ofSeed seed).minted.toNat = 0 := rfl
  rw [mintMany_ids count (ofSeed seed) (by omega), start]
  rfl

theorem mintMany_ofSeed_nodup (seed : String) (count : Nat) (room : count < UInt64.size) :
    (mintMany count (ofSeed seed)).1.Nodup := by
  rw [mintMany_ofSeed seed count room]
  exact List.Nodup.map (idText_injective seed) List.nodup_range'

end PageDesigner.IdSource
