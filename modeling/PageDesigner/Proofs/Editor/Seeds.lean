import PageDesigner.Proofs.Editor.Minting

/-!
An id tells its seed and its number: the number is what follows the last dash, so seeds with dashes
and digits of their own give no id of another seed. Seeds in turn tell the checksums of their labels,
and so the sessions of two labels share ids just where the labels share their checksum.
-/

namespace PageDesigner

/-- Digits are told apart, up to the base of hexadecimal numbers. -/
theorem digitChar_inj : ∀ m < 16, ∀ n < 16, Nat.digitChar m = Nat.digitChar n → m = n := by
  decide

/-- The last digit and those before it, of which there are none below the base. -/
theorem toDigits_split {base : Nat} (valid : 1 < base) (n : Nat) :
    Nat.toDigits base n =
      (if n < base then [] else Nat.toDigits base (n / base)) ++ [Nat.digitChar (n % base)] := by
  rw [Nat.toDigits_eq_if valid]
  split
  · rename_i small
    rw [Nat.mod_eq_of_lt small, List.nil_append]
  · rfl

theorem toDigits_injective {base : Nat} (valid : 1 < base) (readable : base ≤ 16) :
    Function.Injective (Nat.toDigits base) := by
  intro m
  induction m using Nat.strongRecOn with
  | ind m ih =>
    intro n same
    rw [toDigits_split valid m, toDigits_split valid n] at same
    obtain ⟨front, last⟩ := List.append_inj' same rfl
    have lastDigit : m % base = n % base := by
      have small (k : Nat) : k % base < 16 := by
        have below := Nat.mod_lt k (by omega : 0 < base)
        omega
      exact digitChar_inj _ (small m) _ (small n) (List.singleton_inj.mp last)
    by_cases mSmall : m < base <;> by_cases nSmall : n < base
    · rwa [Nat.mod_eq_of_lt mSmall, Nat.mod_eq_of_lt nSmall] at lastDigit
    · rw [if_pos mSmall, if_neg nSmall] at front
      exact absurd front.symm Nat.toDigits_ne_nil
    · rw [if_neg mSmall, if_pos nSmall] at front
      exact absurd front Nat.toDigits_ne_nil
    · rw [if_neg mSmall, if_neg nSmall] at front
      have smaller : m / base < m := Nat.div_lt_self (by omega) valid
      calc m
        _ = base * (m / base) + m % base := (Nat.div_add_mod m base).symm
        _ = base * (n / base) + n % base := by rw [ih _ smaller front, lastDigit]
        _ = n := Nat.div_add_mod n base

theorem dash_not_mem_toDigits (n : Nat) : '-' ∉ Nat.toDigits 10 n := by
  intro member
  have digit := Nat.isDigit_of_mem_toDigits (by decide) (by decide) member
  exact absurd digit (by decide)

theorem eq_of_cons_eq_append {α : Type} {separator : α} {gap front back : List α}
    (last : separator ∉ front) (same : separator :: front = gap ++ separator :: back) :
    gap = [] ∧ front = back := by
  cases gap with
  | nil => exact ⟨rfl, (List.cons.inj same).2⟩
  | cons first gap =>
    obtain ⟨-, rest⟩ := List.cons.inj same
    have inside : separator ∈ gap ++ separator :: back :=
      List.mem_append_right gap List.mem_cons_self
    exact absurd (rest ▸ inside) last

/-- A list has one last separator. -/
theorem append_cons_inj_of_last {α : Type} {separator : α} {left right front back : List α}
    (lastLeft : separator ∉ front) (lastRight : separator ∉ back)
    (same : left ++ separator :: front = right ++ separator :: back) :
    left = right ∧ front = back := by
  rcases List.append_eq_append_iff.mp same with ⟨gap, rfl, rest⟩ | ⟨gap, rfl, rest⟩
  · obtain ⟨rfl, fronts⟩ := eq_of_cons_eq_append lastLeft rest
    exact ⟨(List.append_nil left).symm, fronts⟩
  · obtain ⟨rfl, fronts⟩ := eq_of_cons_eq_append lastRight rest
    exact ⟨List.append_nil right, fronts.symm⟩

namespace IdSource

theorem idText_eq_iff {seed other : String} {m n : Nat} :
    idText seed m = idText other n ↔ seed = other ∧ m = n := by
  constructor
  · intro same
    have spelled : seed.toList ++ '-' :: Nat.toDigits 10 m =
        other.toList ++ '-' :: Nat.toDigits 10 n := by
      simpa [idText, String.toList_append] using congrArg String.toList same
    obtain ⟨seeds, numbers⟩ := append_cons_inj_of_last (dash_not_mem_toDigits m)
      (dash_not_mem_toDigits n) spelled
    exact ⟨String.toList_inj.mp seeds, toDigits_injective (by decide) (by decide) numbers⟩
  · rintro ⟨rfl, rfl⟩
    rfl

/-- The id that a source hands out when it has been asked so many times. -/
def nth? (source : IdSource) (number : Nat) : Option String :=
  (source.mintMany number).1.getLast?

theorem nth?_ofSeed (seed : String) {number : Nat} (first : 0 < number)
    (room : number < UInt64.size) : (ofSeed seed).nth? number = some (idText seed number) := by
  rw [nth?, mintMany_ofSeed seed number room, List.getLast?_map, List.getLast?_range']
  simp
  omega

end IdSource

/-- The checksum of the label's UTF-8 bytes. -/
def labelChecksum (label : String) : UInt32 := Checksum.crc32 label.toUTF8.data.toList

theorem seedFor_eq_iff {label other : String} :
    seedFor label = seedFor other ↔ labelChecksum label = labelChecksum other := by
  constructor
  · intro same
    have digits : Nat.toDigits 16 (labelChecksum label).toNat =
        Nat.toDigits 16 (labelChecksum other).toNat := String.ofList_inj.mp same
    exact UInt32.toNat_inj.mp (toDigits_injective (by decide) (by decide) digits)
  · intro same
    exact congrArg seedOfChecksum same

namespace Session

variable {α β : Type}

theorem mem_mintedIds_iff (label : String) (actions : List (Action α))
    (few : ((new label).mintedIds actions).length < UInt64.size) (id : String) :
    id ∈ (new label).mintedIds actions ↔
      ∃ number, 0 < number ∧ number ≤ ((new label).mintedIds actions).length ∧
        id = IdSource.idText (seedFor label) number := by
  have numbered : (new label).mintedIds actions =
      (List.range' 1 ((new label).mintedIds actions).length).map
        (IdSource.idText (seedFor label)) :=
    (mintedIds_new label actions).trans (IdSource.mintMany_ofSeed _ _ few)
  constructor
  · intro member
    rw [numbered] at member
    obtain ⟨number, inRange, rfl⟩ := List.mem_map.mp member
    obtain ⟨first, last⟩ := List.mem_range'_1.mp inRange
    exact ⟨number, by omega, by omega, rfl⟩
  · rintro ⟨number, first, last, rfl⟩
    rw [numbered]
    exact List.mem_map_of_mem (List.mem_range'_1.mpr ⟨first, by omega⟩)

theorem mintedIds_disjoint_iff {label other : String} {actions : List (Action α)}
    {others : List (Action β)} (drawn : (new label).mintedIds actions ≠ [])
    (few : ((new label).mintedIds actions).length < UInt64.size)
    (otherDrawn : (new other).mintedIds others ≠ [])
    (otherFew : ((new other).mintedIds others).length < UInt64.size) :
    ((new label).mintedIds actions).Disjoint ((new other).mintedIds others) ↔
      labelChecksum label ≠ labelChecksum other := by
  constructor
  · intro disjoint sameChecksum
    have seeds : seedFor label = seedFor other := seedFor_eq_iff.mpr sameChecksum
    have first {γ : Type} {label : String} {actions : List (Action γ)}
        (drawn : (new label).mintedIds actions ≠ [])
        (few : ((new label).mintedIds actions).length < UInt64.size) :
        IdSource.idText (seedFor label) 1 ∈ (new label).mintedIds actions :=
      (mem_mintedIds_iff label actions few _).mpr
        ⟨1, by decide, List.length_pos_iff.mpr drawn, rfl⟩
    exact disjoint (first drawn few) (seeds ▸ first otherDrawn otherFew)
  · intro differ id member memberOther
    obtain ⟨m, -, -, rfl⟩ := (mem_mintedIds_iff label actions few id).mp member
    obtain ⟨n, -, -, same⟩ := (mem_mintedIds_iff other others otherFew _).mp memberOther
    exact differ (seedFor_eq_iff.mp (IdSource.idText_eq_iff.mp same).1)

/-- The first part is about sources of any seeds, the last about what the sessions of two labels mint
in whatever runs. -/
theorem ids_coincide_iff :
    (∀ (seed other : String) (m n : Nat), 0 < m → m < UInt64.size → 0 < n → n < UInt64.size →
      ((IdSource.ofSeed seed).nth? m = (IdSource.ofSeed other).nth? n ↔
        seed = other ∧ m = n)) ∧
    (∀ label other : String,
      seedFor label = seedFor other ↔ labelChecksum label = labelChecksum other) ∧
    ∀ (label other : String) (actions : List (Action α)) (others : List (Action β)),
      (new label).mintedIds actions ≠ [] →
      ((new label).mintedIds actions).length < UInt64.size →
      (new other).mintedIds others ≠ [] →
      ((new other).mintedIds others).length < UInt64.size →
      (((new label).mintedIds actions).Disjoint ((new other).mintedIds others) ↔
        labelChecksum label ≠ labelChecksum other) := by
  refine ⟨?sources, ?labels, ?sessions⟩
  case sources =>
    intro seed other m n mFirst mRoom nFirst nRoom
    rw [IdSource.nth?_ofSeed seed mFirst mRoom, IdSource.nth?_ofSeed other nFirst nRoom,
      Option.some_inj]
    exact IdSource.idText_eq_iff
  case labels =>
    intro label other
    exact seedFor_eq_iff
  case sessions =>
    intro label other actions others drawn few otherDrawn otherFew
    exact mintedIds_disjoint_iff drawn few otherDrawn otherFew

/-- Two words with one checksum give the same ids, and a seed that looks like an id gives others. -/
theorem labels_of_one_checksum_share_ids :
    let actions : List (Action Unit) := [.mintId]
    let minted := (new "plumless").mintedIds actions
    let others := (new "buckeroo").mintedIds actions
    (IdSource.ofSeed "a").nth? 12 ≠ (IdSource.ofSeed "a-1").nth? 2 ∧
      seedFor "plumless" = seedFor "buckeroo" ∧
      minted ≠ [] ∧ minted.length < UInt64.size ∧ others ≠ [] ∧ others.length < UInt64.size ∧
      ¬ minted.Disjoint others := by
  intro actions minted others
  obtain ⟨sources, labels, sessions⟩ := @ids_coincide_iff Unit Unit
  have sameChecksum : labelChecksum "plumless" = labelChecksum "buckeroo" := by decide +kernel
  have nonempty : minted ≠ [] ∧ others ≠ [] := by decide +kernel
  have few : minted.length < UInt64.size ∧ others.length < UInt64.size := by decide +kernel
  have apart := sources "a" "a-1" 12 2 (by decide) (by decide) (by decide) (by decide)
  have shared := sessions "plumless" "buckeroo" actions actions nonempty.1 few.1 nonempty.2 few.2
  refine ⟨?_, (labels _ _).mpr sameChecksum, nonempty.1, few.1, nonempty.2, few.2, ?_⟩
  · intro same
    exact absurd (apart.mp same).1 (by decide)
  · intro disjoint
    exact shared.mp disjoint sameChecksum

end Session
end PageDesigner
