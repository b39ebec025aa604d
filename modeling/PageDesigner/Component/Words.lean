/-!
Words of a text: the longest runs of characters that do not separate.
-/

namespace PageDesigner

def wordsOf (separates : Char → Bool) (chars : List Char) : List (List Char) :=
  (chars.splitOnP separates).filter (· ≠ [])

def capitalize : List Char → List Char
  | [] => []
  | first :: rest => first.toUpper :: rest

def isVisibleAscii (c : Char) : Bool := 0x21 ≤ c.toNat && c.toNat ≤ 0x7E

/-- A notion of whitespace. Texts and style sheets disagree on it, but every one has the blank and
none has a visible ASCII character. -/
structure Whitespace where
  separates : Char → Bool
  blank : separates ' ' = true
  visible : ∀ c, isVisibleAscii c = true → separates c = false

namespace Whitespace

/-- What separates the classes of an attribute: tab, line feed, form feed, carriage return and
blank. -/
def ofMarkup : Whitespace where
  separates c := ['\t', '\n', '\x0c', '\r', ' '].contains c
  blank := rfl
  visible c visible := by
    simp only [List.contains_eq_mem, decide_eq_false_iff_not]
    rintro member
    simp only [List.mem_cons, List.not_mem_nil, or_false] at member
    rcases member with rfl | rfl | rfl | rfl | rfl <;> cases visible

/-- First and last characters of the runs that have Unicode's property White_Space. -/
def unicodeRanges : List (Nat × Nat) :=
  [(0x09, 0x0D), (0x20, 0x20), (0x85, 0x85), (0xA0, 0xA0), (0x1680, 0x1680), (0x2000, 0x200A),
    (0x2028, 0x2029), (0x202F, 0x202F), (0x205F, 0x205F), (0x3000, 0x3000)]

def ofUnicode : Whitespace where
  separates c := unicodeRanges.any fun (first, last) => first ≤ c.toNat && c.toNat ≤ last
  blank := rfl
  visible c visible := by
    simp only [isVisibleAscii, Bool.and_eq_true, decide_eq_true_eq] at visible
    simp only [unicodeRanges, List.any_cons, List.any_nil, Bool.or_false, Bool.or_eq_false_iff,
      Bool.and_eq_false_iff, decide_eq_false_iff_not]
    omega

variable (whitespace : Whitespace)

def words (text : String) : List String :=
  (wordsOf whitespace.separates text.toList).map String.ofList

def AbsentFrom (text : String) : Prop := ∀ c ∈ text.toList, whitespace.separates c = false

instance (text : String) : Decidable (whitespace.AbsentFrom text) :=
  List.decidableBAll (fun c => whitespace.separates c = false) text.toList

end Whitespace
end PageDesigner
