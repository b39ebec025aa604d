/-!
Identifiers for projects, pages and nodes: a seed, a dash and a counter that only moves forward. The
seed is a checksum: CRC-32 with the reflected polynomial `0xEDB88320`, all bits set at the start and
flipped at the end.
-/

namespace PageDesigner

namespace Checksum

def polynomial : UInt32 := 0xEDB88320

def shift (register : UInt32) : UInt32 :=
  if register &&& 1 = 1 then (register >>> 1) ^^^ polynomial else register >>> 1

def absorb (register : UInt32) (byte : UInt8) : UInt32 :=
  (List.range 8).foldl (fun r _ => shift r) (register ^^^ byte.toUInt32)

def crc32 (bytes : List UInt8) : UInt32 :=
  ~~~ (bytes.foldl absorb 0xFFFFFFFF)

end Checksum

def seedOfChecksum (checksum : UInt32) : String :=
  String.ofList (Nat.toDigits 16 checksum.toNat)

/-- The checksum of the label's UTF-8 bytes, in lower-case hexadecimal without leading zeros. -/
def seedFor (label : String) : String :=
  seedOfChecksum (Checksum.crc32 label.toUTF8.data.toList)

structure IdSource where
  seed : String
  minted : UInt64
  deriving DecidableEq, Repr

namespace IdSource

def ofSeed (seed : String) : IdSource := ⟨seed, 0⟩

def ofLabel (label : String) : IdSource := ofSeed (seedFor label)

def idText (seed : String) (count : Nat) : String :=
  seed ++ "-" ++ String.ofList (Nat.toDigits 10 count)

/-- The id at the current count, before the counter moves on. -/
def current (source : IdSource) : String := idText source.seed source.minted.toNat

def advance (source : IdSource) : IdSource := { source with minted := source.minted + 1 }

def mint (source : IdSource) : String × IdSource := (source.advance.current, source.advance)

def mintMany : Nat → IdSource → List String × IdSource
  | 0, source => ([], source)
  | count + 1, source =>
    let (id, next) := source.mint
    let (ids, last) := mintMany count next
    (id :: ids, last)

end IdSource
end PageDesigner
