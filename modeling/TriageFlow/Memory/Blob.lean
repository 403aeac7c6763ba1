import TriageFlow.Memory.Similarity

/-!
Vectors as they are kept: the 32 bits of every component in four bytes, the lowest byte first. Bits
tell the NaNs apart, which are one float here, so what is kept is said in bits and not in floats.
-/

namespace TriageFlow

namespace Vector32

/-- The bits of the components. -/
def bits (v : Vector32) : List UInt32 := v.map Float32.toBits

/-- The vector with some components. -/
def ofBits (bits : List UInt32) : Vector32 := bits.map Float32.ofBits

end Vector32

/-- The bytes of a kept vector. -/
abbrev Blob := List UInt8

namespace Blob

/-- The bytes of one component. -/
def ofWord (w : UInt32) : Blob :=
  [w.toUInt8, (w >>> 8).toUInt8, (w >>> 16).toUInt8, (w >>> 24).toUInt8]

/-- The component with some bytes. -/
def word (a b c d : UInt8) : UInt32 :=
  a.toUInt32 ||| b.toUInt32 <<< 8 ||| c.toUInt32 <<< 16 ||| d.toUInt32 <<< 24

/-- The bytes of a vector. -/
def ofBits (bits : List UInt32) : Blob := bits.flatMap ofWord

/-- The components that bytes hold; bytes that do not make up a component are left. -/
def bits : Blob → List UInt32
  | a :: b :: c :: d :: rest => word a b c d :: bits rest
  | _ => []

end Blob

end TriageFlow
