/-! # Cyclic redundancy checks

The check of 32 bits that archives keep for each entry: the remainder of the bits, lowest first,
by the polynomial `0xEDB88320`, with the register inverted at both ends. -/

namespace ClassLowering.Checksum

/-- Takes one bit out of the register. -/
def shift (register : UInt32) : UInt32 :=
  if register &&& 1 = 1 then (register >>> 1) ^^^ 0xEDB88320 else register >>> 1

/-- Takes a byte into the register. -/
def step (register : UInt32) (byte : UInt8) : UInt32 :=
  Nat.repeat shift 8 (register ^^^ byte.toUInt32)

/-- The check of bytes. -/
def ofBytes (bytes : List UInt8) : UInt32 := bytes.foldl step 0xFFFFFFFF ^^^ 0xFFFFFFFF

end ClassLowering.Checksum
