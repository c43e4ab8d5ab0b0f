/-!
The cyclic redundancy check of 32 bits with the reflected polynomial `0xEDB88320`, started and ended
with all bits inverted.
-/

namespace Placeholders.Checksum

/-- One division step: the lowest bit leaves the register. -/
def shiftOut (register : BitVec 32) : BitVec 32 :=
  if register.getLsbD 0 then (register >>> 1) ^^^ 0xEDB88320#32 else register >>> 1

def feed (register : BitVec 32) (byte : UInt8) : BitVec 32 :=
  Nat.repeat shiftOut 8 (register ^^^ byte.toBitVec.setWidth 32)

def crc32 (bytes : List UInt8) : BitVec 32 :=
  ~~~ bytes.foldl feed (BitVec.allOnes 32)

end Placeholders.Checksum
