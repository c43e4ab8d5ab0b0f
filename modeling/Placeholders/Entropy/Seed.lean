import Placeholders.Entropy.Checksum
import Placeholders.Invocation

/-!
Seeds. The identity of a run enters through its checksum; a placeholder may add a number of its
own or leave the identity out.
-/

namespace Placeholders

abbrev Seed := UInt64

namespace Seed

def ofIdentity (identity : Text) : Seed :=
  .ofNat (Checksum.crc32 identity.utf8).toNat

def ofEntropy (identity : Text) (e : Entropy) : Seed :=
  if e.mixesIdentity then ofIdentity identity + e.extra else e.extra

/-- The seed of the value with this index; an index is its own offset modulo `2 ^ 64`. -/
def atIndex (seed : Seed) (index : Int64) : Seed := seed + index.toUInt64

end Seed
end Placeholders
