import Placeholders.Entropy.Seed
import Placeholders.Binary64

/-!
A stream of random words: a multiplicative congruential generator modulo `2 ^ 128` whose words are
the folded state, rotated by its highest bits.
-/

namespace Placeholders

structure RandomStream where
  state : BitVec 128
deriving Repr, DecidableEq

namespace RandomStream

def multiplier : BitVec 128 := 0x2360ED051FC65DA44385DF649FCCF645#128

/-- The seed fills the upper half of the state and a multiple of it the lower half. The two lowest
bits are set, so that every state has the longest period. -/
def ofSeed (seed : Seed) : RandomStream :=
  ⟨(seed.toBitVec ++ (seed * 0x9E3779B97F4A7C15).toBitVec) ||| 3#128⟩

def atIndex (seed : Seed) (index : Int64) : RandomStream := ofSeed (seed.atIndex index)

def advance (s : RandomStream) : RandomStream := ⟨s.state * multiplier⟩

/-- The word that a state shows. -/
def word (s : RandomStream) : UInt64 :=
  let folded := s.state.extractLsb' 64 64 ^^^ s.state.extractLsb' 0 64
  .ofBitVec (folded.rotateRight (s.state >>> 122).toNat)

/-- The state moves before it is shown. -/
def next (s : RandomStream) : UInt64 × RandomStream := (s.advance.word, s.advance)

/-- A number below `bound`. -/
def nextBelow (s : RandomStream) (bound : UInt64) : UInt64 × RandomStream :=
  (s.next.1 % bound, s.next.2)

/-- A number in the unit interval with 53 random bits. -/
def nextUnit (s : RandomStream) : Binary64 × RandomStream :=
  (.ofRatio false ((s.next.1 >>> 11).toNat * Nat.pow 2 1021) 1, s.next.2)

end RandomStream
end Placeholders
