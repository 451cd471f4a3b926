/- PrivateBtc/Contracts/HeaderStore
   digest: Merkle roots by height, written by the relayer only. -/

import PrivateBtc.Contracts.Corelib
import PrivateBtc.Contracts.Hashing

set_option autoImplicit false
set_option relaxedAutoImplicit false

namespace PrivateBtc.Contracts.HeaderStore

open Library.Outcome Corelib
open Hashing (Digest)

structure Event where
  height : UInt64
  merkleRootW0 : UInt32
  merkleRootW7 : UInt32
  deriving DecidableEq

/-- The eight word maps of the source are one map of digests: they are written together. -/
structure Headers where
  relayer : ContractAddress
  merkleRoots : UInt64 → Digest
  stored : UInt64 → Bool
  latestHeight : UInt64
  events : List Event

def constructor (relayer : ContractAddress) : Headers :=
  ⟨relayer, fun _ => ⟨0, 0, 0, 0, 0, 0, 0, 0⟩, fun _ => false, 0, []⟩

def storeHeader (self : Headers) (caller : ContractAddress) (height : UInt64)
    (merkleRoot : Digest) : Except String Headers := do
  assert (caller = self.relayer) "Only relayer can store headers"
  pure { self with
    merkleRoots := Function.update self.merkleRoots height merkleRoot
    stored := Function.update self.stored height true
    latestHeight := if height > self.latestHeight then height else self.latestHeight
    events := self.events ++ [⟨height, merkleRoot.w0, merkleRoot.w7⟩] }

def getMerkleRoot (self : Headers) (height : UInt64) : Except String Digest := do
  assert (self.stored height) "Header not stored for height"
  pure (self.merkleRoots height)

def isHeaderStored (self : Headers) (height : UInt64) : Bool := self.stored height

theorem getMerkleRoot_of_stored {self : Headers} {height : UInt64}
    (stored : isHeaderStored self height = true) :
    getMerkleRoot self height = .ok (self.merkleRoots height) := by
  rw [isHeaderStored] at stored
  rw [getMerkleRoot, stored]
  rfl

end PrivateBtc.Contracts.HeaderStore
