/- PrivateBtc/Library/WireFormat
   digest: The wire format of Bitcoin transactions, with and without witness data. -/

import PrivateBtc.Library.Bytes

set_option autoImplicit false
set_option relaxedAutoImplicit false

namespace PrivateBtc.Library.WireFormat

open Bytes

/-- The canonical variable-length integer: the shortest form that holds the value. -/
def varInt (n : Nat) : List UInt8 :=
  if n < 0xfd then [UInt8.ofNat n]
  else if n < 0x10000 then 0xfd :: littleEndian 2 n
  else if n < 0x100000000 then 0xfe :: littleEndian 4 n
  else 0xff :: littleEndian 8 n

def counted (bytes : List UInt8) : List UInt8 := varInt bytes.length ++ bytes

structure Input where
  outpoint : List UInt8
  script : List UInt8
  sequence : List UInt8
  outpoint_length : outpoint.length = 36
  sequence_length : sequence.length = 4

structure Output where
  amount : Nat
  script : List UInt8
  amount_lt : amount < 2 ^ 64

def Input.bytes (input : Input) : List UInt8 :=
  input.outpoint ++ (counted input.script ++ input.sequence)

def Output.bytes (output : Output) : List UInt8 :=
  littleEndian 8 output.amount ++ counted output.script

def stackBytes (items : List (List UInt8)) : List UInt8 :=
  varInt items.length ++ items.flatMap counted

structure Parts where
  version : List UInt8
  inputs : List Input
  outputs : List Output
  witness : List (List (List UInt8))
  locktime : List UInt8

def Parts.inputBytes (parts : Parts) : List UInt8 := parts.inputs.flatMap Input.bytes

def Parts.outputBytes (parts : Parts) : List UInt8 :=
  varInt parts.outputs.length ++ parts.outputs.flatMap Output.bytes

def Parts.stripped (parts : Parts) : List UInt8 :=
  parts.version ++ (varInt parts.inputs.length ++ (parts.inputBytes ++
    (parts.outputBytes ++ parts.locktime)))

def Parts.extended (parts : Parts) : List UInt8 :=
  parts.version ++ ([0, 1] ++ (varInt parts.inputs.length ++ (parts.inputBytes ++
    (parts.outputBytes ++ (parts.witness.flatMap stackBytes ++ parts.locktime)))))

def Parts.serialise (parts : Parts) (withWitness : Bool) : List UInt8 :=
  if withWitness then parts.extended else parts.stripped

/-- What follows the outputs. -/
def Parts.rest (parts : Parts) (withWitness : Bool) : List UInt8 :=
  if withWitness then parts.witness.flatMap stackBytes ++ parts.locktime else parts.locktime

/-- The fixed widths hold and there is an input; sizes and witness stacks are free. -/
structure Parts.WellFormed (parts : Parts) : Prop where
  version_length : parts.version.length = 4
  locktime_length : parts.locktime.length = 4
  inputs_ne_nil : parts.inputs ≠ []

/-- A transaction has an input, one witness stack for each input, and a size
that a 32-bit length holds. -/
structure Transaction extends Parts where
  version_length : version.length = 4
  locktime_length : locktime.length = 4
  inputs_ne_nil : inputs ≠ []
  witness_length : witness.length = inputs.length
  size_lt : toParts.extended.length < 2 ^ 32

def Transaction.serialise (tx : Transaction) (withWitness : Bool) : List UInt8 :=
  if withWitness then tx.extended else tx.stripped

theorem varInt_length_pos (n : Nat) : 0 < (varInt n).length := by
  unfold varInt
  split_ifs <;> simp

theorem length_le_counted (bytes : List UInt8) : bytes.length < (counted bytes).length := by
  have positive := varInt_length_pos bytes.length
  rw [counted, List.length_append]
  omega

/-- A list whose items take at least one byte each is no longer than its bytes. -/
theorem length_le_flatMap {A : Type} (write : A → List UInt8) (some_byte : ∀ a, 0 < (write a).length)
    (items : List A) : items.length ≤ (items.flatMap write).length := by
  induction items with
  | nil => simp
  | cons a items ih =>
      have positive := some_byte a
      simp only [List.flatMap_cons, List.length_append, List.length_cons]
      omega

theorem Input.bytes_length_pos (input : Input) : 0 < input.bytes.length := by
  simp [Input.bytes, input.outpoint_length]

theorem Output.bytes_length_pos (output : Output) : 0 < output.bytes.length := by
  simp [Output.bytes]

/-- A nonempty count never starts with the zero byte of the segwit marker. -/
theorem varInt_head (n : Nat) (positive : 0 < n) :
    ∃ b rest, varInt n = b :: rest ∧ b ≠ 0 := by
  unfold varInt
  split_ifs with one
  · refine ⟨UInt8.ofNat n, [], rfl, ?_⟩
    intro zero
    have value := congrArg UInt8.toNat zero
    rw [UInt8.toNat_ofNat'] at value
    simp only [UInt8.toNat_zero] at value
    omega
  · exact ⟨0xfd, _, rfl, by decide⟩
  · exact ⟨0xfe, _, rfl, by decide⟩
  · exact ⟨0xff, _, rfl, by decide⟩

theorem Transaction.wellFormed (tx : Transaction) : tx.toParts.WellFormed :=
  ⟨tx.version_length, tx.locktime_length, tx.inputs_ne_nil⟩

theorem Transaction.stripped_length_lt (tx : Transaction) : tx.stripped.length < 2 ^ 32 := by
  have size := tx.size_lt
  simp only [Parts.stripped, Parts.extended, List.length_append] at size ⊢
  omega

theorem Transaction.serialise_length_lt (tx : Transaction) (withWitness : Bool) :
    (tx.serialise withWitness).length < 2 ^ 32 := by
  rcases withWitness with _ | _
  · exact tx.stripped_length_lt
  · exact tx.size_lt

end PrivateBtc.Library.WireFormat
