/- PrivateBtc/Backend/BitcoinProof
   digest: The proof builder strips, scans and converts transactions as the contract reads them. -/

import PrivateBtc.Contracts.RawTransaction
import PrivateBtc.Library.Binary64
import PrivateBtc.Library.Hex
import PrivateBtc.Library.JsText
import PrivateBtc.Library.Words

set_option autoImplicit false
set_option relaxedAutoImplicit false

namespace PrivateBtc.Backend.BitcoinProof

open Library Library.Bytes Library.Cursor Library.Outcome Library.WireFormat Library.Words
open Library.JsText (trim)
open Contracts.RawTransaction (parseOutput parseOutput_inverts parseOutput_stripped serialise_ahead
  serialise_marker)

/-- A Node buffer read of `width` bytes; the errors are Node's codes. -/
def readUIntLE (buf : List UInt8) (offset width : Nat) : Except String Nat :=
  if offset + width ≤ buf.length then
    .ok (fromLittleEndian (slice buf offset (offset + width)))
  else if buf.length < width then
    .error "ERR_BUFFER_OUT_OF_BOUNDS"
  else
    .error "ERR_OUT_OF_RANGE"

def readUInt32BE (buf : List UInt8) (offset : Nat) : UInt32 :=
  wordOfBytes (slice buf offset (offset + 4))

/-- Display text to the eight words of the internal order. -/
def hexHashToWords (hex : List Char) : Except String Words8 :=
  let buf := Hex.decode hex
  if buf.length ≠ 32 then
    .error s!"Expected 32-byte hash, got {buf.length}"
  else
    .ok (Words8.ofList ((List.range 8).map fun i => readUInt32BE buf.reverse (4 * i)))

/-- Past the end the first byte is `undefined`, so every comparison fails. -/
def readVarInt (buf : List UInt8) (offset : Nat) : Except String (Nat × Nat) :=
  match buf[offset]? with
  | some first =>
      if first < 0xfd then .ok (first.toNat, 1)
      else if first = 0xfd then do pure (← readUIntLE buf (offset + 1) 2, 3)
      else if first = 0xfe then do pure (← readUIntLE buf (offset + 1) 4, 5)
      else do pure (Binary64.ofNat (← readUIntLE buf (offset + 1) 8), 9)
  | none => do pure (Binary64.ofNat (← readUIntLE buf (offset + 1) 8), 9)

def isSegWit (buf : List UInt8) (cursor : Nat) : Bool :=
  buf[cursor]? = some 0x00 && buf[cursor + 1]? = some 0x01

/-- The loop over the inputs, the same in both parsers. -/
def skipInputs (buf : List UInt8) : Nat → Nat → Except String Nat
  | 0, cursor => pure cursor
  | remaining + 1, cursor => do
      let cursor := cursor + 36
      let (scriptLen, sl) ← readVarInt buf cursor
      skipInputs buf remaining (cursor + (sl + scriptLen + 4))

def skipOutputs (buf : List UInt8) : Nat → Nat → Except String Nat
  | 0, cursor => pure cursor
  | remaining + 1, cursor => do
      let cursor := cursor + 8
      let (scriptLen, sl) ← readVarInt buf cursor
      skipOutputs buf remaining (cursor + (sl + scriptLen))

def skipItems (buf : List UInt8) : Nat → Nat → Except String Nat
  | 0, cursor => pure cursor
  | remaining + 1, cursor => do
      let (itemLen, ilSize) ← readVarInt buf cursor
      skipItems buf remaining (cursor + (ilSize + itemLen))

def skipWitness (buf : List UInt8) : Nat → Nat → Except String Nat
  | 0, cursor => pure cursor
  | remaining + 1, cursor => do
      let (witnessItemCount, wicSize) ← readVarInt buf cursor
      let cursor ← skipItems buf witnessItemCount (cursor + wicSize)
      skipWitness buf remaining cursor

/-- The loop over the outputs, which returns at the first script that matches. -/
def scanOutputs (buf : List UInt8) (vaultScriptPubKeyHex : List Char) :
    Nat → Nat → Nat → Except String (Nat × Nat)
  | 0, _, _ =>
      .error "No output in tx pays the vault address. Did the user send to the right address?"
  | remaining + 1, vout, cursor => do
      let amountSats := Binary64.ofNat (← readUIntLE buf cursor 8)
      let cursor := cursor + 8
      let (scriptLen, sl) ← readVarInt buf cursor
      let cursor := cursor + sl
      let scriptHex := Hex.encode (slice buf cursor (cursor + scriptLen))
      if scriptHex = vaultScriptPubKeyHex then pure (vout, amountSats)
      else scanOutputs buf vaultScriptPubKeyHex remaining (vout + 1) (cursor + scriptLen)

def findVaultOutput (rawTxHex vaultScriptPubKeyHex : List Char) : Except String (Nat × Nat) := do
  let buf := Hex.decode rawTxHex
  let cursor := if isSegWit buf 4 then 4 + 2 else 4
  let (inputCount, inSz) ← readVarInt buf cursor
  let cursor ← skipInputs buf inputCount (cursor + inSz)
  let (outputCount, outSz) ← readVarInt buf cursor
  scanOutputs buf vaultScriptPubKeyHex outputCount 0 (cursor + outSz)

def stripWitnessData (rawTxHex : List Char) : Except String (List Char) :=
  let buf := Hex.decode rawTxHex
  let version := slice buf 0 4
  if isSegWit buf 4 then do
    let cursor := 4 + 2
    let (inputCount, inCountSize) ← readVarInt buf cursor
    let inputCountBytes := slice buf cursor (cursor + inCountSize)
    let inputsStart := cursor + inCountSize
    let cursor ← skipInputs buf inputCount inputsStart
    let inputs := slice buf inputsStart cursor
    let outputsStart := cursor
    let (outputCount, outCountSize) ← readVarInt buf cursor
    let cursor ← skipOutputs buf outputCount (cursor + outCountSize)
    let outputs := slice buf outputsStart cursor
    let cursor ← skipWitness buf inputCount cursor
    let locktime := slice buf cursor (cursor + 4)
    pure (Hex.encode (version ++ inputCountBytes ++ inputs ++ outputs ++ locktime))
  else
    pure rawTxHex

structure SpvProof where
  blockHeight : Nat
  txPos : Nat
  rawTxHex : List Char
  merkleProof : List Words8
  voutIndex : Nat
  amountSats : Nat

/-- The explorer's answers for one txid. -/
structure ExplorerReply where
  blockHeight : Nat
  pos : Nat
  merkle : List (List Char)
  rawTx : List Char

def buildSpvProof (reply : ExplorerReply) (vaultScriptPubKey : List Char) :
    Except String SpvProof := do
  let rawTxHex := trim reply.rawTx
  let strippedRawTxHex ← stripWitnessData rawTxHex
  let (voutIndex, amountSats) ← findVaultOutput rawTxHex vaultScriptPubKey
  let merkleProof ← reply.merkle.mapM hexHashToWords
  pure { blockHeight := reply.blockHeight, txPos := reply.pos, rawTxHex := strippedRawTxHex,
         merkleProof := merkleProof, voutIndex := voutIndex, amountSats := amountSats }

def encodeSpvProofAsCalldata (proof : SpvProof) : List UInt8 × List (List UInt32) :=
  (Hex.decode proof.rawTxHex, proof.merkleProof.map Words8.toList)

/-- Reading word by word gives the words of the buffer. -/
theorem readUInt32BE_words (count : Nat) (buf : List UInt8) (width : buf.length = 4 * count) :
    ((List.range count).map fun i => readUInt32BE buf (4 * i)) = wordsOfBytes buf := by
  induction count generalizing buf with
  | zero =>
      obtain rfl := List.eq_nil_of_length_eq_zero width
      rfl
  | succ count ih =>
      match buf, width with
      | b0 :: b1 :: b2 :: b3 :: rest, width =>
          have shorter : rest.length = 4 * count := by
            simp only [List.length_cons] at width
            omega
          rw [List.range_succ_eq_map, List.map_cons, List.map_map, wordsOfBytes, ← ih rest shorter]
          rfl

private theorem readUIntLE_ok (lead : List UInt8) {buf text : List UInt8}
    {offset start width n : Nat} (bound : n < 256 ^ width) (place : start = offset + lead.length)
    (ahead : Ahead buf offset (lead ++ (littleEndian width n ++ text))) :
    readUIntLE buf start width = .ok n := by
  have atNumber := ahead.advance
  have length := atNumber.length_eq
  rw [List.length_append, littleEndian_length] at length
  rw [readUIntLE, place, if_pos (by omega),
    atNumber.slice_eq (by rw [littleEndian_length]), fromLittleEndian_littleEndian,
    Nat.mod_eq_of_lt bound]

theorem readVarInt_ok {buf text : List UInt8} {offset n : Nat} (bound : n < 2 ^ 53)
    (ahead : Ahead buf offset (varInt n ++ text)) :
    readVarInt buf offset = .ok (n, (varInt n).length) := by
  have marked (marker : UInt8) (width : Nat) (fits : n < 256 ^ width)
      (long : Ahead buf offset (marker :: littleEndian width n ++ text)) :
      buf[offset]? = some marker ∧ readUIntLE buf (offset + 1) width = .ok n := by
    constructor
    · exact long.getElem? 0
    · have numbered : Ahead buf offset ([marker] ++ (littleEndian width n ++ text)) := long
      exact readUIntLE_ok [marker] fits rfl numbered
  unfold varInt at ahead
  split_ifs at ahead with one two four
  · have first : buf[offset]? = some (UInt8.ofNat n) := ahead.getElem? 0
    have value : (UInt8.ofNat n).toNat = n := by
      rw [UInt8.toNat_ofNat']
      omega
    have small : UInt8.ofNat n < 0xfd := by
      rw [UInt8.lt_iff_toNat_lt, value]
      exact one
    rw [varInt, if_pos one, readVarInt, first]
    dsimp only
    rw [if_pos small, value, List.length_singleton]
  · obtain ⟨first, rest⟩ := marked 0xfd 2 (by omega) ahead
    rw [varInt, if_neg one, if_pos two, readVarInt, first]
    simp [rest]
  · obtain ⟨first, rest⟩ := marked 0xfe 4 (by omega) ahead
    rw [varInt, if_neg one, if_neg two, if_pos four, readVarInt, first]
    simp [rest]
  · obtain ⟨first, rest⟩ := marked 0xff 8 (by omega) ahead
    rw [varInt, if_neg one, if_neg two, if_neg four, readVarInt, first]
    simp [rest, Binary64.ofNat_of_lt bound]

private theorem skipInputs_ok {buf text : List UInt8} (inputs : List Input) {cursor : Nat}
    (ahead : Ahead buf cursor (inputs.flatMap Input.bytes ++ text)) (short : buf.length < 2 ^ 53) :
    skipInputs buf inputs.length cursor =
      .ok (cursor + (inputs.flatMap Input.bytes).length) := by
  induction inputs generalizing cursor with
  | nil => rfl
  | cons input inputs ih =>
      simp only [List.flatMap_cons, Input.bytes, counted, List.append_assoc] at ahead
      have total := ahead.length_eq
      simp only [List.length_append, input.outpoint_length, input.sequence_length] at total
      have atScript := ahead.advance
      have atNext := atScript.advance.advance.advance
      rw [input.outpoint_length] at atScript atNext
      rw [input.sequence_length] at atNext
      have width : input.bytes.length =
          36 + (varInt input.script.length).length + input.script.length + 4 := by
        simp only [Input.bytes, counted, List.length_append, input.outpoint_length,
          input.sequence_length]
        omega
      have place : cursor + 36 + ((varInt input.script.length).length + input.script.length + 4) =
          cursor + 36 + (varInt input.script.length).length + input.script.length + 4 := by
        omega
      rw [List.length_cons, skipInputs]
      dsimp only
      rw [readVarInt_ok (by omega) atScript, ok_bind]
      dsimp only
      rw [place, ih atNext, List.flatMap_cons, List.length_append, width]
      congr 1
      omega

private theorem skipOutputs_ok {buf text : List UInt8} (outputs : List Output) {cursor : Nat}
    (ahead : Ahead buf cursor (outputs.flatMap Output.bytes ++ text))
    (short : buf.length < 2 ^ 53) :
    skipOutputs buf outputs.length cursor =
      .ok (cursor + (outputs.flatMap Output.bytes).length) := by
  induction outputs generalizing cursor with
  | nil => rfl
  | cons output outputs ih =>
      simp only [List.flatMap_cons, Output.bytes, counted, List.append_assoc] at ahead
      have total := ahead.length_eq
      simp only [List.length_append, littleEndian_length] at total
      have atScript := ahead.advance
      have atNext := atScript.advance.advance
      rw [littleEndian_length] at atScript atNext
      rw [Nat.add_assoc (cursor + 8)] at atNext
      rw [List.length_cons, skipOutputs]
      dsimp only
      rw [readVarInt_ok (by omega) atScript, ok_bind]
      dsimp only
      rw [ih atNext, List.flatMap_cons, List.length_append, Output.bytes, counted,
        List.length_append, List.length_append, littleEndian_length]
      congr 1
      omega

private theorem skipItems_ok {buf text : List UInt8} (items : List (List UInt8)) {cursor : Nat}
    (ahead : Ahead buf cursor (items.flatMap counted ++ text)) (short : buf.length < 2 ^ 53) :
    skipItems buf items.length cursor = .ok (cursor + (items.flatMap counted).length) := by
  induction items generalizing cursor with
  | nil => rfl
  | cons item items ih =>
      simp only [List.flatMap_cons, counted, List.append_assoc] at ahead
      have total := ahead.length_eq
      simp only [List.length_append] at total
      have atNext := ahead.advance.advance
      rw [Nat.add_assoc] at atNext
      rw [List.length_cons, skipItems, readVarInt_ok (by omega) ahead, ok_bind]
      dsimp only
      rw [ih atNext, List.flatMap_cons, List.length_append, counted, List.length_append]
      congr 1
      omega

private theorem skipWitness_ok {buf text : List UInt8} (witness : List (List (List UInt8)))
    {cursor : Nat} (ahead : Ahead buf cursor (witness.flatMap stackBytes ++ text))
    (short : buf.length < 2 ^ 53) :
    skipWitness buf witness.length cursor =
      .ok (cursor + (witness.flatMap stackBytes).length) := by
  induction witness generalizing cursor with
  | nil => rfl
  | cons items witness ih =>
      simp only [List.flatMap_cons, stackBytes, List.append_assoc] at ahead
      have total := ahead.length_eq
      simp only [List.length_append] at total
      have count : items.length ≤ (items.flatMap counted).length := by
        apply length_le_flatMap
        intro item
        have item_shorter := length_le_counted item
        omega
      have atItems := ahead.advance
      rw [List.length_cons, skipWitness, readVarInt_ok (by omega) ahead, ok_bind]
      dsimp only
      rw [skipItems_ok items atItems short, ok_bind, ih atItems.advance, List.flatMap_cons,
        List.length_append, stackBytes, List.length_append]
      congr 1
      omega

private theorem scanOutputs_ok {buf text S : List UInt8} (outputs : List Output)
    {vout cursor : Nat} (ahead : Ahead buf cursor (outputs.flatMap Output.bytes ++ text))
    (short : buf.length < 2 ^ 53) (amounts : ∀ output ∈ outputs, output.amount < 2 ^ 53) :
    (outputs.findIdx? (·.script == S) = none →
      scanOutputs buf (Hex.encode S) outputs.length vout cursor =
        .error "No output in tx pays the vault address. Did the user send to the right address?") ∧
    ∀ j output, outputs.findIdx? (·.script == S) = some j → outputs[j]? = some output →
      scanOutputs buf (Hex.encode S) outputs.length vout cursor =
        .ok (vout + j, output.amount) := by
  induction outputs generalizing vout cursor with
  | nil => exact ⟨fun _ => rfl, fun j output found => absurd found (by simp)⟩
  | cons output outputs ih =>
      simp only [List.flatMap_cons, Output.bytes, counted, List.append_assoc] at ahead
      have total := ahead.length_eq
      simp only [List.length_append, littleEndian_length] at total
      have atLength := ahead.advance
      have atScript := atLength.advance
      have atNext := atScript.advance
      rw [littleEndian_length] at atLength atScript atNext
      have small := amounts output List.mem_cons_self
      have round : scanOutputs buf (Hex.encode S) (output :: outputs).length vout cursor =
          if output.script = S then .ok (vout, output.amount)
          else scanOutputs buf (Hex.encode S) outputs.length (vout + 1)
            (cursor + 8 + (varInt output.script.length).length + output.script.length) := by
        have amount : readUIntLE buf cursor 8 = .ok output.amount :=
          readUIntLE_ok [] output.amount_lt rfl ahead
        rw [List.length_cons, scanOutputs, amount, ok_bind]
        dsimp only
        rw [readVarInt_ok (by omega) atLength, ok_bind]
        dsimp only
        rw [atScript.slice_eq rfl, Binary64.ofNat_of_lt small]
        by_cases paid : output.script = S
        · rw [if_pos paid, if_pos (by rw [paid]), pure_eq_ok]
        · rw [if_neg paid, if_neg fun same => paid (Hex.encode_injective same)]
      obtain ⟨missing, first⟩ := @ih (vout + 1) _ atNext
        fun other member => amounts other (List.mem_cons_of_mem _ member)
      rw [round]
      constructor
      · intro none
        rw [List.findIdx?_cons] at none
        by_cases paid : output.script = S
        · simp [paid] at none
        · rw [if_neg paid]
          apply missing
          simpa [paid] using none
      · intro j chosen found place
        rw [List.findIdx?_cons] at found
        by_cases paid : output.script = S
        · simp only [paid, beq_self_eq_true, if_true, Option.some_inj] at found
          subst found
          rw [List.getElem?_cons_zero, Option.some_inj] at place
          rw [if_pos paid, place, Nat.add_zero]
        · simp only [beq_iff_eq, paid, if_false, Option.map_eq_some_iff] at found
          obtain ⟨i, later, rfl⟩ := found
          rw [List.getElem?_cons_succ] at place
          rw [if_neg paid, first i chosen later place]
          congr 2
          omega

section Serialised

variable {parts : Parts}

private theorem isSegWit_serialise (shaped : parts.WellFormed) (withWitness : Bool) :
    isSegWit (parts.serialise withWitness) 4 = withWitness := by
  obtain ⟨b, c, fourth, fifth, marker⟩ := serialise_marker shaped withWitness
  rw [isSegWit, fourth, fifth]
  cases withWitness with
  | false =>
      have marked : b ≠ 0 := marker
      simp [marked]
  | true =>
      obtain ⟨rfl, rfl⟩ : b = 0 ∧ c = 1 := marker
      rfl

/-- Both parsers reach the outputs of either serialisation in step. -/
private theorem outputs_reached (shaped : parts.WellFormed) (withWitness : Bool)
    (short : (parts.serialise withWitness).length < 2 ^ 53) {start : Nat}
    (start_eq : start = if withWitness then 4 + 2 else 4) :
    readVarInt (parts.serialise withWitness) start =
      .ok (parts.inputs.length, (varInt parts.inputs.length).length) ∧
    ∃ reached, reached = start + (varInt parts.inputs.length).length + parts.inputBytes.length ∧
      skipInputs (parts.serialise withWitness) parts.inputs.length
        (start + (varInt parts.inputs.length).length) = .ok reached ∧
      readVarInt (parts.serialise withWitness) reached =
        .ok (parts.outputs.length, (varInt parts.outputs.length).length) ∧
      Ahead (parts.serialise withWitness) (reached + (varInt parts.outputs.length).length)
        (parts.outputs.flatMap Output.bytes ++ parts.rest withWitness) := by
  have ahead := serialise_ahead shaped withWitness
  rw [← start_eq] at ahead
  have total := ahead.length_eq
  have inputCount : parts.inputs.length ≤ parts.inputBytes.length :=
    length_le_flatMap Input.bytes Input.bytes_length_pos parts.inputs
  have outputCount : parts.outputs.length ≤ (parts.outputs.flatMap Output.bytes).length :=
    length_le_flatMap Output.bytes Output.bytes_length_pos parts.outputs
  simp only [List.length_append, Parts.outputBytes] at total
  have atInputs := ahead.advance
  have atOutputs := atInputs.advance
  rw [Parts.outputBytes, List.append_assoc] at atOutputs
  refine ⟨readVarInt_ok (by omega) ahead, _, rfl, ?_, ?_, atOutputs.advance⟩
  · exact skipInputs_ok parts.inputs atInputs short
  · exact readVarInt_ok (by omega) atOutputs

/-- Stripping removes the marker, the flag and the witness stacks, and nothing else. -/
theorem stripWitnessData_extended (shaped : parts.WellFormed)
    (stack_count : parts.witness.length = parts.inputs.length)
    (short : parts.extended.length < 2 ^ 53) {text : List Char}
    (writes : Hex.Writes text parts.extended) :
    stripWitnessData text = .ok (Hex.encode parts.stripped) := by
  have start := serialise_ahead shaped true
  have version : slice (parts.serialise true) 0 4 = parts.version :=
    (ahead_zero parts.extended).slice_eq (by rw [shaped.version_length])
  obtain ⟨count, reached, place, inputs, outputCount, atFirst⟩ :=
    outputs_reached shaped true short rfl
  rw [if_pos rfl] at start count inputs place
  have atOutputs := start.advance.advance
  rw [← place] at atOutputs
  have outputs := skipOutputs_ok parts.outputs atFirst short
  have atWitness := atFirst.advance
  rw [Parts.rest, if_pos rfl] at atWitness
  have witness := skipWitness_ok parts.witness atWitness short
  rw [stack_count] at witness
  have locktime := atWitness.advance
  rw [← List.append_nil parts.locktime] at locktime
  have decoded : Hex.decode text = parts.serialise true := writes.1
  rw [stripWitnessData, decoded]
  dsimp only
  rw [isSegWit_serialise shaped, if_pos rfl, count, ok_bind]
  dsimp only
  rw [inputs, ok_bind, outputCount, ok_bind]
  dsimp only
  rw [outputs, ok_bind, witness, ok_bind, pure_eq_ok, version, start.slice_eq rfl,
    start.advance.slice_eq place, atOutputs.slice_eq (by
      rw [Parts.outputBytes, List.length_append, Nat.add_assoc]),
    locktime.slice_eq (by rw [shaped.locktime_length])]
  simp only [Parts.stripped, List.append_assoc]

theorem stripWitnessData_stripped (shaped : parts.WellFormed) {text : List Char}
    (writes : Hex.Writes text parts.stripped) : stripWitnessData text = .ok text := by
  have plain := isSegWit_serialise shaped false
  rw [stripWitnessData, writes.1]
  dsimp only
  rw [show isSegWit parts.stripped 4 = false from plain, if_neg (by decide), pure_eq_ok]

/-- The length of a Node buffer is a safe integer. -/
def bufferMaxLength : Nat := 2 ^ 53 - 1

/-- Stripping is exact on the witness serialisation, leaves the legacy serialisation as
it is, and so changes nothing the second time. -/
theorem stripWitnessData_exact (shaped : parts.WellFormed)
    (stack_count : parts.witness.length = parts.inputs.length)
    (buffer : parts.extended.length ≤ bufferMaxLength) :
    (∀ text, Hex.Writes text parts.extended →
      stripWitnessData text = .ok (Hex.encode parts.stripped)) ∧
    (∀ text, Hex.Writes text parts.stripped → stripWitnessData text = .ok text) ∧
    ∀ withWitness text, Hex.Writes text (parts.serialise withWitness) →
      ∃ stripped, stripWitnessData text = .ok stripped ∧
        stripWitnessData stripped = .ok stripped := by
  have short : parts.extended.length < 2 ^ 53 := by
    rw [bufferMaxLength] at buffer
    omega
  refine ⟨fun text => stripWitnessData_extended shaped stack_count short,
    fun text => stripWitnessData_stripped shaped, ?_⟩
  intro withWitness text writes
  cases withWitness with
  | false =>
      have kept := stripWitnessData_stripped shaped writes
      exact ⟨text, kept, kept⟩
  | true =>
      refine ⟨_, stripWitnessData_extended shaped stack_count short writes, ?_⟩
      exact stripWitnessData_stripped shaped (Hex.encode_writes _)

end Serialised

/-- Stripping gives the text of the transaction without its witness data. -/
theorem stripWitnessData_writes (tx : Transaction) (withWitness : Bool) {text : List Char}
    (writes : Hex.Writes text (tx.serialise withWitness)) :
    ∃ stripped, stripWitnessData text = .ok stripped ∧ Hex.Writes stripped tx.stripped := by
  cases withWitness with
  | false => exact ⟨text, stripWitnessData_stripped tx.wellFormed writes, writes⟩
  | true =>
      have size := tx.size_lt
      exact ⟨_, stripWitnessData_extended tx.wellFormed tx.witness_length (by omega) writes,
        Hex.encode_writes _⟩

/-- The scan fails exactly when no output has the script, and else gives the first. -/
theorem findVaultOutput_ok (tx : Transaction) (withWitness : Bool) {text : List Char}
    (writes : Hex.Writes text (tx.serialise withWitness))
    (amounts : ∀ output ∈ tx.outputs, output.amount < 2 ^ 53) (S : List UInt8) :
    (tx.outputs.findIdx? (·.script == S) = none →
      findVaultOutput text (Hex.encode S) =
        .error "No output in tx pays the vault address. Did the user send to the right address?") ∧
    ∀ v output, tx.outputs.findIdx? (·.script == S) = some v → tx.outputs[v]? = some output →
      findVaultOutput text (Hex.encode S) = .ok (v, output.amount) := by
  have size := tx.serialise_length_lt withWitness
  have short : (tx.toParts.serialise withWitness).length < 2 ^ 53 :=
    Nat.lt_trans size (by decide)
  obtain ⟨count, reached, -, inputs, outputCount, atFirst⟩ :=
    outputs_reached tx.wellFormed withWitness short rfl
  have scan : findVaultOutput text (Hex.encode S) =
      scanOutputs (tx.toParts.serialise withWitness) (Hex.encode S) tx.outputs.length 0
        (reached + (varInt tx.outputs.length).length) := by
    have decoded : Hex.decode text = tx.toParts.serialise withWitness := writes.1
    rw [findVaultOutput, decoded]
    dsimp only
    rw [isSegWit_serialise tx.wellFormed, count, ok_bind]
    dsimp only
    rw [inputs, ok_bind, outputCount, ok_bind]
  obtain ⟨missing, first⟩ := @scanOutputs_ok _ _ S tx.outputs 0 _ atFirst short amounts
  rw [scan]
  refine ⟨missing, ?_⟩
  intro v output found place
  rw [first v output found place, Nat.zero_add]

/-- For both serialisations of every transaction the scan throws exactly when no
output has the script; otherwise the proof names the first such output, and the
contract reads the same amount and script out of the stripped bytes. -/
theorem buildSpvProof_agrees (tx : Transaction) (withWitness : Bool) (reply : ExplorerReply)
    (rawTx : Hex.Writes (trim reply.rawTx) (tx.serialise withWitness))
    (siblings : ∃ words, reply.merkle.mapM hexHashToWords = .ok words)
    (amounts : ∀ output ∈ tx.outputs, output.amount < 2 ^ 53) (S : List UInt8) :
    ((∃ e, findVaultOutput (trim reply.rawTx) (Hex.encode S) = .error e) ↔
      ∀ output ∈ tx.outputs, output.script ≠ S) ∧
    ((∃ output ∈ tx.outputs, output.script = S) →
      ∃ proof, buildSpvProof reply (Hex.encode S) = .ok proof ∧
        tx.outputs.findIdx? (·.script == S) = some proof.voutIndex ∧
        parseOutput (encodeSpvProofAsCalldata proof).1 proof.voutIndex =
          .ok (proof.amountSats, S)) := by
  obtain ⟨missing, first⟩ := findVaultOutput_ok tx withWitness rawTx amounts S
  have chosen {v : Nat} (found : tx.outputs.findIdx? (·.script == S) = some v) :
      ∃ output, tx.outputs[v]? = some output ∧ output.script = S := by
    obtain ⟨inside, paid, -⟩ := List.findIdx?_eq_some_iff_getElem.mp found
    exact ⟨_, List.getElem?_eq_getElem inside, by simpa using paid⟩
  constructor
  · constructor
    · intro failed output member paid
      obtain ⟨e, failed⟩ := failed
      cases found : tx.outputs.findIdx? (·.script == S) with
      | none =>
          have unpaid := List.findIdx?_eq_none_iff.mp found output member
          simp [paid] at unpaid
      | some v =>
          obtain ⟨output, place, -⟩ := chosen found
          rw [first v output found place] at failed
          cases failed
    · intro unpaid
      refine ⟨_, missing ?_⟩
      rw [List.findIdx?_eq_none_iff]
      intro output member
      simpa using unpaid output member
  · rintro ⟨paying, member, paid⟩
    cases found : tx.outputs.findIdx? (·.script == S) with
    | none =>
        have unpaid := List.findIdx?_eq_none_iff.mp found paying member
        simp [paid] at unpaid
    | some v =>
        obtain ⟨output, place, script⟩ := chosen found
        obtain ⟨stripped, strips, spells⟩ := stripWitnessData_writes tx withWitness rawTx
        obtain ⟨words, converted⟩ := siblings
        refine ⟨⟨reply.blockHeight, reply.pos, stripped, words, v, output.amount⟩, ?_, rfl, ?_⟩
        · rw [buildSpvProof]
          dsimp only
          rw [strips, ok_bind, first v output found place, ok_bind]
          dsimp only
          rw [converted, ok_bind, pure_eq_ok]
        · dsimp only [encodeSpvProofAsCalldata]
          rw [spells.1, parseOutput_stripped tx v output place, script]

/-- A one-input payment whose second output has the script 0x51 0x52. -/
def segwitPayment : Transaction where
  version := [2, 0, 0, 0]
  inputs := [⟨List.replicate 36 0x11, [], [0xff, 0xff, 0xff, 0xff], by decide, by decide⟩]
  outputs := [⟨1000, [0x6a], by decide⟩, ⟨2000, [0x51, 0x52], by decide⟩]
  witness := [[[0x30, 0x44], []]]
  locktime := [0, 0, 0, 0]
  version_length := by decide
  locktime_length := by decide
  inputs_ne_nil := by simp
  witness_length := by decide
  size_lt := by decide +kernel

/-- The contract reads both outputs of both serialisations of the payment. -/
theorem parseOutput_inverts_segwitPayment :
    (∀ i (inside : i < segwitPayment.outputs.length),
      parseOutput (segwitPayment.toParts.serialise true) i =
        .ok (segwitPayment.outputs[i].amount, segwitPayment.outputs[i].script)) ∧
    ∀ i, segwitPayment.outputs.length ≤ i →
      parseOutput (segwitPayment.toParts.serialise true) i = .error "vout_index out of range" :=
  parseOutput_inverts segwitPayment.wellFormed true segwitPayment.size_lt

theorem stripWitnessData_exact_segwitPayment :
    stripWitnessData (Hex.encode segwitPayment.extended) =
      .ok (Hex.encode segwitPayment.stripped) :=
  (stripWitnessData_exact segwitPayment.wellFormed segwitPayment.witness_length
    (by decide +kernel)).1 _ (Hex.encode_writes _)

theorem buildSpvProof_agrees_segwitPayment :
    (Hex.Writes (trim (Hex.encode (segwitPayment.serialise true) ++ [Char.ofNat 10]))
      (segwitPayment.serialise true) ∧
      (∀ output ∈ segwitPayment.outputs, output.amount < 2 ^ 53)) ∧
    ∃ proof, buildSpvProof ⟨7, 0, [], Hex.encode (segwitPayment.serialise true) ++ [Char.ofNat 10]⟩
        (Hex.encode [0x51, 0x52]) = .ok proof ∧
      segwitPayment.outputs.findIdx? (·.script == [0x51, 0x52]) = some proof.voutIndex ∧
      parseOutput (encodeSpvProofAsCalldata proof).1 proof.voutIndex =
        .ok (proof.amountSats, [0x51, 0x52]) := by
  have rawTx : Hex.Writes (trim (Hex.encode (segwitPayment.serialise true) ++ [Char.ofNat 10]))
      (segwitPayment.serialise true) := by
    decide +kernel
  have amounts : ∀ output ∈ segwitPayment.outputs, output.amount < 2 ^ 53 := by
    decide
  have agrees := buildSpvProof_agrees segwitPayment true
    ⟨7, 0, [], Hex.encode (segwitPayment.serialise true) ++ [Char.ofNat 10]⟩ rawTx ⟨[], rfl⟩
    amounts [0x51, 0x52]
  exact ⟨⟨rawTx, amounts⟩, agrees.2 ⟨⟨2000, [0x51, 0x52], by decide⟩, by simp [segwitPayment], rfl⟩⟩

end PrivateBtc.Backend.BitcoinProof

