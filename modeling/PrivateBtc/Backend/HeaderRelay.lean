/- PrivateBtc/Backend/HeaderRelay
   digest: Relayed roots and Electrum paths, in the byte orders the contract's check expects. -/

import PrivateBtc.Backend.BitcoinProof
import PrivateBtc.Contracts.MerkleProof

set_option autoImplicit false
set_option relaxedAutoImplicit false

namespace PrivateBtc.Backend.HeaderRelay

open Library Library.Cursor Library.Words
open Library.HashTree (branch height)
open BitcoinProof (readUInt32BE readUInt32BE_words hexHashToWords)
open Contracts.Hashing (Digest HashFunction)
open Contracts.MerkleProof (hashPair hashPair_eq nodeBytes verifyMerkleProof verifyMerkleProof_iff)

/-- The root's bytes as they stand in the header, as eight big-endian words. -/
def merkleRootToU32Array (merkleRootHex : List Char) : Except String Words8 :=
  let bytes := Hex.decode merkleRootHex
  if bytes.length ≠ 32 then
    .error s!"Bad merkle root length: {bytes.length}"
  else
    .ok (Words8.ofList ((List.range 8).map fun i => readUInt32BE bytes (4 * i)))

def parseMerkleRootFromHeader (headerHex : List Char) : Except String (List Char) :=
  if headerHex.length ≠ 160 then
    .error s!"Bad header hex length: {headerHex.length}"
  else
    .ok (slice headerHex 72 136)

/-- A 32-byte digest in the internal byte order. -/
abbrev Bytes32 := { bytes : List UInt8 // bytes.length = 32 }

def words (digest : Bytes32) : Digest := Words8.ofBytes digest.val

/-- A hash of byte strings, read by the contract as eight words. -/
def asWords (H : List UInt8 → Bytes32) : HashFunction := fun message => words (H message)

/-- An inner node of the Bitcoin tree. -/
def node (H : List UInt8 → Bytes32) (left right : Bytes32) : Bytes32 := H (left.val ++ right.val)

theorem words_bytes (digest : Bytes32) : (words digest).bytes = digest.val :=
  Words8.bytes_ofBytes digest.property

theorem words_node (H : List UInt8 → Bytes32) (left right : Bytes32) :
    words (node H left right) = hashPair (asWords H) (words left) (words right) := by
  rw [hashPair_eq, nodeBytes, words_bytes, words_bytes]
  rfl

/-- Display text of a digest becomes the digest's words. -/
theorem hexHashToWords_display {text : List Char} (digest : Bytes32)
    (display : Hex.Writes text digest.val.reverse) : hexHashToWords text = .ok (words digest) := by
  unfold hexHashToWords
  rw [display.1, if_neg (by simp [digest.property]), List.reverse_reverse,
    readUInt32BE_words 8 digest.val digest.property]
  rfl

/-- The text of a root's bytes becomes the root's words. -/
theorem merkleRootToU32Array_writes {rootHex : List Char} {root : Bytes32}
    (writes : Hex.Writes rootHex root.val) : merkleRootToU32Array rootHex = .ok (words root) := by
  unfold merkleRootToU32Array
  rw [writes.1, if_neg (by simp [root.property]), readUInt32BE_words 8 root.val root.property]
  rfl

/-- The root that a header carries at bytes 36 to 68 becomes its words. -/
theorem merkleRoot_relayed {headerHex : List Char} {header : List UInt8} (root : Bytes32)
    (writes : Hex.Writes headerHex header) (width : header.length = 80)
    (carries : slice header 36 68 = root.val) :
    ∃ rootHex, parseMerkleRootFromHeader headerHex = .ok rootHex ∧
      merkleRootToU32Array rootHex = .ok (words root) := by
  have length : headerHex.length = 160 := by rw [writes.2, width]
  have cut : Hex.Writes (slice headerHex 72 136) root.val := by
    have piece := writes.slice 36 32 (by omega)
    rw [← slice_eq_take_drop, ← slice_eq_take_drop, carries] at piece
    exact piece
  refine ⟨slice headerHex 72 136, ?_, merkleRootToU32Array_writes cut⟩
  rw [parseMerkleRootFromHeader, if_neg (by omega)]

theorem mapM_display {texts : List (List Char)} {path : List Bytes32}
    (display : List.Forall₂ (fun text digest => Hex.Writes text digest.val.reverse) texts path) :
    texts.mapM hexHashToWords = .ok (path.map words) := by
  induction display with
  | nil => rfl
  | cons first _ ih => rw [List.mapM_cons, hexHashToWords_display _ first, Outcome.ok_bind, ih]; rfl

/-- From the explorer's path and header to the contract: for every hash, every list
of txids and every position, the converted path is accepted against the relayed root. -/
theorem verifyMerkleProof_relayed (H : List UInt8 → Bytes32) (txids : List Bytes32) (pos : UInt64)
    (txid : Bytes32) (leaf : txids[pos.toNat]? = some txid) (root : Bytes32)
    (top : HashTree.root (node H) txids = some root) (header : List UInt8)
    (width : header.length = 80) (carries : slice header 36 68 = root.val) (headerHex : List Char)
    (writes : Hex.Writes headerHex header) (merkle : List (List Char))
    (display : List.Forall₂ (fun text digest => Hex.Writes text digest.val.reverse) merkle
      (branch (node H) (height txids.length) txids pos.toNat)) :
    ∃ proof rootHex rootWords, merkle.mapM hexHashToWords = .ok proof ∧
      parseMerkleRootFromHeader headerHex = .ok rootHex ∧
      merkleRootToU32Array rootHex = .ok rootWords ∧
      verifyMerkleProof (asWords H) (words txid) proof pos rootWords = true := by
  obtain ⟨rootHex, parsed, converted⟩ := merkleRoot_relayed root writes width carries
  refine ⟨_, rootHex, words root, mapM_display display, parsed, converted, ?_⟩
  have climbs := ((HashTree.root_eq_some (node H) txids root).mp top).2
  rw [verifyMerkleProof_iff, HashTree.fold_map (node H) (words_node H),
    HashTree.fold_branch (node H) _ txids pos.toNat txid root climbs leaf]

def bitcoinDouble (message : List UInt8) : Bytes32 :=
  ⟨(Contracts.Hashing.bitcoinHash Sha256.sha256 message).bytes, by simp⟩

/-- Three txids: the last is paired with itself. -/
def threeTxids : List Bytes32 := [bitcoinDouble [1], bitcoinDouble [2], bitcoinDouble [3]]

def threeRoot : Bytes32 :=
  node bitcoinDouble (node bitcoinDouble (bitcoinDouble [1]) (bitcoinDouble [2]))
    (node bitcoinDouble (bitcoinDouble [3]) (bitcoinDouble [3]))

def threeHeader : List UInt8 := List.replicate 36 7 ++ threeRoot.val ++ List.replicate 12 9

theorem verifyMerkleProof_relayed_three :
    ∃ proof rootHex rootWords,
      ((branch (node bitcoinDouble) (height threeTxids.length) threeTxids 2).map
        fun digest => Hex.encode digest.val.reverse).mapM hexHashToWords = .ok proof ∧
      parseMerkleRootFromHeader (Hex.encode threeHeader) = .ok rootHex ∧
      merkleRootToU32Array rootHex = .ok rootWords ∧
      verifyMerkleProof (asWords bitcoinDouble) (words (bitcoinDouble [3])) proof 2 rootWords =
        true := by
  have top : HashTree.root (node bitcoinDouble) threeTxids = some threeRoot := rfl
  have width : threeHeader.length = 80 := by simp [threeHeader, threeRoot.property]
  have carries : slice threeHeader 36 68 = threeRoot.val := by
    have ahead := (ahead_zero threeHeader)
    rw [threeHeader, List.append_assoc] at ahead
    have atRoot := ahead.advance
    rw [List.length_replicate, Nat.zero_add] at atRoot
    rw [threeHeader, List.append_assoc]
    exact atRoot.slice_eq (by rw [threeRoot.property])
  apply verifyMerkleProof_relayed bitcoinDouble threeTxids 2 (bitcoinDouble [3]) rfl threeRoot top
    threeHeader width carries _ (Hex.encode_writes threeHeader)
  rw [List.forall₂_map_left_iff, show UInt64.toNat 2 = 2 from rfl, List.forall₂_same]
  intro digest _
  exact Hex.encode_writes _

end PrivateBtc.Backend.HeaderRelay
