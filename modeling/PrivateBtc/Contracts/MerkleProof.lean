/- PrivateBtc/Contracts/MerkleProof
   digest: The contract's Merkle check accepts more than the transactions of the block. -/

import PrivateBtc.Contracts.Hashing
import PrivateBtc.Library.HashTree

set_option autoImplicit false
set_option relaxedAutoImplicit false

namespace PrivateBtc.Contracts.MerkleProof

open Library.Bytes Library.Words
open Library.HashTree (pairs parents height ordered fold foldPairs treePairs slot branch)
open Library.Sha256 (sha256)
open Hashing

/-- Append the eight words as 32 bytes. -/
def appendHashAsBytes (arr : List UInt8) (hash : Digest) : List UInt8 :=
  hash.toList.foldl pushU32Be arr

/-- `double_sha256(left_bytes || right_bytes)`. -/
def hashPair (doubleSha : HashFunction) (left right : Digest) : Digest :=
  doubleSha (appendHashAsBytes (appendHashAsBytes [] left) right)

def arraysEq8 (a b : Digest) : Bool :=
  a.w0 == b.w0 && a.w1 == b.w1 && a.w2 == b.w2 && a.w3 == b.w3 &&
    a.w4 == b.w4 && a.w5 == b.w5 && a.w6 == b.w6 && a.w7 == b.w7

/-- One round of the loop: combine with the sibling, then halve the index. -/
def proofStep (doubleSha : HashFunction) (state : Digest × UInt64) (sibling : Digest) :
    Digest × UInt64 :=
  (if state.2 % 2 == 0 then hashPair doubleSha state.1 sibling
    else hashPair doubleSha sibling state.1, state.2 / 2)

def verifyMerkleProof (doubleSha : HashFunction) (txid : Digest) (proof : List Digest)
    (pos : UInt64) (merkleRoot : Digest) : Bool :=
  arraysEq8 (proof.foldl (proofStep doubleSha) (txid, pos)).1 merkleRoot

/-- The 64 bytes under an interior node. -/
def nodeBytes (p : Digest × Digest) : List UInt8 := p.1.bytes ++ p.2.bytes

theorem arraysEq8_iff (a b : Digest) : arraysEq8 a b = true ↔ a = b := by
  cases a
  cases b
  simp [arraysEq8, and_assoc]

theorem hashPair_eq (doubleSha : HashFunction) (left right : Digest) :
    hashPair doubleSha left right = doubleSha (nodeBytes (left, right)) := by
  rw [hashPair, nodeBytes, appendHashAsBytes, appendHashAsBytes, foldl_pushU32Be_toList,
    foldl_pushU32Be_append]

theorem nodeBytes_injective {p q : Digest × Digest} (same : nodeBytes p = nodeBytes q) : p = q :=
  Prod.ext_iff.mpr (Words8.bytes_append_injective same)

private theorem foldl_proofStep (doubleSha : HashFunction) (proof : List Digest) (txid : Digest)
    (pos : UInt64) : (proof.foldl (proofStep doubleSha) (txid, pos)).1 =
      fold (hashPair doubleSha) txid proof pos.toNat := by
  induction proof generalizing txid pos with
  | nil => rfl
  | cons sibling proof ih =>
      have halved : (pos / 2).toNat = pos.toNat / 2 := by simp
      have parity : (pos % 2 == 0) = decide (pos.toNat % 2 = 0) := by
        rw [Bool.eq_iff_iff, beq_iff_eq, decide_eq_true_eq, ← UInt64.toNat_inj]
        simp
      rw [List.foldl_cons, proofStep, ih, halved, fold, ordered, parity]
      by_cases even : pos.toNat % 2 = 0 <;> simp [even]

/-- The check accepts exactly when the fold over the siblings gives the root. -/
theorem verifyMerkleProof_iff (doubleSha : HashFunction) (txid : Digest) (proof : List Digest)
    (pos : UInt64) (merkleRoot : Digest) :
    verifyMerkleProof doubleSha txid proof pos merkleRoot = true ↔
      fold (hashPair doubleSha) txid proof pos.toNat = merkleRoot := by
  rw [verifyMerkleProof, arraysEq8_iff, foldl_proofStep]

section Soundness

variable (H : HashFunction)

/-- The nodes of the block's tree at a level above the leaves. -/
def level (T : List (List UInt8)) (up : Nat) : List Digest :=
  (parents (hashPair H))^[up] (T.map H)

/-- The Merkle root of a block of serialised transactions. -/
def blockRoot (T : List (List UInt8)) : Option Digest :=
  Library.HashTree.root (hashPair H) (T.map H)

/-- The strings hashed to build the tree of a block. -/
def treeStrings (T : List (List UInt8)) : List (List UInt8) :=
  T ++ (treePairs (hashPair H) (height T.length) (T.map H)).map nodeBytes

/-- The strings hashed to check a proof. -/
def checkStrings (raw : List UInt8) (proof : List Digest) (pos : UInt64) : List (List UInt8) :=
  raw :: (foldPairs (hashPair H) (H raw) proof pos.toNat).map nodeBytes

def CollisionFree (strings : List (List UInt8)) : Prop :=
  ∀ s ∈ strings, ∀ t ∈ strings, H s = H t → s = t

/-- Whatever the check accepts with `k` siblings at this position is the
block's transaction there, as long as no two hashed strings collide. -/
def Sound (T : List (List UInt8)) (k : Nat) (pos : UInt64) : Prop :=
  ∀ (raw : List UInt8) (proof : List Digest) (root : Digest), proof.length = k →
    CollisionFree H (treeStrings H T ++ checkStrings H raw proof pos) →
    blockRoot H T = some root →
    verifyMerkleProof H (H raw) proof pos root = true →
    pos.toNat < T.length ∧ T[pos.toNat]? = some raw

/-- The 64 bytes under the interior node that `k` siblings lead to. -/
def interior (T : List (List UInt8)) (k : Nat) (pos : UInt64) : Option (List UInt8) :=
  let below := level H T (height T.length - k - 1)
  (pairs below)[slot ((below.length + 1) / 2) k pos.toNat]?.map nodeBytes

/-- The transaction whose leaf is met `extra` siblings up. -/
def metLeaf (T : List (List UInt8)) (extra : Nat) (pos : UInt64) : Option (List UInt8) :=
  T[slot T.length (height T.length) (pos.toNat / 2 ^ extra)]?

/-- No string other than the block's transaction hashes, through `siblings`, into
one half of the 64-byte transaction whose leaf the proof passes on its way up. -/
def Unopened (T : List (List UInt8)) (extra : Nat) (pos : UInt64) : Prop :=
  ∀ (raw : List UInt8) (siblings : List Digest), siblings.length = extra →
    CollisionFree H (treeStrings H T ++ checkStrings H raw siblings pos) →
    ((foldPairs (hashPair H) (H raw) siblings pos.toNat).getLast?.map nodeBytes =
      metLeaf T extra pos) →
    T[pos.toNat]? = some raw

/-- The blocks, proof lengths and positions at which the check is exact. -/
def Exact (T : List (List UInt8)) (k : Nat) (pos : UInt64) : Prop :=
  if k = height T.length then pos.toNat < T.length
  else if k < height T.length then
    ∃ s, interior H T k pos = some s ∧ T[pos.toNat]? = some s
  else Unopened H T (k - height T.length) pos

theorem blockRoot_eq_some (T : List (List UInt8)) (root : Digest) :
    blockRoot H T = some root ↔ T ≠ [] ∧ level H T (height T.length) = [root] := by
  rw [blockRoot, Library.HashTree.root_eq_some, List.length_map, level]
  simp

theorem level_add (T : List (List UInt8)) (j k : Nat) :
    (parents (hashPair H))^[k] (level H T j) = level H T (j + k) := by
  rw [level, level, Nat.add_comm, Function.iterate_add_apply]

private theorem collisionFree_mono {small large : List (List UInt8)} (free : CollisionFree H large)
    (subset : small ⊆ large) : CollisionFree H small :=
  fun s inS t inT => free s (subset inS) t (subset inT)

/-- Pairs whose bytes do not collide are told apart by their hash. -/
private theorem pair_eq_of_hash_eq {strings : List (List UInt8)} (free : CollisionFree H strings)
    {p q : Digest × Digest} (inP : nodeBytes p ∈ strings) (inQ : nodeBytes q ∈ strings)
    (same : hashPair H p.1 p.2 = hashPair H q.1 q.2) : p = q := by
  rw [hashPair_eq, hashPair_eq] at same
  exact nodeBytes_injective (free _ inP _ inQ same)

/-- What an accepted proof of `k` siblings starts at, on the level `k` below the root. -/
private theorem node_of_fold {T : List (List UInt8)} {start root : Digest} {proof : List Digest}
    {index j k : Nat} (levels : j + k = height T.length) (count : proof.length = k)
    (top : level H T (height T.length) = [root])
    (opens : fold (hashPair H) start proof index = root) {strings : List (List UInt8)}
    (free : CollisionFree H strings) (tree : treeStrings H T ⊆ strings)
    (check : (foldPairs (hashPair H) start proof index).map nodeBytes ⊆ strings) :
    (level H T j)[slot (level H T j).length k index]? = some start := by
  have above : (parents (hashPair H))^[k] (level H T j) = [root] := by
    rw [level_add, levels, top]
  refine Library.HashTree.slot_of_fold_eq _ k _ start proof index root above count ?_ opens
  intro p met q own same
  have inTree : q ∈ treePairs (hashPair H) (height T.length) (T.map H) := by
    rw [← levels, Library.HashTree.treePairs_add]
    exact List.mem_append_right _ own
  exact pair_eq_of_hash_eq H free (check (List.mem_map_of_mem met))
    (tree (List.mem_append_right _ (List.mem_map_of_mem inTree))) same

/-- Every node has a proof from its level, which hashes only strings of the tree. -/
private theorem fold_of_node {T : List (List UInt8)} {root : Digest} {j k : Nat}
    (index : Nat) (levels : j + k = height T.length) (top : level H T (height T.length) = [root]) :
    ∃ start proof, (level H T j)[slot (level H T j).length k index]? = some start ∧
      proof.length = k ∧ fold (hashPair H) start proof index = root ∧
      (foldPairs (hashPair H) start proof index).map nodeBytes ⊆ treeStrings H T := by
  have above : (parents (hashPair H))^[k] (level H T j) = [root] := by
    rw [level_add, levels, top]
  obtain ⟨start, proof, node, count, opens, own⟩ :=
    Library.HashTree.exists_fold_eq _ k (level H T j) index root above
  refine ⟨start, proof, node, count, opens, ?_⟩
  intro s met
  obtain ⟨p, inFold, rfl⟩ := List.mem_map.mp met
  refine List.mem_append_right _ (List.mem_map_of_mem ?_)
  rw [← levels, Library.HashTree.treePairs_add]
  exact List.mem_append_right _ (own p inFold)

/-- At full length the check is exact for the positions inside the block. -/
private theorem sound_iff_full {T : List (List UInt8)} (nonempty : T ≠ [])
    (own : CollisionFree H (treeStrings H T)) (pos : UInt64) :
    Sound H T (height T.length) pos ↔ pos.toNat < T.length := by
  constructor
  · intro sound
    obtain ⟨root, found⟩ := Library.HashTree.root_isSome (hashPair H) (T.map H) (by simpa)
    have top := ((blockRoot_eq_some H T root).mp found).2
    obtain ⟨start, proof, node, count, opens, strings⟩ :=
      fold_of_node H pos.toNat (Nat.zero_add _) top
    rw [level, Function.iterate_zero_apply, List.getElem?_map, Option.map_eq_some_iff] at node
    obtain ⟨raw, leaf, rfl⟩ := node
    have subset : treeStrings H T ++ checkStrings H raw proof pos ⊆ treeStrings H T := by
      simp only [List.append_subset, checkStrings, List.cons_subset]
      exact ⟨fun s inS => inS, List.mem_append_left _ (List.mem_of_getElem? leaf), strings⟩
    exact (sound raw proof root count (collisionFree_mono H own subset) found
      ((verifyMerkleProof_iff H _ _ _ _).mpr opens)).1
  · intro inside raw proof root count free found accepted
    have top := ((blockRoot_eq_some H T root).mp found).2
    have opens := (verifyMerkleProof_iff H _ _ _ _).mp accepted
    have node := node_of_fold H (Nat.zero_add _) count top opens free
      (List.subset_append_left _ _)
      (fun s inS => List.mem_append_right _ (List.mem_cons_of_mem _ inS))
    rw [level, Function.iterate_zero_apply, List.length_map,
      Library.HashTree.slot_of_lt _ _ _ inside (Library.HashTree.le_two_pow_height _),
      List.getElem?_map, Option.map_eq_some_iff] at node
    obtain ⟨s, leaf, same⟩ := node
    have equal : s = raw := free s
      (List.mem_append_left _ (List.mem_append_left _ (List.mem_of_getElem? leaf))) raw
      (List.mem_append_right _ List.mem_cons_self) same
    rw [equal] at leaf
    exact ⟨inside, leaf⟩

private theorem level_succ_getElem? (T : List (List UInt8)) (j i : Nat) :
    (level H T (j + 1))[i]? = ((pairs (level H T j))[i]?.map nodeBytes).map H := by
  have node : (fun p => hashPair H p.1 p.2) = H ∘ nodeBytes := by
    funext p
    exact hashPair_eq H p.1 p.2
  rw [← level_add, Function.iterate_one, parents, List.getElem?_map, Option.map_map, node]

/-- A short proof opens an interior node, whose 64 bytes then pass for a transaction. -/
private theorem sound_iff_short {T : List (List UInt8)} (nonempty : T ≠ [])
    (own : CollisionFree H (treeStrings H T)) {k : Nat} (short : k < height T.length)
    (pos : UInt64) :
    Sound H T k pos ↔ ∃ s, interior H T k pos = some s ∧ T[pos.toNat]? = some s := by
  have levels : height T.length - k - 1 + 1 + k = height T.length := by omega
  have below : (level H T (height T.length - k - 1 + 1)).length =
      ((level H T (height T.length - k - 1)).length + 1) / 2 := by
    rw [← level_add, Function.iterate_one, Library.HashTree.parents_length]
  have interior_mem {s : List UInt8} (found : interior H T k pos = some s) :
      s ∈ treeStrings H T := by
    obtain ⟨p, inPairs, rfl⟩ := Option.map_eq_some_iff.mp found
    refine List.mem_append_right _ (List.mem_map_of_mem ?_)
    rw [← levels, Nat.add_assoc, Library.HashTree.treePairs_add, Nat.add_comm 1 k, treePairs]
    exact List.mem_append_right _ (List.mem_append_left _ (List.mem_of_getElem? inPairs))
  constructor
  · intro sound
    obtain ⟨root, found⟩ := Library.HashTree.root_isSome (hashPair H) (T.map H) (by simpa)
    have top := ((blockRoot_eq_some H T root).mp found).2
    obtain ⟨start, proof, node, count, opens, strings⟩ :=
      fold_of_node H pos.toNat levels top
    rw [level_succ_getElem?, below, Option.map_eq_some_iff] at node
    obtain ⟨raw, inTree, rfl⟩ := node
    have subset : treeStrings H T ++ checkStrings H raw proof pos ⊆ treeStrings H T := by
      simp only [List.append_subset, checkStrings, List.cons_subset]
      exact ⟨fun s inS => inS, interior_mem inTree, strings⟩
    exact ⟨raw, inTree, (sound raw proof root count (collisionFree_mono H own subset) found
      ((verifyMerkleProof_iff H _ _ _ _).mpr opens)).2⟩
  · rintro ⟨s, inTree, leaf⟩ raw proof root count free found accepted
    have top := ((blockRoot_eq_some H T root).mp found).2
    have opens := (verifyMerkleProof_iff H _ _ _ _).mp accepted
    have node := node_of_fold H levels count top opens free
      (List.subset_append_left _ _)
      (fun s inS => List.mem_append_right _ (List.mem_cons_of_mem _ inS))
    have same_place : (pairs (level H T (height T.length - k - 1)))[slot
        (((level H T (height T.length - k - 1)).length + 1) / 2) k pos.toNat]?.map nodeBytes =
        some s := inTree
    rw [level_succ_getElem?, below, same_place, Option.map_some, Option.some_inj] at node
    have equal : s = raw := free s (List.mem_append_left _ (interior_mem inTree)) raw
      (List.mem_append_right _ List.mem_cons_self) node
    rw [equal] at leaf
    exact ⟨(List.getElem?_eq_some_iff.mp leaf).1, leaf⟩

private theorem checkStrings_append (raw : List UInt8) (front back : List Digest) (pos : UInt64) :
    checkStrings H raw (front ++ back) pos = checkStrings H raw front pos ++
      (foldPairs (hashPair H) (fold (hashPair H) (H raw) front pos.toNat) back
        (pos.toNat / 2 ^ front.length)).map nodeBytes := by
  rw [checkStrings, Library.HashTree.foldPairs_append, List.map_append]
  rfl

/-- What siblings lead to is the hash of the last 64 bytes that were put together. -/
private theorem last_opened (raw : List UInt8) {siblings : List Digest} (some_ : siblings ≠ [])
    (index : Nat) :
    ∃ p, (foldPairs (hashPair H) (H raw) siblings index).getLast? = some p ∧
      fold (hashPair H) (H raw) siblings index = H (nodeBytes p) := by
  cases siblings with
  | nil => exact absurd rfl some_
  | cons s siblings =>
      obtain ⟨p, last, value⟩ := Library.HashTree.foldPairs_getLast? (hashPair H) (H raw) s
        siblings index
      exact ⟨p, last, value.trans (hashPair_eq H p.1 p.2)⟩

/-- Where such a string exists, its siblings and the leaf's own path make a proof of it. -/
private theorem unopened_of_sound {T : List (List UInt8)} (nonempty : T ≠ []) {k : Nat}
    (long : height T.length < k) {pos : UInt64} (sound : Sound H T k pos) :
    Unopened H T (k - height T.length) pos := by
  intro raw siblings count free met
  have some_ : siblings ≠ [] := by
    rintro rfl
    rw [List.length_nil] at count
    omega
  obtain ⟨root, found⟩ := Library.HashTree.root_isSome (hashPair H) (T.map H) (by simpa)
  have top := ((blockRoot_eq_some H T root).mp found).2
  obtain ⟨start, path, node, length, opens, strings⟩ := fold_of_node H
    (pos.toNat / 2 ^ (k - height T.length)) (Nat.zero_add _) top
  obtain ⟨p, last, folded⟩ := last_opened H raw some_ pos.toNat
  rw [last, Option.map_some] at met
  rw [level, Function.iterate_zero_apply, List.length_map, List.getElem?_map,
    ← metLeaf, ← met, Option.map_some, Option.some_inj, ← folded] at node
  have accepted : fold (hashPair H) (H raw) (siblings ++ path) pos.toNat = root := by
    rw [Library.HashTree.fold_append, node, count]
    exact opens
  have total : (siblings ++ path).length = k := by
    rw [List.length_append, count, length]
    omega
  have free' : CollisionFree H (treeStrings H T ++
      checkStrings H raw (siblings ++ path) pos) := by
    refine collisionFree_mono H free ?_
    rw [checkStrings_append, node, count, ← List.append_assoc]
    refine List.append_subset.mpr ⟨List.Subset.refl _, ?_⟩
    exact fun t inPath => List.mem_append_left _ (strings inPath)
  have verified := (verifyMerkleProof_iff H _ _ _ _).mpr accepted
  exact (sound raw (siblings ++ path) root total free' found verified).2

/-- An accepted proof passes the leaf, whose transaction is then the last 64 bytes before it. -/
private theorem sound_of_unopened {T : List (List UInt8)} {k : Nat} (long : height T.length < k)
    {pos : UInt64} (unopened : Unopened H T (k - height T.length) pos) : Sound H T k pos := by
  intro raw proof root count free found accepted
  have top := ((blockRoot_eq_some H T root).mp found).2
  have opens := (verifyMerkleProof_iff H _ _ _ _).mp accepted
  obtain ⟨front, back, rfl, frontLength, backLength⟩ : ∃ front back,
      proof = front ++ back ∧ front.length = k - height T.length ∧
        back.length = height T.length := by
    refine ⟨proof.take (k - height T.length), proof.drop (k - height T.length),
      (List.take_append_drop _ _).symm, ?_, ?_⟩
    · rw [List.length_take]
      omega
    · rw [List.length_drop]
      omega
  have some_ : front ≠ [] := by
    rintro rfl
    rw [List.length_nil] at frontLength
    omega
  rw [Library.HashTree.fold_append, frontLength] at opens
  have split := checkStrings_append H raw front back pos
  rw [frontLength] at split
  have node := node_of_fold H (Nat.zero_add _) backLength top opens free
    (List.subset_append_left _ _) (by
      intro t inPath
      rw [split]
      exact List.mem_append_right _ (List.mem_append_right _ inPath))
  rw [level, Function.iterate_zero_apply, List.length_map, List.getElem?_map,
    Option.map_eq_some_iff] at node
  obtain ⟨leaf, place, same⟩ := node
  have frontFree : CollisionFree H (treeStrings H T ++ checkStrings H raw front pos) := by
    refine collisionFree_mono H free ?_
    rw [split, ← List.append_assoc]
    exact List.subset_append_left _ _
  obtain ⟨p, last, folded⟩ := last_opened H raw some_ pos.toNat
  have inCheck : nodeBytes p ∈ checkStrings H raw front pos :=
    List.mem_cons_of_mem _ (List.mem_map_of_mem (List.mem_of_getLast? last))
  have equal : leaf = nodeBytes p := frontFree leaf
    (List.mem_append_left _ (List.mem_append_left _ (List.mem_of_getElem? place))) _
    (List.mem_append_right _ inCheck) (same.trans folded)
  have found_at := unopened raw front frontLength frontFree (by
    rw [last, Option.map_some, metLeaf, place, equal])
  exact ⟨(List.getElem?_eq_some_iff.mp found_at).1, found_at⟩

/-- A long proof passes the leaf that its first `extra` siblings lead to. -/
private theorem sound_iff_long {T : List (List UInt8)} (nonempty : T ≠ []) {k : Nat}
    (long : height T.length < k) (pos : UInt64) :
    Sound H T k pos ↔ Unopened H T (k - height T.length) pos :=
  ⟨unopened_of_sound H nonempty long, sound_of_unopened H long⟩

/-- The check is sound for a block, a proof length and a position exactly when the
length is the height of the tree and the position is inside the block, or, at
another length, when the node or the leaf met on the way cannot be opened as
anything but the transaction at that position. -/
theorem sound_iff_exact (T : List (List UInt8)) (k : Nat) (pos : UInt64) (nonempty : T ≠ [])
    (own : CollisionFree H (treeStrings H T)) : Sound H T k pos ↔ Exact H T k pos := by
  rw [Exact]
  rcases Nat.lt_trichotomy k (height T.length) with short | rfl | long
  · rw [if_neg (by omega), if_pos short]
    exact sound_iff_short H nonempty own short pos
  · rw [if_pos rfl]
    exact sound_iff_full H nonempty own pos
  · rw [if_neg (by omega), if_neg (by omega)]
    exact sound_iff_long H nonempty long pos

end Soundness

section Binding

variable (H : HashFunction)

/-- The pairs that `hash_pair` combines while a proof is checked. -/
def checkPairs (txid : Digest) (proof : List Digest) (pos : UInt64) : List (Digest × Digest) :=
  foldPairs (hashPair H) txid proof pos.toNat

/-- `hash_pair` has no collision among these pairs. -/
def PairsCollisionFree (met : List (Digest × Digest)) : Prop :=
  ∀ p ∈ met, ∀ q ∈ met, hashPair H p.1 p.2 = hashPair H q.1 q.2 → p = q

/-- A root, a proof length and the low bits of the position leave room for one
transaction id and one list of siblings. -/
theorem verifyMerkleProof_binding (k : Nat) (p q : List Digest) (t u root : Digest)
    (i j : UInt64) (p_length : p.length = k) (q_length : q.length = k)
    (positions : i.toNat ≡ j.toNat [MOD 2 ^ k])
    (free : PairsCollisionFree H (checkPairs H t p i ++ checkPairs H u q j))
    (left : verifyMerkleProof H t p i root = true)
    (right : verifyMerkleProof H u q j root = true) : t = u ∧ p = q := by
  have left_root := (verifyMerkleProof_iff H t p i root).mp left
  have right_root := (verifyMerkleProof_iff H u q j root).mp right
  apply Library.HashTree.eq_of_fold_eq (hashPair H) t u p q i.toNat j.toNat
  · rw [p_length, q_length]
  · rw [p_length]
    exact positions
  · intro a metA b metB
    exact free a (List.mem_append_left _ metA) b (List.mem_append_right _ metB)
  · rw [left_root, right_root]

end Binding

/-- A one-input, one-output payment of 94 bytes. -/
def payment (sats : Nat) : List UInt8 :=
  [2, 0, 0, 0, 1] ++ List.replicate 36 0x11 ++ [0, 0xff, 0xff, 0xff, 0xff, 1] ++
    littleEndian 8 sats ++ [0x22, 0x51, 0x20] ++ List.replicate 32 0xab ++ littleEndian 4 0

/-- Positions 0 and 2 go up one level the same way. -/
theorem verifyMerkleProof_binding_payments :
    let t := doubleSha256 sha256 (payment 1)
    let s := doubleSha256 sha256 (payment 2)
    let root := hashPair (doubleSha256 sha256) t s
    (verifyMerkleProof (doubleSha256 sha256) t [s] 0 root = true ∧
      verifyMerkleProof (doubleSha256 sha256) t [s] 2 root = true) ∧ (t = t ∧ [s] = [s]) := by
  intro t s root
  have left := (verifyMerkleProof_iff (doubleSha256 sha256) t [s] 0 root).mpr rfl
  have right := (verifyMerkleProof_iff (doubleSha256 sha256) t [s] 2 root).mpr rfl
  have free : PairsCollisionFree (doubleSha256 sha256)
      (checkPairs (doubleSha256 sha256) t [s] 0 ++ checkPairs (doubleSha256 sha256) t [s] 2) := by
    have alone : ∀ p ∈ [(t, s), (t, s)], p = (t, s) := by simp
    intro p metP q metQ _
    exact (alone p metP).trans (alone q metQ).symm
  exact ⟨⟨left, right⟩, verifyMerkleProof_binding _ 1 [s] [s] t t root 0 2 rfl rfl rfl free
    left right⟩

/-- Two payments and their node have three hashes. -/
private theorem payments_collisionFree : CollisionFree (doubleSha256 sha256)
    (treeStrings (doubleSha256 sha256) [payment 1, payment 2]) := by
  have distinct : ((treeStrings (doubleSha256 sha256) [payment 1, payment 2]).map
      (doubleSha256 sha256)).Nodup := by decide +kernel
  intro s s_mem t t_mem same
  exact List.inj_on_of_nodup_map distinct s_mem t_mem same

/-- The strings hashed for two payments are told apart by the contract's double SHA-256. -/
theorem sound_iff_exact_payments :
    ([payment 1, payment 2] ≠ [] ∧
      CollisionFree (doubleSha256 sha256) (treeStrings (doubleSha256 sha256) [payment 1, payment 2])) ∧
    (Sound (doubleSha256 sha256) [payment 1, payment 2] 1 1 ↔
      Exact (doubleSha256 sha256) [payment 1, payment 2] 1 1) := by
  have nonempty : [payment 1, payment 2] ≠ [] := by simp
  exact ⟨⟨nonempty, payments_collisionFree⟩,
    sound_iff_exact _ _ 1 1 nonempty payments_collisionFree⟩

/-- Position 1 of a block with one transaction is accepted, and the 64 bytes of
an interior node pass for a transaction. -/
theorem payments_forged :
    ¬ Sound (doubleSha256 sha256) [payment 1] 0 1 ∧
      ¬ Sound (doubleSha256 sha256) [payment 1, payment 2] 0 0 := by
  constructor
  · intro sound
    have free : CollisionFree (doubleSha256 sha256)
        (treeStrings (doubleSha256 sha256) [payment 1] ++
          checkStrings (doubleSha256 sha256) (payment 1) [] 1) := by
      have alone : ∀ s ∈ [payment 1, payment 1], s = payment 1 := by simp
      intro s s_mem t t_mem _
      exact (alone s s_mem).trans (alone t t_mem).symm
    have verified := (verifyMerkleProof_iff (doubleSha256 sha256)
      (doubleSha256 sha256 (payment 1)) [] 1 _).mpr rfl
    have inside := sound (payment 1) [] _ rfl free rfl verified
    exact absurd inside.1 (by decide)
  · intro sound
    let node := nodeBytes (doubleSha256 sha256 (payment 1), doubleSha256 sha256 (payment 2))
    have free : CollisionFree (doubleSha256 sha256)
        (treeStrings (doubleSha256 sha256) [payment 1, payment 2] ++
          checkStrings (doubleSha256 sha256) node [] 0) := by
      refine collisionFree_mono _ payments_collisionFree ?_
      have own : checkStrings (doubleSha256 sha256) node [] 0 ⊆
          treeStrings (doubleSha256 sha256) [payment 1, payment 2] :=
        List.subset_append_right [payment 1, payment 2] [node]
      exact List.append_subset.mpr ⟨List.Subset.refl _, own⟩
    have verified := (verifyMerkleProof_iff (doubleSha256 sha256)
      (doubleSha256 sha256 node) [] 0 _).mpr rfl
    have root : blockRoot (doubleSha256 sha256) [payment 1, payment 2] =
        some (doubleSha256 sha256 node) :=
      congrArg some (hashPair_eq (doubleSha256 sha256) _ _)
    have opened := sound node [] _ rfl free root verified
    have lengths := congrArg (Option.map List.length) opened.2
    have wide : node.length = 64 := by simp [node, nodeBytes]
    simp [payment, wide] at lengths

end PrivateBtc.Contracts.MerkleProof
