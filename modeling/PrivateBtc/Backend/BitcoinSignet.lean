/- PrivateBtc/Backend/BitcoinSignet
   digest: Detection answers the newest fresh output of the best class, also where no amount matches. -/

import PrivateBtc.Library.Double
import PrivateBtc.Library.Ranking

set_option autoImplicit false
set_option relaxedAutoImplicit false

namespace PrivateBtc.Backend.BitcoinSignet

open Library Library.JsText

structure Status where
  confirmed : Bool
  blockTime : Option Nat
  blockHeight : Option Nat
  deriving DecidableEq

structure Utxo where
  txid : Text
  value : Nat
  status : Option Status
  deriving DecidableEq

structure Vout where
  scriptpubkeyAddress : Option Text
  value : Nat

structure MempoolTx where
  txid : Text
  vout : List Vout
  status : Option Status

/-- What a request to the explorer comes to: a body, an HTTP error, or an exception. -/
inductive Reply (A : Type) where
  | ok (body : A)
  | httpError
  | failed

inductive Detection where
  | missing
  /-- No confirmations stand for the NaN of an unreadable tip. -/
  | detected (txid : Text) (confirmations : Option Int)
  deriving DecidableEq

def Utxo.confirmed (u : Utxo) : Bool := u.status.any Status.confirmed

def Utxo.blockTime (u : Utxo) : Option Nat := u.status.bind Status.blockTime

def Utxo.blockHeight (u : Utxo) : Option Nat := u.status.bind Status.blockHeight

def MempoolTx.blockTime (tx : MempoolTx) : Option Nat := tx.status.bind Status.blockTime

def expectedSats (expectedAmountBTC : Double) : Double :=
  (expectedAmountBTC.mul (.finite 100000000)).round

def sinceSeconds (sinceMs : Option Int) : Int := (sinceMs.getD 0) / 1000

/-- `Math.max(1000, Math.round(expectedSats * 0.01))`. -/
def tolerance (expected : Double) : Double :=
  match (expected.mul (Double.ofRat (1 / 100))).round with
  | .finite q => .finite (max 1000 q)
  | .infinite true => .finite 1000
  | other => other

/-- `Math.abs(value - expectedSats)`. -/
def difference (value : Nat) : Double → Double
  | .finite q => Double.ofRat |value - q|
  | .infinite _ => .infinite false
  | .nan => .nan

def atMost : Double → Double → Bool
  | .finite a, .finite b => a ≤ b
  | .finite _, .infinite negative => !negative
  | .infinite n, .infinite m => n || !m
  | .infinite negative, .finite _ => negative
  | _, _ => false

def withinTolerance (expected : Double) (value : Nat) : Bool :=
  atMost (difference value expected) (tolerance expected)

def exactly (expected : Double) (value : Nat) : Bool := Double.finite value = expected

/-- One transaction of the mempool list; a block time of zero counts as none. -/
def mempoolHit (knownTxids : List Text) (address : Text) (expected : Double) (since : Int)
    (tx : MempoolTx) : Bool :=
  let txSeen := tx.blockTime.getD 0
  if knownTxids.contains tx.txid then false
  else if since ≠ 0 ∧ txSeen ≠ 0 ∧ txSeen < since then false
  else tx.vout.any fun vout => vout.scriptpubkeyAddress = some address &&
    (exactly expected vout.value || withinTolerance expected vout.value)

def isFresh (knownTxids : List Text) (since : Int) (u : Utxo) : Bool :=
  if knownTxids.contains u.txid then false
  else if !u.confirmed then true
  else if since ≠ 0 ∧ u.blockTime.any (fun time : Nat => (time : Int) < since) then false
  else true

def freshUtxos (knownTxids : List Text) (since : Int) (utxos : List Utxo) : List Utxo :=
  utxos.filter (isFresh knownTxids since)

def comparator (a b : Utxo) : Int :=
  if !a.confirmed && b.confirmed then -1
  else if a.confirmed && !b.confirmed then 1
  else if !a.confirmed && !b.confirmed then 0
  else
    let aTime := a.blockTime.getD 0
    let bTime := b.blockTime.getD 0
    if aTime ≠ bTime then (bTime : Int) - aTime
    else ((b.blockHeight.getD 0 : Nat) : Int) - (a.blockHeight.getD 0 : Nat)

/-- The array's sort is stable; a comparator that is a total preorder fixes its result. -/
def sorted (utxos : List Utxo) : List Utxo :=
  utxos.insertionSort fun a b => comparator a b ≤ 0

def matchUtxo (expected : Double) (ranked : List Utxo) : Option Utxo :=
  match ranked.find? fun u => exactly expected u.value with
  | some u => some u
  | none =>
      match ranked.find? fun u => withinTolerance expected u.value with
      | some u => some u
      | none => ranked.head?

def utxoStep (knownTxids : List Text) (since : Int) (expected : Double) (utxos : List Utxo) :
    Option Utxo :=
  matchUtxo expected (sorted (freshUtxos knownTxids since utxos))

/-- The body of the tip's reply is what `parseInt` reads in it. -/
def confirmationsOf (tip : Reply (Option Int)) (u : Utxo) : Option Int :=
  let height := u.blockHeight.getD 0
  if u.confirmed ∧ height ≠ 0 then
    match tip with
    | .ok tipHeight => tipHeight.map fun top => max 0 (top - height + 1)
    | .httpError | .failed => some 1
  else some 0

def utxoAttempts (knownTxids : List Text) (since : Int) (expected : Double)
    (tip : Reply (Option Int)) : List (Reply (List Utxo)) → Detection
  | .ok utxos :: _ =>
      match utxoStep knownTxids since expected utxos with
      | some u => .detected u.txid (confirmationsOf tip u)
      | none => .missing
  | .httpError :: rest | .failed :: rest => utxoAttempts knownTxids since expected tip rest
  | [] => .missing

def detectBTCLock (knownTxids : List Text) (address : Text) (expectedAmountBTC : Double)
    (sinceMs : Option Int) (mempool : Reply (List MempoolTx))
    (utxos : Fin 3 → Reply (List Utxo)) (tip : Reply (Option Int)) : Detection :=
  let expected := expectedSats expectedAmountBTC
  let since := sinceSeconds sinceMs
  let hit := match mempool with
    | .ok txs => txs.find? (mempoolHit knownTxids address expected since)
    | .httpError | .failed => none
  match hit with
  | some tx => .detected tx.txid (some 0)
  | none => utxoAttempts knownTxids since expected tip (List.ofFn utxos)

/-- Unconfirmed first, then the larger block time, then the larger height; what is not
in a block has neither. -/
def Precedes (a b : Utxo) : Prop :=
  (a.confirmed = false ∧ b.confirmed = true) ∨
  (a.confirmed = true ∧ b.confirmed = true ∧
    (b.blockTime.getD 0 < a.blockTime.getD 0 ∨
      (a.blockTime.getD 0 = b.blockTime.getD 0 ∧ b.blockHeight.getD 0 < a.blockHeight.getD 0)))

def Tied (a b : Utxo) : Prop := ¬ Precedes a b ∧ ¬ Precedes b a

/-- The comparator's sign is the order. -/
theorem comparator_neg (a b : Utxo) : comparator a b < 0 ↔ Precedes a b := by
  unfold comparator Precedes
  cases a.confirmed
  · cases b.confirmed
    · simp
    · simp
  · cases b.confirmed
    · simp
    · dsimp only
      split_ifs <;> simp_all

theorem comparator_swap (a b : Utxo) : comparator b a = -comparator a b := by
  unfold comparator
  cases a.confirmed
  · cases b.confirmed <;> simp
  · cases b.confirmed
    · simp
    · dsimp only
      split_ifs <;> simp_all

theorem comparator_nonpos (a b : Utxo) : comparator a b ≤ 0 ↔ ¬ Precedes b a := by
  rw [← comparator_neg, comparator_swap a b]
  omega

theorem precedes_trans {a b c : Utxo} (first : ¬ Precedes b a) (second : ¬ Precedes c b) :
    ¬ Precedes c a := by
  revert first second
  unfold Precedes
  cases a.confirmed <;> cases b.confirmed <;> cases c.confirmed <;>
    simp only [Bool.true_eq_false, Bool.false_eq_true, false_and, and_false, true_and, false_or,
      or_false, and_true, not_true, not_false_eq_true, implies_true, false_imp_iff]
  omega

instance : Std.Total fun a b : Utxo => comparator a b ≤ 0 := ⟨by
  intro a b
  rw [comparator_swap a b]
  omega⟩

instance : IsTrans Utxo fun a b => comparator a b ≤ 0 := ⟨by
  intro a b c first second
  rw [comparator_nonpos] at *
  exact precedes_trans first second⟩

/-- The best class that is not empty: the exact amount, else within tolerance, else any. -/
def bestClass (expected : Double) (fresh : List Utxo) : List Utxo :=
  let exact := fresh.filter fun u => exactly expected u.value
  let near := fresh.filter fun u => withinTolerance expected u.value
  if exact ≠ [] then exact else if near ≠ [] then near else fresh

theorem matchUtxo_best {expected : Double} {candidates : List Utxo} {u : Utxo}
    (chosen : matchUtxo expected (sorted candidates) = some u) :
    u ∈ bestClass expected candidates ∧ ∀ v ∈ bestClass expected candidates, ¬ Precedes v u := by
  have newest : ∀ {p : Utxo → Bool}, (sorted candidates).find? p = some u →
      u ∈ candidates.filter p ∧ ∀ v ∈ candidates.filter p, ¬ Precedes v u := by
    intro p found
    obtain ⟨member, first⟩ := Ranking.find_ranked _ found
    refine ⟨member, ?_⟩
    intro v listed
    rw [← comparator_nonpos]
    exact first v listed
  unfold matchUtxo at chosen
  unfold bestClass
  dsimp only
  cases exactFound : (sorted candidates).find? fun u => exactly expected u.value with
  | some w =>
      rw [exactFound] at chosen
      cases chosen
      rw [if_pos (List.ne_nil_of_mem (newest exactFound).1)]
      exact newest exactFound
  | none =>
      have noExact := (Ranking.find_ranked_none _).mp exactFound
      rw [exactFound] at chosen
      rw [if_neg (not_not.mpr noExact)]
      cases nearFound : (sorted candidates).find? fun u => withinTolerance expected u.value with
      | some w =>
          rw [nearFound] at chosen
          cases chosen
          rw [if_pos (List.ne_nil_of_mem (newest nearFound).1)]
          exact newest nearFound
      | none =>
          have noNear := (Ranking.find_ranked_none _).mp nearFound
          rw [nearFound] at chosen
          rw [if_neg (not_not.mpr noNear)]
          have any : (sorted candidates).find? (fun _ => true) = some u := by
            rw [← chosen]
            exact (Ranking.head_ranked _ candidates).symm
          have best := newest any
          rw [List.filter_true] at best
          exact best

theorem matchUtxo_none {expected : Double} {candidates : List Utxo} :
    matchUtxo expected (sorted candidates) = none ↔ candidates = [] := by
  have emptied : (sorted candidates).head? = none ↔ candidates = [] := by
    rw [List.head?_eq_none_iff, ← List.length_eq_zero_iff, sorted, List.length_insertionSort,
      List.length_eq_zero_iff]
  constructor
  · intro missed
    unfold matchUtxo at missed
    split at missed
    · cases missed
    · split at missed
      · cases missed
      · exact emptied.mp missed
  · rintro rfl
    rfl

theorem bestClass_perm {expected : Double} {left right : List Utxo} (same : left.Perm right) :
    (bestClass expected left).Perm (bestClass expected right) := by
  have exact := same.filter fun u => exactly expected u.value
  have near := same.filter fun u => withinTolerance expected u.value
  unfold bestClass
  dsimp only
  simp only [ne_eq, ← List.length_eq_zero_iff, exact.length_eq, near.length_eq]
  split_ifs with noExact noNear
  · exact same
  · exact near
  · exact exact

/-- Whatever the list, an answer is one of the best class that nothing in it precedes, and
the order of the list decides only between tied ones. -/
theorem utxoStep_newest (knownTxids : List Text) (since : Int) (expected : Double)
    (utxos : List Utxo) :
    (utxoStep knownTxids since expected utxos = none ↔ freshUtxos knownTxids since utxos = []) ∧
    (∀ u, utxoStep knownTxids since expected utxos = some u →
      u ∈ bestClass expected (freshUtxos knownTxids since utxos) ∧
      ∀ v ∈ bestClass expected (freshUtxos knownTxids since utxos), ¬ Precedes v u) ∧
    ∀ permuted, utxos.Perm permuted → ∀ u, utxoStep knownTxids since expected utxos = some u →
      ∃ v, utxoStep knownTxids since expected permuted = some v ∧ Tied u v := by
  refine ⟨matchUtxo_none, fun u chosen => matchUtxo_best chosen, ?_⟩
  intro permuted same u chosen
  have fresh : (freshUtxos knownTxids since utxos).Perm (freshUtxos knownTxids since permuted) :=
    same.filter _
  have classes : (bestClass expected (freshUtxos knownTxids since utxos)).Perm
      (bestClass expected (freshUtxos knownTxids since permuted)) := bestClass_perm fresh
  obtain ⟨member, newest⟩ := matchUtxo_best chosen
  cases other : utxoStep knownTxids since expected permuted with
  | none =>
      have emptied := matchUtxo_none.mp other
      rw [emptied] at fresh
      have missed : matchUtxo expected (sorted (freshUtxos knownTxids since utxos)) = none :=
        matchUtxo_none.mpr fresh.eq_nil
      rw [utxoStep, missed] at chosen
      cases chosen
  | some v =>
      obtain ⟨listed, first⟩ := matchUtxo_best other
      refine ⟨v, rfl, ?_, ?_⟩
      · exact first u (classes.mem_iff.mp member)
      · exact newest v (classes.mem_iff.mpr listed)

def blockUtxo (name : Char) (time height : Nat) : Utxo :=
  ⟨[name], 100000, some ⟨true, some time, some height⟩⟩

/-- Two outputs of one block and one that is not in a block, in the list's other order. -/
theorem utxoStep_newest_sample :
    ∃ v, utxoStep [] 0 (.finite 100000)
      [blockUtxo 'b' 30 7, ⟨['c'], 5, none⟩, blockUtxo 'a' 20 7] = some v ∧
      Tied (blockUtxo 'b' 30 7) v :=
  (utxoStep_newest [] 0 (.finite 100000)
    [blockUtxo 'a' 20 7, ⟨['c'], 5, none⟩, blockUtxo 'b' 30 7]).2.2 _
    (by decide) (blockUtxo 'b' 30 7) (by decide +kernel)

/-- The explorer's lists show an output of the transaction that pays the expected amount. -/
def ShowsPayment (address : Text) (expected : Double) (txs : List MempoolTx) (utxos : List Utxo)
    (txid : Text) : Prop :=
  (∃ tx ∈ txs, tx.txid = txid ∧ ∃ vout ∈ tx.vout, vout.scriptpubkeyAddress = some address ∧
    withinTolerance expected vout.value = true) ∨
  ∃ u ∈ utxos, u.txid = txid ∧ withinTolerance expected u.value = true

/-- The double nearest to 0.01. -/
theorem hundredth : Double.ofRat (1 / 100) = .finite (5764607523034235 / 2 ^ 59) := by
  decide +kernel

theorem ofRat_ne_nan (q : ℚ) : Double.ofRat q ≠ .nan := by
  unfold Double.ofRat
  dsimp only
  split_ifs <;> simp

/-- An exact amount is within tolerance. -/
theorem within_of_exactly {expected : Double} {value : Nat} (exact : exactly expected value = true) :
    withinTolerance expected value = true := by
  rw [exactly, decide_eq_true_eq] at exact
  subst exact
  have same : difference value (.finite value) = .finite 0 := by
    rw [difference, sub_self, abs_zero]
    exact Double.ofRat_natCast (show 0 < 2 ^ 53 by decide)
  rw [withinTolerance, same, tolerance, hundredth, Double.mul]
  cases scaled : Double.ofRat ((value : ℚ) * (5764607523034235 / 2 ^ 59)) with
  | finite q =>
      rw [Double.round]
      dsimp only
      rw [atMost, decide_eq_true_eq]
      exact le_max_of_le_left (by norm_num)
  | infinite negative =>
      cases negative
      · rfl
      · rw [Double.round]
        · decide
        · intro a told
          cases told
  | nan => exact absurd scaled (ofRat_ne_nan _)

theorem mempoolHit_sound {knownTxids : List Text} {address : Text} {expected : Double}
    {since : Int} {tx : MempoolTx} (hit : mempoolHit knownTxids address expected since tx = true) :
    tx.txid ∉ knownTxids ∧
    (∃ vout ∈ tx.vout, vout.scriptpubkeyAddress = some address ∧
      withinTolerance expected vout.value = true) ∧
    ∀ time, tx.blockTime = some time → time ≠ 0 → since ≤ time := by
  unfold mempoolHit at hit
  dsimp only at hit
  split_ifs at hit with known early
  refine ⟨?_, ?_, ?_⟩
  · intro member
    exact known (List.contains_iff_mem.mpr member)
  · obtain ⟨vout, listed, matched⟩ := List.any_eq_true.mp hit
    rw [Bool.and_eq_true, decide_eq_true_eq, Bool.or_eq_true] at matched
    obtain ⟨paid, exact | near⟩ := matched
    · exact ⟨vout, listed, paid, within_of_exactly exact⟩
    · exact ⟨vout, listed, paid, near⟩
  · intro time seen nonzero
    rw [seen, Option.getD_some] at early
    by_contra before
    by_cases zero : since = 0
    · omega
    · exact early ⟨zero, nonzero, by omega⟩

theorem isFresh_sound {knownTxids : List Text} {since : Int} {u : Utxo}
    (fresh : isFresh knownTxids since u = true) :
    u.txid ∉ knownTxids ∧
      (u.confirmed = true → ∀ time, u.blockTime = some time → since ≤ time) := by
  unfold isFresh at fresh
  split_ifs at fresh with known unconfirmed early
  · refine ⟨fun member => known (List.contains_iff_mem.mpr member), ?_⟩
    intro confirmed
    rw [confirmed] at unconfirmed
    cases unconfirmed
  · refine ⟨fun member => known (List.contains_iff_mem.mpr member), ?_⟩
    intro _ time mined
    rw [mined, Option.any_some, decide_eq_true_eq] at early
    by_contra before
    by_cases zero : since = 0
    · omega
    · exact early ⟨zero, by omega⟩

theorem mem_bestClass {expected : Double} {candidates : List Utxo} {u : Utxo}
    (member : u ∈ bestClass expected candidates) :
    u ∈ candidates ∧ (withinTolerance expected u.value = true ∨
      bestClass expected candidates = candidates ∧
        ∀ v ∈ candidates, withinTolerance expected v.value = false) := by
  unfold bestClass at member ⊢
  dsimp only at member ⊢
  split_ifs at member ⊢ with exact near
  · obtain ⟨listed, paid⟩ := List.mem_filter.mp member
    exact ⟨listed, Or.inl (within_of_exactly paid)⟩
  · obtain ⟨listed, paid⟩ := List.mem_filter.mp member
    exact ⟨listed, Or.inl paid⟩
  · refine ⟨member, Or.inr ⟨rfl, ?_⟩⟩
    intro v listed
    have skipped := List.filter_eq_nil_iff.mp (not_not.mp near) v listed
    exact Bool.eq_false_iff.mpr skipped

theorem utxoAttempts_detected {knownTxids : List Text} {since : Int} {expected : Double}
    {tip : Reply (Option Int)} {replies : List (Reply (List Utxo))} {txid : Text}
    {confirmations : Option Int}
    (answered : utxoAttempts knownTxids since expected tip replies = .detected txid confirmations) :
    ∃ utxos u, .ok utxos ∈ replies ∧ utxoStep knownTxids since expected utxos = some u ∧
      u.txid = txid := by
  induction replies with
  | nil => cases answered
  | cons reply rest ih =>
      cases reply with
      | ok utxos =>
          rw [utxoAttempts] at answered
          cases stepped : utxoStep knownTxids since expected utxos with
          | none =>
              rw [stepped] at answered
              cases answered
          | some u =>
              rw [stepped] at answered
              cases answered
              exact ⟨utxos, u, List.mem_cons_self, stepped, rfl⟩
      | httpError =>
          obtain ⟨utxos, u, member, found⟩ := ih answered
          exact ⟨utxos, u, List.mem_cons_of_mem _ member, found⟩
      | failed =>
          obtain ⟨utxos, u, member, found⟩ := ih answered
          exact ⟨utxos, u, List.mem_cons_of_mem _ member, found⟩

/-- An answer is a txid that is not known, of a transaction not mined before the given
second; its amount is the expected one unless no fresh output has it. -/
theorem detectBTCLock_sound {knownTxids : List Text} {address : Text} {expectedAmountBTC : Double}
    {sinceMs : Option Int} {mempool : Reply (List MempoolTx)}
    {replies : Fin 3 → Reply (List Utxo)} {tip : Reply (Option Int)} {txid : Text}
    {confirmations : Option Int}
    (answered : detectBTCLock knownTxids address expectedAmountBTC sinceMs mempool replies tip =
      .detected txid confirmations) :
    txid ∉ knownTxids ∧
    ((∃ txs, mempool = .ok txs ∧ ∃ tx ∈ txs, tx.txid = txid ∧
        (∃ vout ∈ tx.vout, vout.scriptpubkeyAddress = some address ∧
          withinTolerance (expectedSats expectedAmountBTC) vout.value = true) ∧
        ∀ time, tx.blockTime = some time → time ≠ 0 → sinceSeconds sinceMs ≤ time) ∨
      ∃ attempt utxos, replies attempt = .ok utxos ∧ ∃ u ∈ utxos, u.txid = txid ∧
        (u.confirmed = true → ∀ time, u.blockTime = some time → sinceSeconds sinceMs ≤ time) ∧
        (withinTolerance (expectedSats expectedAmountBTC) u.value = true ∨
          ∀ v ∈ freshUtxos knownTxids (sinceSeconds sinceMs) utxos,
            withinTolerance (expectedSats expectedAmountBTC) v.value = false ∧ ¬ Precedes v u)) := by
  unfold detectBTCLock at answered
  dsimp only at answered
  split at answered
  · rename_i tx hit
    cases answered
    cases mempool with
    | ok txs =>
        obtain ⟨unknown, paid, late⟩ := mempoolHit_sound (List.find?_some hit)
        refine ⟨unknown, Or.inl ⟨txs, rfl, tx, List.mem_of_find?_eq_some hit, rfl, paid, late⟩⟩
    | httpError => cases hit
    | failed => cases hit
  · obtain ⟨utxos, u, replied, stepped, rfl⟩ := utxoAttempts_detected answered
    obtain ⟨attempt, replied⟩ := (List.mem_ofFn' _ _).mp replied
    obtain ⟨member, newest⟩ := matchUtxo_best stepped
    obtain ⟨fresh, amount⟩ := mem_bestClass member
    obtain ⟨listed, marked⟩ := List.mem_filter.mp fresh
    obtain ⟨unknown, late⟩ := isFresh_sound marked
    refine ⟨unknown, Or.inr ⟨attempt, utxos, replied, u, listed, rfl, late, ?_⟩⟩
    rcases amount with paid | ⟨whole, none⟩
    · exact Or.inl paid
    · refine Or.inr fun v candidate => ⟨none v candidate, newest v ?_⟩
      rw [whole]
      exact candidate

def sampleAddress : Text := ['t', 'b', '1', 'q']

/-- One output of fifty times the expected amount. -/
def strayUtxo : Utxo := ⟨['d'], 5000000, some ⟨true, some 50, some 7⟩⟩

def paidUtxo : Utxo := ⟨['f'], 100400, some ⟨true, some 40, some 6⟩⟩

/-- Next to a newer stray output the one within the tolerance is the answer. -/
theorem detectBTCLock_sound_sample :
    let expected := expectedSats (.finite (1 / 1000))
    ['f'] ∉ ([['e']] : List Text) ∧ ∃ u ∈ [strayUtxo, paidUtxo], u.txid = ['f'] ∧
      (u.confirmed = true → ∀ time, u.blockTime = some time → (40 : Int) ≤ time) ∧
      (withinTolerance expected u.value = true ∨
        ∀ v ∈ freshUtxos [['e']] 40 [strayUtxo, paidUtxo],
          withinTolerance expected v.value = false ∧ ¬ Precedes v u) := by
  have answered : detectBTCLock [['e']] sampleAddress (.finite (1 / 1000)) (some 40500) (.ok [])
      (fun _ => .ok [strayUtxo, paidUtxo]) (.ok (some 9)) = .detected ['f'] (some 4) := by
    decide +kernel
  obtain ⟨unknown, ⟨txs, empty, tx, listed, -⟩ | ⟨_, utxos, told, u, listed, rest⟩⟩ :=
    detectBTCLock_sound answered
  · cases empty
    cases listed
  · cases told
    rw [show sinceSeconds (some 40500) = 40 by decide] at rest
    exact ⟨unknown, u, listed, rest⟩

/-- The amount of the answer is not checked in the last class. -/
theorem detectBTCLock_stray :
    ¬ ∀ (knownTxids : List Text) (address : Text) (expectedAmountBTC : Double)
      (sinceMs : Option Int) (txs : List MempoolTx) (utxos : List Utxo)
      (tip : Reply (Option Int)) (txid : Text) (confirmations : Option Int),
      detectBTCLock knownTxids address expectedAmountBTC sinceMs (.ok txs) (fun _ => .ok utxos)
        tip = .detected txid confirmations →
      ShowsPayment address (expectedSats expectedAmountBTC) txs utxos txid := by
  intro sound
  have answered : detectBTCLock [] sampleAddress (.finite (1 / 1000)) none (.ok [])
      (fun _ => .ok [strayUtxo]) (.ok (some 9)) = .detected ['d'] (some 3) := by decide +kernel
  rcases sound _ _ _ _ _ _ _ _ _ answered with ⟨tx, listed, -⟩ | ⟨u, listed, -, paid⟩
  · cases listed
  · rw [List.mem_singleton] at listed
    subst listed
    have far : withinTolerance (expectedSats (.finite (1 / 1000))) strayUtxo.value = false := by
      decide +kernel
    rw [far] at paid
    cases paid

end PrivateBtc.Backend.BitcoinSignet
