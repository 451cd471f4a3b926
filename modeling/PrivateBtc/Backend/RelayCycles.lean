/- PrivateBtc/Backend/RelayCycles
   digest: Overlapping relay cycles, what becomes of their transactions, and when no gap is left. -/

import PrivateBtc.Backend.HeaderRelay
import PrivateBtc.Backend.Starknet
import PrivateBtc.Contracts.HeaderStore
import PrivateBtc.Library.GuardedRun

set_option autoImplicit false
set_option relaxedAutoImplicit false

namespace PrivateBtc.Backend.RelayCycles

open Library Library.JsText
open Contracts.Corelib Contracts.Hashing Contracts.HeaderStore
open HeaderRelay Starknet

/-- The relayer account, and whether the address of the header store is configured. -/
structure Setting where
  account : Option ContractAddress
  headerStoreAddr : Bool

/-- The loop over the heights of one cycle. -/
structure Loop where
  h : Int
  endHeight : Int
  deriving DecidableEq

/-- What a cycle waits for; `submitted` is between the hash and the write of the height. -/
inductive Phase where
  | tip
  | blockHash (loop : Loop)
  | blockHeader (loop : Loop)
  | nonce (loop : Loop) (root : Digest) (attempt : Nat)
  | execute (loop : Loop) (root : Digest) (attempt : Nat)
  | backoff (loop : Loop) (root : Digest) (attempt : Nat)
  | submitted (loop : Loop)
  | sleeping (loop : Loop)
  | ended

structure Submission where
  height : Int
  root : Digest
  deriving DecidableEq

/-- `cursor` is the row `header_relay_last_height`; `first` is the first height for which
`account.execute` returned a hash. -/
structure State where
  cursor : Option Int
  cycles : List Phase
  pending : List Submission
  sent : List Submission
  first : Option Int
  store : Headers

def initial (relayer : ContractAddress) : State := ⟨none, [], [], [], none, constructor relayer⟩

def State.setPhase (s : State) (id : Nat) (phase : Phase) : State :=
  { s with cycles := s.cycles.set id phase }

def getLastRelayedHeight (cursor : Option Int) (readable : Bool) : Int :=
  if readable then cursor.getD (-1) else -1

def startHeight (cursor : Option Int) (readable : Bool) (tipHeight : Int) : Int :=
  let lastRelayed := getLastRelayedHeight cursor readable
  if lastRelayed = -1 then tipHeight else lastRelayed + 1

/-- `relayCycle` once it has the tip; a tip that is no number ends it like a failed request. -/
def afterTip (cursor : Option Int) (readable : Bool) : Option Int → Phase
  | none => .ended
  | some tipHeight =>
      let start := startHeight cursor readable tipHeight
      if tipHeight < start then .ended else .blockHash ⟨start, min (start + 9) tipHeight⟩

/-- From the header to the words that `relayHeader` sends. -/
def prepare (S : Setting) (headerHex : Text) : Except String Digest := do
  let merkleRoot ← parseMerkleRootFromHeader (trim headerHex)
  if S.account.isNone then throw "No relayer account configured"
  if !S.headerStoreAddr then throw "HEADER_STORE_CONTRACT_ADDRESS not set in .env"
  merkleRootToU32Array merkleRoot

def retries : Nat := 3

/-- The `catch` of an attempt; a failure that it throws on ends the cycle. -/
def retry (loop : Loop) (root : Digest) (attempt : Nat) (errMsg : String) : Phase :=
  if mentions errMsg "insufficient" || mentions errMsg "balance is smaller" then .ended
  else if attempt = retries - 1 then .ended
  else .backoff loop root attempt

def next (loop : Loop) : Phase :=
  if loop.h + 1 ≤ loop.endHeight then .blockHash { loop with h := loop.h + 1 } else .ended

def asU64 (height : Int) : Option UInt64 :=
  if 0 ≤ height ∧ height < 2 ^ 64 then some (UInt64.ofNat height.toNat) else none

/-- A `store_header` transaction in a block. -/
def executeStore (S : Setting) (store : Headers) (submission : Submission) :
    Except String Headers :=
  match S.account, asU64 submission.height with
  | some caller, some height => storeHeader store caller height submission.root
  | _, _ => .error "Failed to deserialize param #1"

/-- Cycles are named by their place; a node may take a transaction and still fail the request. -/
inductive Label where
  | start
  | tip (id : Nat) (reply : Option Int) (readable : Bool)
  | blockHash (id : Nat) (reply : Option Text)
  | blockHeader (id : Nat) (reply : Option Text)
  | nonce (id : Nat) (reply : Except String Unit)
  | executed (id : Nat) (reply : Except String Unit) (accepted : Bool)
  | record (id : Nat) (written : Bool)
  | wake (id : Nat)
  | conclude (place : Nat) (included : Bool)
  | restart

def submit (s : State) (submission : Submission) : State :=
  { s with pending := s.pending ++ [submission], sent := s.sent ++ [submission] }

def step (S : Setting) (s : State) : Label → Option State
  | .start => some { s with cycles := s.cycles ++ [.tip] }
  | .tip id reply readable =>
      match s.cycles[id]? with
      | some .tip => some (s.setPhase id (afterTip s.cursor readable reply))
      | _ => none
  | .blockHash id reply =>
      match s.cycles[id]? with
      | some (.blockHash loop) =>
          some (s.setPhase id (if reply.isSome then .blockHeader loop else .ended))
      | _ => none
  | .blockHeader id reply =>
      match s.cycles[id]? with
      | some (.blockHeader loop) =>
          match reply.map (prepare S) with
          | some (.ok root) => some (s.setPhase id (.nonce loop root 0))
          | _ => some (s.setPhase id .ended)
      | _ => none
  | .nonce id reply =>
      match s.cycles[id]? with
      | some (.nonce loop root attempt) =>
          match reply with
          | .ok () => some (s.setPhase id (.execute loop root attempt))
          | .error errMsg => some (s.setPhase id (retry loop root attempt errMsg))
      | _ => none
  | .executed id reply accepted =>
      match s.cycles[id]? with
      | some (.execute loop root attempt) =>
          match reply with
          | .ok () =>
              some ({ submit s ⟨loop.h, root⟩ with first := s.first.or (some loop.h) }.setPhase id
                (.submitted loop))
          | .error errMsg =>
              let s := if accepted then submit s ⟨loop.h, root⟩ else s
              some (s.setPhase id (retry loop root attempt errMsg))
      | _ => none
  | .record id written =>
      match s.cycles[id]? with
      | some (.submitted loop) =>
          if written then some ({ s with cursor := some loop.h }.setPhase id (.sleeping loop))
          else some (s.setPhase id .ended)
      | _ => none
  | .wake id =>
      match s.cycles[id]? with
      | some (.backoff loop root attempt) => some (s.setPhase id (.nonce loop root (attempt + 1)))
      | some (.sleeping loop) => some (s.setPhase id (next loop))
      | _ => none
  | .conclude place included =>
      match s.pending[place]? with
      | some submission =>
          let pending := s.pending.eraseIdx place
          match included, executeStore S s.store submission with
          | true, .ok store => some { s with pending, store }
          | _, _ => some { s with pending }
      | none => none
  | .restart => some { s with cycles := [] }

/-- The header store has a root for the height, and it was sent for it. -/
def Stored (s : State) (x : Int) : Prop :=
  ∃ height root, asU64 x = some height ∧ getMerkleRoot s.store height = .ok root ∧
    ⟨x, root⟩ ∈ s.sent

/-- Once nothing is pending, no height up to the recorded one is missing. -/
def NoGaps (s : State) : Prop :=
  s.pending = [] → ∀ first last, s.first = some first → s.cursor = some last →
    ∀ x, first ≤ x → x ≤ last → Stored s x

/-- The height up to which a cycle takes the headers to be relayed. -/
def Phase.reached : Phase → Option Int
  | tip | ended => none
  | blockHash loop | blockHeader loop | nonce loop _ _ | execute loop _ _ | backoff loop _ _ =>
      some (loop.h - 1)
  | submitted loop | sleeping loop => some loop.h

/-- The heights up to which the recorded height and the cycles under way claim all. -/
def claims (s : State) : List Int := s.cursor.toList ++ s.cycles.filterMap Phase.reached

/-- The height is stored, or a transaction for it is pending. -/
def Covered (s : State) (x : Int) : Prop :=
  (∃ height, asU64 x = some height ∧ s.store.stored height = true) ∨
    ∃ submission ∈ s.pending, submission.height = x

def Backed (s : State) (top : Int) : Prop :=
  ∀ first, s.first = some first → ∀ x, first ≤ x → x ≤ top → Covered s x

/-- A cycle takes the tip for its start only when nothing below it is missing; when the first
transaction is sent nothing is missing behind a cycle that is ahead of it; a transaction whose
height is claimed fails only when another one covers that height. -/
def Allowed (S : Setting) (s : State) : Label → Prop
  | .tip _ (some tipHeight) readable =>
      getLastRelayedHeight s.cursor readable = -1 → Backed s (tipHeight - 1)
  | .executed id (.ok ()) _ =>
      ∀ loop root attempt, s.cycles[id]? = some (.execute loop root attempt) → s.first = none →
        ∀ top ∈ claims s, ∀ x, loop.h < x → x ≤ top → Covered s x
  | .conclude place included =>
      ∀ submission, s.pending[place]? = some submission →
        (included = true → ∃ error, executeStore S s.store submission = .error error) →
        ∀ first, s.first = some first → first ≤ submission.height →
        ∀ top ∈ claims s, submission.height ≤ top →
          Covered { s with pending := s.pending.eraseIdx place } submission.height
  | _ => True

/-- Up to a claimed height everything from the first relayed height on is covered. -/
def AllBacked (s : State) : Prop := ∀ top ∈ claims s, Backed s top

/-- What is claimed is covered; what is stored or pending has been sent. -/
structure Inv (s : State) : Prop where
  covered : AllBacked s
  rooted : ∀ height, s.store.stored height = true →
    ⟨height.toNat, s.store.merkleRoots height⟩ ∈ s.sent
  sent : ∀ submission ∈ s.pending, submission ∈ s.sent

theorem toNat_of_asU64 {x : Int} {height : UInt64} (fits : asU64 x = some height) :
    (height.toNat : Int) = x := by
  unfold asU64 at fits
  split_ifs at fits with range
  cases fits
  obtain ⟨low, high⟩ := range
  have small : x.toNat < 2 ^ 64 := by omega
  rw [UInt64.toNat_ofNat_of_lt' small]
  omega

theorem Inv.stored {s : State} (inv : Inv s) (settled : s.pending = []) {x : Int}
    (covered : Covered s x) : Stored s x := by
  rcases covered with ⟨height, fits, stored⟩ | ⟨submission, member, -⟩
  · have root := inv.rooted height stored
    rw [toNat_of_asU64 fits] at root
    exact ⟨height, _, fits, getMerkleRoot_of_stored stored, root⟩
  · rw [settled] at member
    cases member

theorem Inv.noGaps {s : State} (inv : Inv s) : NoGaps s := by
  intro settled first last start recorded x low high
  have member : last ∈ claims s := by
    rw [claims, recorded]
    exact List.mem_append_left _ (List.mem_singleton_self last)
  exact inv.stored settled (inv.covered last member first start x low high)

theorem mem_claims_of_cycle {s : State} {id : Nat} {phase : Phase} {top : Int}
    (cycle : s.cycles[id]? = some phase) (reached : phase.reached = some top) :
    top ∈ claims s :=
  List.mem_append_right _ (List.mem_filterMap.mpr ⟨phase, List.mem_of_getElem? cycle, reached⟩)

theorem mem_claims_setPhase {s : State} {id : Nat} {phase : Phase} {top : Int}
    (member : top ∈ claims (s.setPhase id phase)) : top ∈ claims s ∨ phase.reached = some top := by
  rcases List.mem_append.mp member with recorded | cycles
  · exact Or.inl (List.mem_append_left _ recorded)
  · obtain ⟨other, among, reached⟩ := List.mem_filterMap.mp cycles
    rcases List.mem_or_eq_of_mem_set among with old | new
    · exact Or.inl (List.mem_append_right _ (List.mem_filterMap.mpr ⟨other, old, reached⟩))
    · rw [new] at reached
      exact Or.inr reached

theorem Inv.setPhase {s : State} (inv : Inv s) {id : Nat} {phase : Phase}
    (backed : ∀ top, phase.reached = some top → Backed s top) : Inv (s.setPhase id phase) := by
  refine ⟨?_, inv.rooted, inv.sent⟩
  intro top member
  rcases mem_claims_setPhase member with old | new
  · exact inv.covered top old
  · exact backed top new

/-- A cycle that claims no more than before, or ends. -/
theorem Inv.keep {s : State} (inv : Inv s) {id : Nat} {old phase : Phase}
    (cycle : s.cycles[id]? = some old)
    (same : phase.reached = none ∨ phase.reached = old.reached) : Inv (s.setPhase id phase) := by
  apply inv.setPhase
  intro top reached
  rcases same with none | same
  · rw [none] at reached
    cases reached
  · rw [same] at reached
    exact inv.covered top (mem_claims_of_cycle cycle reached)

variable {S : Setting}

/-- The start of a cycle is either the tip or the height after the recorded one. -/
theorem startHeight_cases (cursor : Option Int) (readable : Bool) (tipHeight : Int) :
    getLastRelayedHeight cursor readable = -1 ∧ startHeight cursor readable tipHeight = tipHeight ∨
      cursor = some (startHeight cursor readable tipHeight - 1) := by
  unfold startHeight
  dsimp only
  split_ifs with first
  · exact Or.inl ⟨first, rfl⟩
  · right
    cases readable with
    | false => exact absurd rfl first
    | true =>
        cases cursor with
        | none => exact absurd rfl first
        | some last =>
            have same : getLastRelayedHeight (some last) true = last := rfl
            rw [same, add_sub_cancel_right]

theorem Inv.tip {s : State} (inv : Inv s) {id : Nat} {reply : Option Int} {readable : Bool}
    (allowed : Allowed S s (.tip id reply readable)) :
    Inv (s.setPhase id (afterTip s.cursor readable reply)) := by
  apply inv.setPhase
  intro top reached
  cases reply with
  | none => cases reached
  | some tipHeight =>
      rw [afterTip] at reached
      split_ifs at reached
      · cases reached
      · rw [Phase.reached, Option.some.injEq] at reached
        subst reached
        rcases startHeight_cases s.cursor readable tipHeight with ⟨unread, same⟩ | recorded
        · rw [same]
          exact allowed unread
        · exact inv.covered _ (List.mem_append_left _ (Option.mem_toList.mpr recorded))

theorem Covered.submit {s : State} {x : Int} (covered : Covered s x) (submission : Submission) :
    Covered (submit s submission) x := by
  rcases covered with stored | ⟨other, member, same⟩
  · exact Or.inl stored
  · exact Or.inr ⟨other, List.mem_append_left _ member, same⟩

theorem covered_submit (s : State) (submission : Submission) :
    Covered (submit s submission) submission.height :=
  Or.inr ⟨submission, List.mem_append_right _ (List.mem_singleton_self _), rfl⟩

/-- A transaction that is sent covers its height, whoever knows of it. -/
theorem Inv.submitted {s : State} (inv : Inv s) (submission : Submission) :
    Inv (submit s submission) := by
  refine ⟨?_, ?_, ?_⟩
  · intro top member first start x low high
    exact (inv.covered top member first start x low high).submit submission
  · intro height stored
    exact List.mem_append_left _ (inv.rooted height stored)
  · intro other member
    rcases List.mem_append.mp member with old | new
    · exact List.mem_append_left _ (inv.sent other old)
    · exact List.mem_append_right _ new

theorem retry_reached (loop : Loop) (root : Digest) (attempt : Nat) (errMsg : String) :
    (retry loop root attempt errMsg).reached = none ∨
      (retry loop root attempt errMsg).reached = some (loop.h - 1) := by
  unfold retry
  split_ifs
  · exact Or.inl rfl
  · exact Or.inl rfl
  · exact Or.inr rfl

theorem next_reached (loop : Loop) :
    (next loop).reached = none ∨ (next loop).reached = some loop.h := by
  unfold next
  split_ifs
  · right
    rw [Phase.reached, add_sub_cancel_right]
  · exact Or.inl rfl

/-- The hash of the transaction for the next height arrives. -/
theorem Inv.executed {s : State} (inv : Inv s) {id : Nat} {loop : Loop} {root : Digest}
    {attempt : Nat} (cycle : s.cycles[id]? = some (.execute loop root attempt))
    (ahead : s.first = none → ∀ top ∈ claims s, ∀ x, loop.h < x → x ≤ top → Covered s x) :
    Inv ({ submit s ⟨loop.h, root⟩ with first := s.first.or (some loop.h) }.setPhase id
      (.submitted loop)) := by
  have sent := inv.submitted ⟨loop.h, root⟩
  have here : ∀ x, x = loop.h → Covered (submit s ⟨loop.h, root⟩) x := by
    rintro x rfl
    exact covered_submit s ⟨loop.h, root⟩
  have behind := inv.covered _ (mem_claims_of_cycle cycle rfl)
  have started : Inv { submit s ⟨loop.h, root⟩ with
      first := s.first.or (some loop.h) } := by
    refine ⟨?_, sent.rooted, sent.sent⟩
    intro top member first start x low high
    dsimp only at start
    cases known : s.first with
    | none =>
        rw [known, Option.none_or, Option.some.injEq] at start
        by_cases last : x = loop.h
        · exact here x last
        · exact (ahead known top member x (by omega) high).submit ⟨loop.h, root⟩
    | some first' =>
        rw [known, Option.some_or] at start
        exact sent.covered top member first (known.trans start) x low high
  apply started.setPhase
  intro top reached first start x low high
  rw [Phase.reached, Option.some.injEq] at reached
  subst reached
  dsimp only at start
  by_cases last : x = loop.h
  · exact here x last
  · cases known : s.first with
    | none =>
        rw [known, Option.none_or, Option.some.injEq] at start
        omega
    | some first' =>
        rw [known, Option.some_or] at start
        have earlier := behind first (known.trans start) x low (by omega)
        exact earlier.submit ⟨loop.h, root⟩

theorem Inv.record {s : State} (inv : Inv s) {id : Nat} {loop : Loop}
    (cycle : s.cycles[id]? = some (.submitted loop)) :
    Inv ({ s with cursor := some loop.h }.setPhase id (.sleeping loop)) := by
  have reached := inv.covered _ (mem_claims_of_cycle cycle rfl)
  have recorded : Inv { s with cursor := some loop.h } := by
    refine ⟨?_, inv.rooted, inv.sent⟩
    intro top member
    rcases List.mem_append.mp member with cursor | cycles
    · have same : loop.h = top := Option.some.inj (Option.mem_toList.mp cursor)
      rw [← same]
      exact reached
    · exact inv.covered top (List.mem_append_right _ cycles)
  exact recorded.keep cycle (Or.inr rfl)

/-- The transaction at a place leaves the pending ones. -/
theorem Covered.erase {s : State} {x : Int} {place : Nat} {submission : Submission}
    (pending : s.pending[place]? = some submission) (covered : Covered s x)
    (other : x ≠ submission.height) :
    Covered { s with pending := s.pending.eraseIdx place } x := by
  rcases covered with stored | ⟨covering, member, same⟩
  · exact Or.inl stored
  · right
    obtain ⟨i, found⟩ := List.mem_iff_getElem?.mp member
    have apart : i ≠ place := by
      rintro rfl
      rw [found, Option.some.injEq] at pending
      rw [pending] at same
      exact other same.symm
    exact ⟨covering, List.mem_eraseIdx_iff_getElem?.mpr ⟨i, apart, found⟩, same⟩

theorem executeStore_ok {store store' : Headers} {submission : Submission}
    (executed : executeStore S store submission = .ok store') :
    ∃ height, asU64 submission.height = some height ∧
      store'.stored = Function.update store.stored height true ∧
      store'.merkleRoots = Function.update store.merkleRoots height submission.root := by
  unfold executeStore at executed
  split at executed
  · next caller height account fits =>
      rw [storeHeader, Outcome.bind_eq_ok] at executed
      obtain ⟨-, -, done⟩ := executed
      cases done
      exact ⟨height, fits, rfl, rfl⟩
  · cases executed

/-- A block stores the root. -/
theorem Inv.included {s : State} (inv : Inv s) {place : Nat} {submission : Submission}
    (pending : s.pending[place]? = some submission) {store : Headers}
    (executed : executeStore S s.store submission = .ok store) :
    Inv { s with pending := s.pending.eraseIdx place, store } := by
  obtain ⟨height, fits, stored, roots⟩ := executeStore_ok executed
  refine ⟨?_, ?_, ?_⟩
  · intro top member first start x low high
    by_cases here : x = submission.height
    · left
      rw [here]
      exact ⟨height, fits, by rw [stored, Function.update_self]⟩
    · have rest := (inv.covered top member first start x low high).erase pending here
      rcases rest with ⟨other, fits', old⟩ | waiting
      · have kept : Function.update s.store.stored height true other = true := by
          by_cases same : other = height
          · rw [same, Function.update_self]
          · rw [Function.update_of_ne same]
            exact old
        exact Or.inl ⟨other, fits', by rw [stored, kept]⟩
      · exact Or.inr waiting
  · intro other old
    dsimp only at old ⊢
    rw [roots]
    by_cases same : other = height
    · rw [same, Function.update_self, toNat_of_asU64 fits]
      exact inv.sent submission (List.mem_of_getElem? pending)
    · rw [stored, Function.update_of_ne same] at old
      rw [Function.update_of_ne same]
      exact inv.rooted other old
  · intro other member
    exact inv.sent other (List.mem_of_mem_eraseIdx member)

/-- A transaction fails whose height is not claimed, or is covered by another. -/
theorem Inv.failed {s : State} (inv : Inv s) {place : Nat} {submission : Submission}
    (pending : s.pending[place]? = some submission)
    (spare : ∀ first, s.first = some first → first ≤ submission.height →
      ∀ top ∈ claims s, submission.height ≤ top →
        Covered { s with pending := s.pending.eraseIdx place } submission.height) :
    Inv { s with pending := s.pending.eraseIdx place } := by
  refine ⟨?_, inv.rooted, ?_⟩
  · intro top member first start x low high
    by_cases here : x = submission.height
    · rw [here] at low high ⊢
      exact spare first start low top member high
    · exact (inv.covered top member first start x low high).erase pending here
  · intro other member
    exact inv.sent other (List.mem_of_mem_eraseIdx member)

/-- A cycle goes on to another phase of its loop, or ends; nothing else changes. -/
inductive Moves (S : Setting) : Label → Nat → Phase → Phase → Prop where
  | hash {id : Nat} {loop : Loop} {reply : Option Text} : Moves S (.blockHash id reply) id
      (.blockHash loop) (if reply.isSome then .blockHeader loop else .ended)
  | header {id : Nat} {loop : Loop} {reply : Option Text} {root : Digest}
      (prepared : reply.map (prepare S) = some (.ok root)) :
      Moves S (.blockHeader id reply) id (.blockHeader loop) (.nonce loop root 0)
  | unprepared {id : Nat} {loop : Loop} {reply : Option Text} :
      Moves S (.blockHeader id reply) id (.blockHeader loop) .ended
  | nonce {id : Nat} {loop : Loop} {root : Digest} {attempt : Nat} :
      Moves S (.nonce id (.ok ())) id (.nonce loop root attempt) (.execute loop root attempt)
  | noNonce {id : Nat} {loop : Loop} {root : Digest} {attempt : Nat} {errMsg : String} :
      Moves S (.nonce id (.error errMsg)) id (.nonce loop root attempt)
        (retry loop root attempt errMsg)
  | refused {id : Nat} {loop : Loop} {root : Digest} {attempt : Nat} {errMsg : String} :
      Moves S (.executed id (.error errMsg) false) id (.execute loop root attempt)
        (retry loop root attempt errMsg)
  | unrecorded {id : Nat} {loop : Loop} : Moves S (.record id false) id (.submitted loop) .ended
  | again {id : Nat} {loop : Loop} {root : Digest} {attempt : Nat} :
      Moves S (.wake id) id (.backoff loop root attempt) (.nonce loop root (attempt + 1))
  | next {id : Nat} {loop : Loop} : Moves S (.wake id) id (.sleeping loop) (next loop)

/-- What a step does, with what it asks of the cycle or of the transaction. -/
inductive Stepped (S : Setting) (s : State) : Label → State → Prop where
  | start : Stepped S s .start { s with cycles := s.cycles ++ [.tip] }
  | tip {id : Nat} {reply : Option Int} {readable : Bool} (was : s.cycles[id]? = some .tip) :
      Stepped S s (.tip id reply readable) (s.setPhase id (afterTip s.cursor readable reply))
  | moved {label : Label} {id : Nat} {old new : Phase} (was : s.cycles[id]? = some old)
      (moves : Moves S label id old new) : Stepped S s label (s.setPhase id new)
  | executed {id : Nat} {loop : Loop} {root : Digest} {attempt : Nat} {accepted : Bool}
      (was : s.cycles[id]? = some (.execute loop root attempt)) :
      Stepped S s (.executed id (.ok ()) accepted)
        ({ submit s ⟨loop.h, root⟩ with first := s.first.or (some loop.h) }.setPhase id
          (.submitted loop))
  | unheard {id : Nat} {loop : Loop} {root : Digest} {attempt : Nat} {errMsg : String}
      (was : s.cycles[id]? = some (.execute loop root attempt)) :
      Stepped S s (.executed id (.error errMsg) true)
        ((submit s ⟨loop.h, root⟩).setPhase id (retry loop root attempt errMsg))
  | recorded {id : Nat} {loop : Loop} (was : s.cycles[id]? = some (.submitted loop)) :
      Stepped S s (.record id true) ({ s with cursor := some loop.h }.setPhase id (.sleeping loop))
  | included {place : Nat} {submission : Submission} {store : Headers}
      (pending : s.pending[place]? = some submission)
      (executed : executeStore S s.store submission = .ok store) :
      Stepped S s (.conclude place true) { s with pending := s.pending.eraseIdx place, store }
  | failed {place : Nat} {included : Bool} {submission : Submission}
      (pending : s.pending[place]? = some submission)
      (failing : included = true → ∃ error, executeStore S s.store submission = .error error) :
      Stepped S s (.conclude place included) { s with pending := s.pending.eraseIdx place }
  | restart : Stepped S s .restart { s with cycles := [] }

theorem step_stepped {s s' : State} {label : Label} (stepped : step S s label = some s') :
    Stepped S s label s' := by
  cases label with
  | start =>
      cases stepped
      exact .start
  | tip id reply readable =>
      rw [step] at stepped
      split at stepped
      · next was =>
          cases stepped
          exact .tip was
      · cases stepped
  | blockHash id reply =>
      rw [step] at stepped
      split at stepped
      · next loop was =>
          cases stepped
          exact .moved was .hash
      · cases stepped
  | blockHeader id reply =>
      rw [step] at stepped
      split at stepped
      · next loop was =>
          split at stepped
          · next root prepared =>
              cases stepped
              exact .moved was (.header prepared)
          · cases stepped
            exact .moved was .unprepared
      · cases stepped
  | nonce id reply =>
      rw [step] at stepped
      split at stepped
      · next loop root attempt was =>
          cases reply with
          | ok u =>
              cases stepped
              exact .moved was .nonce
          | error errMsg =>
              cases stepped
              exact .moved was .noNonce
      · cases stepped
  | executed id reply accepted =>
      rw [step] at stepped
      split at stepped
      · next loop root attempt was =>
          cases reply with
          | ok u =>
              cases stepped
              exact .executed was
          | error errMsg =>
              cases stepped
              cases accepted with
              | true => exact .unheard was
              | false => exact .moved was .refused
      · cases stepped
  | record id written =>
      rw [step] at stepped
      split at stepped
      · next loop was =>
          cases written with
          | true =>
              cases stepped
              exact .recorded was
          | false =>
              cases stepped
              exact .moved was .unrecorded
      · cases stepped
  | wake id =>
      rw [step] at stepped
      split at stepped
      · next loop root attempt was =>
          cases stepped
          exact .moved was .again
      · next loop was =>
          cases stepped
          exact .moved was .next
      · cases stepped
  | conclude place included =>
      rw [step] at stepped
      split at stepped
      · next submission pending =>
          dsimp only at stepped
          split at stepped
          · next store executed =>
              cases stepped
              exact .included pending executed
          · next failing =>
              cases stepped
              refine .failed pending ?_
              intro included'
              cases executed : executeStore S s.store submission with
              | ok store => exact absurd executed (failing store included')
              | error error => exact ⟨error, rfl⟩
      · cases stepped
  | restart =>
      cases stepped
      exact .restart

theorem Moves.reached {label : Label} {id : Nat} {old new : Phase}
    (moves : Moves S label id old new) : new.reached = none ∨ new.reached = old.reached := by
  cases moves with
  | @hash id loop reply =>
      cases reply with
      | none => exact Or.inl rfl
      | some blockHash => exact Or.inr rfl
  | header prepared => exact Or.inr rfl
  | unprepared => exact Or.inl rfl
  | nonce => exact Or.inr rfl
  | noNonce => exact retry_reached _ _ _ _
  | refused => exact retry_reached _ _ _ _
  | unrecorded => exact Or.inl rfl
  | again => exact Or.inr rfl
  | next => exact next_reached _

theorem inv_step (s : State) (label : Label) (s' : State) (inv : Inv s)
    (allowed : Allowed S s label) (stepped : step S s label = some s') : Inv s' := by
  cases step_stepped stepped with
  | start =>
      refine ⟨?_, inv.rooted, inv.sent⟩
      intro top member
      apply inv.covered top
      rw [claims, List.filterMap_append] at member
      rw [claims]
      simpa [Phase.reached] using member
  | tip was => exact inv.tip allowed
  | moved was moves => exact inv.keep was moves.reached
  | @executed id loop root attempt accepted was =>
      exact inv.executed was (allowed loop root attempt was)
  | @unheard id loop root attempt errMsg was =>
      have sent := inv.submitted ⟨loop.h, root⟩
      exact sent.keep was (retry_reached loop root attempt errMsg)
  | recorded was => exact inv.record was
  | included pending executed => exact inv.included pending executed
  | @failed place included submission pending failing =>
      exact inv.failed pending (allowed submission pending failing)
  | restart =>
      refine ⟨?_, inv.rooted, inv.sent⟩
      intro top member
      apply inv.covered top
      rw [claims, List.filterMap_nil, List.append_nil] at member
      exact List.mem_append_left _ member

theorem mem_claims_set {s : State} {id : Nat} {old phase : Phase} {top : Int}
    (cycle : s.cycles[id]? = some old) (reached : phase.reached = some top) :
    top ∈ claims (s.setPhase id phase) := by
  have inside : id < s.cycles.length := (List.getElem?_eq_some_iff.mp cycle).1
  have set : (s.setPhase id phase).cycles[id]? = some phase := List.getElem?_set_self inside
  exact mem_claims_of_cycle set reached

/-- The claims of the other cycles stay. -/
theorem mem_claims_other {s : State} {id : Nat} {old phase : Phase} {top : Int}
    (cycle : s.cycles[id]? = some old) (apart : old.reached ≠ some top) (member : top ∈ claims s) :
    top ∈ claims (s.setPhase id phase) := by
  rcases List.mem_append.mp member with recorded | cycles
  · exact List.mem_append_left _ recorded
  · obtain ⟨other, among, reached⟩ := List.mem_filterMap.mp cycles
    obtain ⟨i, found⟩ := List.mem_iff_getElem?.mp among
    have elsewhere : i ≠ id := by
      rintro rfl
      rw [cycle, Option.some.injEq] at found
      rw [found] at apart
      exact apart reached
    have kept : (s.setPhase id phase).cycles[i]? = some other := by
      rw [State.setPhase, List.getElem?_set_ne elsewhere.symm, found]
    exact mem_claims_of_cycle kept reached

/-- A step that is not allowed leaves a claimed height that is neither stored nor pending. -/
theorem allowed_of_backed {s s' : State} {label : Label} (stepped : step S s label = some s')
    (backed : AllBacked s') : Allowed S s label := by
  cases label with
  | tip id reply readable =>
      cases reply with
      | none => trivial
      | some tipHeight =>
          intro unread
          rw [step] at stepped
          split at stepped
          · next cycle =>
              cases stepped
              have start : startHeight s.cursor readable tipHeight = tipHeight := if_pos unread
              have reached : (afterTip s.cursor readable (some tipHeight)).reached =
                  some (tipHeight - 1) := by
                rw [afterTip, start, if_neg (lt_irrefl tipHeight), Phase.reached]
              exact backed _ (mem_claims_set cycle reached)
          · cases stepped
  | executed id reply accepted =>
      cases reply with
      | error errMsg => trivial
      | ok u =>
          intro loop root attempt cycle unstarted top member x beyond high
          rw [step, cycle] at stepped
          cases stepped
          have apart : (Phase.execute loop root attempt).reached ≠ some top := by
            intro same
            rw [Phase.reached, Option.some.injEq] at same
            omega
          have first : s.first.or (some loop.h) = some loop.h := by rw [unstarted, Option.none_or]
          rcases backed top (mem_claims_other cycle apart member) loop.h first x (by omega) high
            with stored | ⟨submission, sent, same⟩
          · exact Or.inl stored
          · rcases List.mem_append.mp sent with old | new
            · exact Or.inr ⟨submission, old, same⟩
            · rw [List.mem_singleton.mp new] at same
              dsimp only at same
              omega
  | conclude place included =>
      intro submission pending fails first start low top member high
      rw [step, pending] at stepped
      dsimp only at stepped
      split at stepped
      · next store executed =>
          obtain ⟨error, failed⟩ := fails rfl
          rw [failed] at executed
          cases executed
      · cases stepped
        exact backed top member first start submission.height low high
  | start | blockHash | blockHeader | nonce | record | wake | restart => trivial

theorem inv_initial (relayer : ContractAddress) : Inv (initial relayer) := by
  refine ⟨?_, ?_, ?_⟩
  · intro top member
    cases member
  · intro height stored
    cases stored
  · intro submission member
    cases member

/-- In a run whose steps are all allowed no state has a gap; and the next step is allowed exactly
when it leaves every claimed height stored or pending. -/
theorem no_gaps (S : Setting) (relayer : ContractAddress) {s : State}
    (reached : GuardedRun.Reaches (step S) (Allowed S) (initial relayer) s) :
    NoGaps s ∧ ∀ label s', step S s label = some s' → (Allowed S s label ↔ AllBacked s') := by
  have inv := reached.invariant (inv_initial relayer) inv_step
  refine ⟨inv.noGaps, ?_⟩
  intro label s' stepped
  constructor
  · intro allowed
    exact (inv_step s label s' inv allowed stepped).covered
  · intro backed
    exact allowed_of_backed stepped backed

/-- A check that is enough for being allowed. -/
def passes (S : Setting) (s : State) : Label → Bool
  | .tip _ (some _) readable => getLastRelayedHeight s.cursor readable != -1 || s.first.isNone
  | .executed id (.ok ()) _ =>
      match s.cycles[id]? with
      | some (.execute loop _ _) => s.first.isSome || (claims s).all fun top => top ≤ loop.h
      | _ => true
  | .conclude place included =>
      match s.pending[place]? with
      | some submission =>
          included && (executeStore S s.store submission).isOk ||
            (s.pending.eraseIdx place).any fun other => other.height == submission.height
      | none => true
  | _ => true

theorem allowed_of_passes {s : State} {label : Label} (passed : passes S s label = true) :
    Allowed S s label := by
  cases label with
  | tip id reply readable =>
      cases reply with
      | none => trivial
      | some tipHeight =>
          intro unread first start
          rw [passes, unread, start] at passed
          cases passed
  | executed id reply accepted =>
      cases reply with
      | error errMsg => trivial
      | ok u =>
          intro loop root attempt cycle unstarted top member x beyond high
          rw [passes, cycle, unstarted] at passed
          have behind := of_decide_eq_true (List.all_eq_true.mp passed top member)
          omega
  | conclude place included =>
      intro submission pending fails first start low top member high
      rw [passes, pending] at passed
      rcases Bool.or_eq_true_iff.mp passed with succeeds | other
      · obtain ⟨included', executed⟩ := Bool.and_eq_true_iff.mp succeeds
        obtain ⟨error, failed⟩ := fails included'
        rw [failed] at executed
        cases executed
      · obtain ⟨covering, waiting, same⟩ := List.any_eq_true.mp other
        exact Or.inr ⟨covering, waiting, beq_iff_eq.mp same⟩
  | start | blockHash | blockHeader | nonce | record | wake | restart => trivial

def relayer : Setting := ⟨some 7, true⟩

/-- One height of one cycle, up to the write of the height. -/
def relayed (id : Nat) : List Label :=
  [.blockHash id (some []), .blockHeader id (some (List.replicate 160 '0')), .nonce id (.ok ()),
    .executed id (.ok ()) true, .record id true]

/-- Two cycles overlap and both send height 101; one of its transactions is dropped. -/
def overlapping : List Label :=
  [.start, .tip 0 (some 100) true] ++ relayed 0 ++
    [.conclude 0 true, .start, .tip 1 (some 101) true, .start, .tip 2 (some 101) true] ++
    relayed 1 ++ relayed 2 ++ [.conclude 1 false, .conclude 0 true]

theorem no_gaps_overlapping : ∃ s, GuardedRun.run (step relayer) (initial 7) overlapping = some s ∧
    s.pending = [] ∧ s.first = some 100 ∧ s.cursor = some 101 ∧ NoGaps s := by
  have ran : (GuardedRun.runIf (step relayer) (passes relayer) (initial 7) overlapping).map
      (fun s => (s.pending, s.first, s.cursor)) = some ([], some 100, some 101) := by
    decide +kernel
  obtain ⟨s, ran, same⟩ := Option.map_eq_some_iff.mp ran
  obtain ⟨pending, rest⟩ := Prod.mk.inj same
  obtain ⟨first, cursor⟩ := Prod.mk.inj rest
  refine ⟨s, GuardedRun.run_of_runIf ran, pending, first, cursor, ?_⟩
  exact (no_gaps relayer 7
    (GuardedRun.Reaches.start.of_runIf (fun _ _ => allowed_of_passes) ran)).1

/-- The transaction for height 101 is dropped after 101 and 102 have been recorded. -/
def dropped : List Label :=
  [.start, .tip 0 (some 100) true] ++ relayed 0 ++
    [.conclude 0 true, .start, .tip 1 (some 102) true] ++ relayed 1 ++ [.wake 1] ++ relayed 1 ++
    [.conclude 0 false, .conclude 0 true]

theorem dropped_leaves_gap : ¬ ∀ labels s,
    GuardedRun.run (step relayer) (initial 7) labels = some s → NoGaps s := by
  intro claimed
  have ran : (GuardedRun.run (step relayer) (initial 7) dropped).map
      (fun s => ((s.pending, s.first, s.cursor), s.store.stored 101)) =
        some (([], some 100, some 102), false) := by
    decide +kernel
  obtain ⟨s, ran, same⟩ := Option.map_eq_some_iff.mp ran
  obtain ⟨row, missing⟩ := Prod.mk.inj same
  obtain ⟨pending, rest⟩ := Prod.mk.inj row
  obtain ⟨first, cursor⟩ := Prod.mk.inj rest
  obtain ⟨height, root, fits, stored, -⟩ :=
    claimed dropped s ran pending 100 102 first cursor 101 (by decide) (by decide)
  have here : height = 101 := (Option.some.inj fits).symm
  rw [getMerkleRoot, here, missing] at stored
  cases stored

end PrivateBtc.Backend.RelayCycles
