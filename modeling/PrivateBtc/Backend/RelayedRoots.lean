/- PrivateBtc/Backend/RelayedRoots
   digest: Every stored root was fetched for its height, in order, by one cycle of the relay. -/

import PrivateBtc.Backend.RelayCycles

set_option autoImplicit false
set_option relaxedAutoImplicit false

namespace PrivateBtc.Backend.RelayedRoots

open Library Library.JsText Library.GuardedRun
open Contracts.Corelib Contracts.Hashing Contracts.HeaderStore
open HeaderRelay RelayCycles

/-- The cycle that a label is for. -/
def cycleOf : Label → Option Nat
  | .tip id _ _ | .blockHash id _ | .blockHeader id _ | .nonce id _ | .executed id _ _
  | .record id _ | .wake id => some id
  | .start | .conclude _ _ | .restart => none

def Alive (label : Label) : Prop := label ≠ .restart

/-- Nothing is for this cycle, and its process goes on. -/
def Still (id : Nat) (label : Label) : Prop := label ≠ .restart ∧ cycleOf label ≠ some id

section History

variable (S : Setting) (relayer : ContractAddress) (id : Nat)

/-- The API answered the tip, and the cycle took its heights from it and the recorded height. -/
def Told (start endHeight : Int) : List Label → Prop :=
  Since (step S) (initial relayer) Alive fun _ s label => ∃ tipHeight readable,
    label = .tip id (some tipHeight) readable ∧ start = startHeight s.cursor readable tipHeight ∧
      endHeight = min (start + 9) tipHeight

/-- The node answered with the hash of a transaction for the height, and the row was written. -/
def Recorded (x : Int) : List Label → Prop :=
  Since (step S) (initial relayer) Alive fun _ s label => label = .record id true ∧
    ∃ loop, s.cycles[id]? = some (.submitted loop) ∧ loop.h = x

/-- The loop is at one of its heights, and has recorded all those before. -/
def Reached (loop : Loop) (labels : List Label) : Prop :=
  loop.h ≤ loop.endHeight ∧
    ∃ start, start ≤ loop.h ∧ Told S relayer id start loop.endHeight labels ∧
      ∀ x, start ≤ x → x < loop.h → Recorded S relayer id x labels

/-- The last answer that the cycle got is the hash of the block at its height. -/
def Looked (loop : Loop) : List Label → Prop :=
  Since (step S) (initial relayer) (Still id) fun before s label => ∃ blockHash,
    label = .blockHash id (some blockHash) ∧ s.cycles[id]? = some (.blockHash loop) ∧
      Reached S relayer id loop before

/-- The API answered the header of that block, and the root is what it carries. -/
def Fetched (loop : Loop) (root : Digest) : List Label → Prop :=
  Since (step S) (initial relayer) Alive fun before s label => ∃ headerHex,
    label = .blockHeader id (some headerHex) ∧ s.cycles[id]? = some (.blockHeader loop) ∧
      prepare S headerHex = .ok root ∧ Looked S relayer id loop before

/-- Some cycle sent the root for its height, and the node took the transaction. -/
def Sent (submission : Submission) : List Label → Prop :=
  Since (step S) (initial relayer) (fun _ => True) fun before s label =>
    ∃ id loop attempt reply accepted, label = .executed id reply accepted ∧
      (reply = .ok () ∨ accepted = true) ∧
      s.cycles[id]? = some (.execute loop submission.root attempt) ∧ loop.h = submission.height ∧
      Fetched S relayer id loop submission.root before

/-- A block included the transaction, and the contract stored the root. -/
def Included (height : UInt64) (root : Digest) : List Label → Prop :=
  Since (step S) (initial relayer) (fun _ => True) fun before s label => ∃ place x store,
    label = .conclude place true ∧ s.pending[place]? = some ⟨x, root⟩ ∧ asU64 x = some height ∧
      executeStore S s.store ⟨x, root⟩ = .ok store ∧ Sent S relayer ⟨x, root⟩ before

/-- What lies behind a cycle in each of its phases. -/
def Behind : Phase → List Label → Prop
  | .tip, _ | .ended, _ => True
  | .blockHash loop, labels | .submitted loop, labels => Reached S relayer id loop labels
  | .blockHeader loop, labels => Reached S relayer id loop labels ∧ Looked S relayer id loop labels
  | .nonce loop root _, labels | .execute loop root _, labels | .backoff loop root _, labels =>
      Reached S relayer id loop labels ∧ Fetched S relayer id loop root labels
  | .sleeping loop, labels =>
      Reached S relayer id loop labels ∧ Recorded S relayer id loop.h labels

/-- What lies behind the cycles, the transactions under way and the stored roots. -/
structure Traced (labels : List Label) (s : State) : Prop where
  ran : run (step S) (initial relayer) labels = some s
  cycles : ∀ id phase, s.cycles[id]? = some phase → Behind S relayer id phase labels
  pending : ∀ submission ∈ s.pending, Sent S relayer submission labels
  stored : ∀ height, s.store.stored height = true →
    Included S relayer height (s.store.merkleRoots height) labels

end History

variable {S : Setting} {relayer : ContractAddress} {id : Nat} {labels : List Label}
  {label : Label} {s s' : State}

theorem Reached.snoc {loop : Loop} (reached : Reached S relayer id loop labels)
    (alive : Alive label) : Reached S relayer id loop (labels ++ [label]) := by
  obtain ⟨within, start, low, told, recorded⟩ := reached
  refine ⟨within, start, low, told.snoc alive, ?_⟩
  intro x above below
  exact (recorded x above below).snoc alive

theorem Behind.snoc {phase : Phase} (behind : Behind S relayer id phase labels)
    (still : Still id label) : Behind S relayer id phase (labels ++ [label]) := by
  have alive : Alive label := still.1
  cases phase with
  | tip => trivial
  | ended => trivial
  | blockHash loop => exact Reached.snoc behind alive
  | submitted loop => exact Reached.snoc behind alive
  | blockHeader loop => exact ⟨behind.1.snoc alive, behind.2.snoc still⟩
  | nonce loop root attempt => exact ⟨behind.1.snoc alive, behind.2.snoc alive⟩
  | execute loop root attempt => exact ⟨behind.1.snoc alive, behind.2.snoc alive⟩
  | backoff loop root attempt => exact ⟨behind.1.snoc alive, behind.2.snoc alive⟩
  | sleeping loop => exact ⟨behind.1.snoc alive, behind.2.snoc alive⟩

/-- One cycle goes on, and the others stay where they were. -/
theorem Traced.set (traced : Traced S relayer labels s) {place : Nat} {new : Phase}
    (for_ : cycleOf label = some place)
    (behind : Behind S relayer place new (labels ++ [label])) {phase : Phase}
    (cycle : (s.cycles.set place new)[id]? = some phase) :
    Behind S relayer id phase (labels ++ [label]) := by
  by_cases same : place = id
  · subst same
    have inside : place < s.cycles.length := by
      have bound := (List.getElem?_eq_some_iff.mp cycle).1
      rwa [List.length_set] at bound
    rw [List.getElem?_set_self inside, Option.some.injEq] at cycle
    rwa [← cycle]
  · rw [List.getElem?_set_ne same] at cycle
    refine (traced.cycles id phase cycle).snoc ⟨?_, ?_⟩
    · rintro rfl
      cases for_
    · rw [for_, Ne, Option.some.injEq]
      exact same

theorem behind_retry {loop : Loop} {root : Digest} {attempt : Nat} {errMsg : String}
    (reached : Reached S relayer id loop labels) (fetched : Fetched S relayer id loop root labels) :
    Behind S relayer id (retry loop root attempt errMsg) labels := by
  unfold retry
  split_ifs
  · trivial
  · trivial
  · exact ⟨reached, fetched⟩

theorem behind_next {loop : Loop} (reached : Reached S relayer id loop labels)
    (recorded : Recorded S relayer id loop.h labels) :
    Behind S relayer id (next loop) labels := by
  obtain ⟨-, start, low, told, before⟩ := reached
  unfold next
  split_ifs with more
  · refine ⟨more, start, by dsimp only; omega, told, ?_⟩
    intro x above below
    by_cases here : x = loop.h
    · rwa [here]
    · exact before x above (by dsimp only at below; omega)
  · trivial

theorem behind_tip (ran : run (step S) (initial relayer) labels = some s) {reply : Option Int}
    {readable : Bool} : Behind S relayer id (afterTip s.cursor readable reply)
      (labels ++ [.tip id reply readable]) := by
  cases reply with
  | none => trivial
  | some tipHeight =>
      rw [afterTip]
      split_ifs with ahead
      · trivial
      · refine ⟨by dsimp only; omega, _, le_rfl, ?_, ?_⟩
        · exact Since.now ran ⟨tipHeight, readable, rfl, rfl, rfl⟩
        · intro x above below
          exact absurd below (by dsimp only; omega)

theorem moves_cycleOf {place : Nat} {old new : Phase} (moves : Moves S label place old new) :
    cycleOf label = some place := by
  cases moves <;> rfl

theorem alive_of_cycleOf {place : Nat} (for_ : cycleOf label = some place) : Alive label := by
  rintro rfl
  cases for_

theorem Traced.moved (traced : Traced S relayer labels s) {place : Nat} {old new : Phase}
    (was : s.cycles[place]? = some old) (moves : Moves S label place old new) :
    Behind S relayer place new (labels ++ [label]) := by
  have behind := traced.cycles place old was
  have alive : Alive label := alive_of_cycleOf (moves_cycleOf moves)
  cases moves with
  | @hash place loop reply =>
      cases reply with
      | none => trivial
      | some blockHash =>
          have reached : Reached S relayer place loop labels := behind
          exact ⟨reached.snoc alive, Since.now traced.ran ⟨blockHash, rfl, was, reached⟩⟩
  | @header place loop reply root prepared =>
      obtain ⟨headerHex, rfl, parsed⟩ := Option.map_eq_some_iff.mp prepared
      exact ⟨behind.1.snoc alive, Since.now traced.ran ⟨headerHex, rfl, was, parsed, behind.2⟩⟩
  | unprepared => trivial
  | nonce => exact ⟨behind.1.snoc alive, behind.2.snoc alive⟩
  | noNonce => exact behind_retry (behind.1.snoc alive) (behind.2.snoc alive)
  | refused => exact behind_retry (behind.1.snoc alive) (behind.2.snoc alive)
  | unrecorded => trivial
  | again => exact ⟨behind.1.snoc alive, behind.2.snoc alive⟩
  | next => exact behind_next (behind.1.snoc alive) (behind.2.snoc alive)

/-- A step after which nothing new is stored. -/
theorem Traced.keep (traced : Traced S relayer labels s) (stepped : step S s label = some s')
    (cycles : ∀ id phase, s'.cycles[id]? = some phase →
      Behind S relayer id phase (labels ++ [label]))
    (pending : ∀ submission ∈ s'.pending, submission ∈ s.pending ∨
      Sent S relayer submission (labels ++ [label]))
    (store : s'.store = s.store) : Traced S relayer (labels ++ [label]) s' := by
  refine ⟨run_snoc.mpr ⟨s, traced.ran, stepped⟩, cycles, ?_, ?_⟩
  · intro submission member
    rcases pending submission member with old | new
    · exact (traced.pending submission old).snoc trivial
    · exact new
  · intro height stored
    rw [store] at stored ⊢
    exact (traced.stored height stored).snoc trivial

theorem Traced.submitted (traced : Traced S relayer labels s) {place attempt : Nat} {loop : Loop}
    {root : Digest} {reply : Except String Unit} {accepted : Bool}
    (was : s.cycles[place]? = some (.execute loop root attempt))
    (taken : reply = .ok () ∨ accepted = true) {submission : Submission}
    (member : submission ∈ s.pending ++ [⟨loop.h, root⟩]) : submission ∈ s.pending ∨
      Sent S relayer submission (labels ++ [.executed place reply accepted]) := by
  rcases List.mem_append.mp member with old | new
  · exact Or.inl old
  · right
    have behind := traced.cycles place _ was
    rw [List.mem_singleton.mp new]
    exact Since.now traced.ran
      ⟨place, loop, attempt, reply, accepted, rfl, taken, was, rfl, behind.2⟩

theorem Traced.included (traced : Traced S relayer labels s) {place : Nat}
    {submission : Submission} {store : Headers}
    (pending : s.pending[place]? = some submission)
    (executed : executeStore S s.store submission = .ok store)
    (stepped : step S s (.conclude place true) =
      some { s with pending := s.pending.eraseIdx place, store }) :
    Traced S relayer (labels ++ [.conclude place true])
      { s with pending := s.pending.eraseIdx place, store } := by
  obtain ⟨height, fits, stored, roots⟩ := executeStore_ok executed
  refine ⟨run_snoc.mpr ⟨s, traced.ran, stepped⟩, ?_, ?_, ?_⟩
  · intro id phase cycle
    exact (traced.cycles id phase cycle).snoc ⟨by simp, by simp [cycleOf]⟩
  · intro other member
    exact (traced.pending other (List.mem_of_mem_eraseIdx member)).snoc trivial
  · intro other known
    dsimp only at known ⊢
    rw [roots]
    by_cases same : other = height
    · rw [same, Function.update_self]
      have sent := traced.pending submission (List.mem_of_getElem? pending)
      exact Since.now traced.ran
        ⟨place, submission.height, store, rfl, pending, fits, executed, sent⟩
    · rw [stored, Function.update_of_ne same] at known
      rw [Function.update_of_ne same]
      exact (traced.stored other known).snoc trivial

theorem traced_step (labels : List Label) (s : State) (label : Label) (s' : State)
    (traced : Traced S relayer labels s) (stepped : step S s label = some s') :
    Traced S relayer (labels ++ [label]) s' := by
  cases step_stepped stepped with
  | start =>
      refine traced.keep stepped ?_ (fun _ => Or.inl) rfl
      intro id phase cycle
      rcases Nat.lt_or_ge id s.cycles.length with inside | outside
      · rw [List.getElem?_append_left inside] at cycle
        exact (traced.cycles id phase cycle).snoc ⟨by simp, by simp [cycleOf]⟩
      · rw [List.getElem?_append_right outside] at cycle
        rw [List.mem_singleton.mp (List.mem_of_getElem? cycle)]
        trivial
  | tip was =>
      refine traced.keep stepped ?_ (fun _ => Or.inl) rfl
      intro id phase cycle
      exact traced.set rfl (behind_tip traced.ran) cycle
  | moved was moves =>
      refine traced.keep stepped ?_ (fun _ => Or.inl) rfl
      intro id phase cycle
      exact traced.set (moves_cycleOf moves) (traced.moved was moves) cycle
  | @executed place loop root attempt accepted was =>
      refine traced.keep stepped ?_ (fun _ => traced.submitted was (Or.inl rfl)) rfl
      intro id phase cycle
      have behind := traced.cycles _ _ was
      have submitted : Behind S relayer place (.submitted loop)
          (labels ++ [.executed place (.ok ()) accepted]) := behind.1.snoc (by simp [Alive])
      exact traced.set rfl submitted cycle
  | unheard was =>
      refine traced.keep stepped ?_ (fun _ => traced.submitted was (Or.inr rfl)) rfl
      intro id phase cycle
      have behind := traced.cycles _ _ was
      have alive : ∀ place errMsg, Alive (.executed place (.error errMsg) true) := by
        simp [Alive]
      exact traced.set rfl (behind_retry (behind.1.snoc (alive _ _)) (behind.2.snoc (alive _ _)))
        cycle
  | @recorded place loop was =>
      refine traced.keep stepped ?_ (fun _ => Or.inl) rfl
      intro id phase cycle
      have reached : Reached S relayer place loop labels := traced.cycles _ _ was
      have sleeping : Behind S relayer place (.sleeping loop) (labels ++ [.record place true]) :=
        ⟨reached.snoc (by simp [Alive]), Since.now traced.ran ⟨rfl, loop, was, rfl⟩⟩
      exact traced.set rfl sleeping cycle
  | included pending executed => exact traced.included pending executed stepped
  | failed pending failing =>
      refine traced.keep stepped ?_ ?_ rfl
      · intro id phase cycle
        exact (traced.cycles id phase cycle).snoc ⟨by simp, by simp [cycleOf]⟩
      · intro submission member
        exact Or.inl (List.mem_of_mem_eraseIdx member)
  | restart =>
      refine traced.keep stepped ?_ (fun _ => Or.inl) rfl
      intro id phase cycle
      rw [List.getElem?_nil] at cycle
      cases cycle

theorem traced_initial : Traced S relayer [] (initial relayer) := by
  refine ⟨rfl, ?_, ?_, ?_⟩
  · intro id phase cycle
    cases cycle
  · intro submission member
    cases member
  · intro height stored
    cases stored

/-- Whatever the API and the node answer, however cycles overlap and processes restart: each root
that the contract answers was included from a transaction of one cycle, which had been told the
tip, had recorded every height from its start on, and had asked for this block and its header. -/
theorem roots_fetched (S : Setting) (relayer : ContractAddress) {labels : List Label} {s : State}
    (ran : run (step S) (initial relayer) labels = some s) {height : UInt64} {root : Digest}
    (answered : getMerkleRoot s.store height = .ok root) :
    Included S relayer height root labels := by
  have traced : Traced S relayer ([] ++ labels) s := run_traces traced_step ran traced_initial
  rw [getMerkleRoot, Outcome.bind_eq_ok] at answered
  obtain ⟨_, known, same⟩ := answered
  cases same
  exact traced.stored height (assert_ok.mp known)

/-- Of two cycles that both sent height 101, the transaction of the later one was included. -/
theorem roots_fetched_overlapping : ∃ s root,
    run (step RelayCycles.relayer) (initial 7) overlapping = some s ∧
      getMerkleRoot s.store 101 = .ok root ∧
      Included RelayCycles.relayer 7 101 root overlapping := by
  have ran : (run (step RelayCycles.relayer) (initial 7) overlapping).map
      (fun s => s.store.stored 101) = some true := by
    decide +kernel
  obtain ⟨s, ran, stored⟩ := Option.map_eq_some_iff.mp ran
  have answered := getMerkleRoot_of_stored stored
  exact ⟨s, _, ran, answered, roots_fetched RelayCycles.relayer 7 ran answered⟩

end PrivateBtc.Backend.RelayedRoots
