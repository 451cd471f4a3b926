/- PrivateBtc/Backend/RelayProgress
   digest: The recorded height goes back exactly where a cycle records behind another one. -/

import PrivateBtc.Backend.RelayCycles

set_option autoImplicit false
set_option relaxedAutoImplicit false

namespace PrivateBtc.Backend.RelayProgress

open Library
open Contracts.Corelib (ContractAddress)
open RelayCycles

/-- The height that a cycle is to record next. -/
def due : Phase → Option Int
  | .tip | .ended => none
  | .blockHash loop | .blockHeader loop | .nonce loop _ _ | .execute loop _ _
  | .backoff loop _ _ | .submitted loop => some loop.h
  | .sleeping loop => some (loop.h + 1)

/-- A cycle moves on to the same height or a later one, or it ends. -/
def Advances (old new : Phase) : Prop := ∀ n, due new = some n → ∃ m, due old = some m ∧ m ≤ n

theorem advances_same {old new : Phase} (same : due new = none ∨ due new = due old) :
    Advances old new := by
  intro n reached
  rcases same with none | same
  · rw [none] at reached
    cases reached
  · exact ⟨n, same ▸ reached, le_rfl⟩

theorem retry_due (loop : Loop) (root : Contracts.Hashing.Digest) (attempt : Nat)
    (errMsg : String) : due (retry loop root attempt errMsg) = none ∨
      due (retry loop root attempt errMsg) = some loop.h := by
  unfold retry
  split_ifs
  · exact Or.inl rfl
  · exact Or.inl rfl
  · exact Or.inr rfl

theorem next_due (loop : Loop) : due (next loop) = none ∨ due (next loop) = some (loop.h + 1) := by
  unfold next
  split_ifs
  · exact Or.inr rfl
  · exact Or.inl rfl

theorem due_set {cycles : List Phase} {place id : Nat} {old new phase : Phase} {n : Int}
    (was : cycles[place]? = some old) (advances : Advances old new)
    (cycle : (cycles.set place new)[id]? = some phase) (reached : due phase = some n) :
    ∃ phase' m, cycles[id]? = some phase' ∧ due phase' = some m ∧ m ≤ n := by
  by_cases same : place = id
  · subst same
    rw [List.getElem?_set_self (List.getElem?_eq_some_iff.mp was).1, Option.some.injEq] at cycle
    subst cycle
    obtain ⟨m, before, less⟩ := advances n reached
    exact ⟨old, m, was, before, less⟩
  · rw [List.getElem?_set_ne same] at cycle
    exact ⟨phase, n, cycle, reached, le_rfl⟩

variable {S : Setting} {relayer : ContractAddress}

/-- What a step does to a cycle that has a height to record, and to the recorded height. -/
structure Follows (s s' : State) (label : Label) (id : Nat) (n : Int) : Prop where
  alive : label ≠ .restart
  before : ∃ phase m, s.cycles[id]? = some phase ∧ due phase = some m ∧ m ≤ n
  cursor : s'.cursor = s.cursor ∨ (∃ x, s'.cursor = some x ∧ x < n) ∨
    ∃ other ahead, label = .record other true ∧ other ≠ id ∧
      s.cycles[other]? = some (.submitted ahead) ∧ s'.cursor = some ahead.h

theorem follows_set {s s' : State} {label : Label} {place id : Nat} {old new phase : Phase}
    {n : Int} (alive : label ≠ .restart) (cursor : s'.cursor = s.cursor)
    (cycles : s'.cycles = s.cycles.set place new) (was : s.cycles[place]? = some old)
    (advances : Advances old new) (cycle : s'.cycles[id]? = some phase)
    (reached : due phase = some n) : Follows s s' label id n := by
  rw [cycles] at cycle
  exact ⟨alive, due_set was advances cycle reached, Or.inl cursor⟩

/-- A cycle that goes on has the same height to record, or one more, or none. -/
theorem moves_advance {label : Label} {place : Nat} {old new : Phase}
    (moves : Moves S label place old new) : label ≠ .restart ∧ Advances old new := by
  cases moves with
  | @hash id loop reply =>
      refine ⟨by simp, advances_same ?_⟩
      cases reply with
      | none => exact Or.inl rfl
      | some blockHash => exact Or.inr rfl
  | header prepared => exact ⟨by simp, advances_same (Or.inr rfl)⟩
  | unprepared => exact ⟨by simp, advances_same (Or.inl rfl)⟩
  | nonce => exact ⟨by simp, advances_same (Or.inr rfl)⟩
  | noNonce => exact ⟨by simp, advances_same (retry_due _ _ _ _)⟩
  | refused => exact ⟨by simp, advances_same (retry_due _ _ _ _)⟩
  | unrecorded => exact ⟨by simp, advances_same (Or.inl rfl)⟩
  | again => exact ⟨by simp, advances_same (Or.inr rfl)⟩
  | next => exact ⟨by simp, advances_same (next_due _)⟩

/-- A height to record was there before the step, or the step takes it from the tip. -/
theorem step_due {s s' : State} {label : Label} (stepped : step S s label = some s') {id : Nat}
    {phase : Phase} {n : Int} (cycle : s'.cycles[id]? = some phase)
    (reached : due phase = some n) :
    (∃ tipHeight readable, label = .tip id (some tipHeight) readable ∧
      n = startHeight s.cursor readable tipHeight ∧ s'.cursor = s.cursor) ∨
      Follows s s' label id n := by
  cases step_stepped stepped with
  | start =>
      right
      refine ⟨by simp, ⟨phase, n, ?_, reached, le_rfl⟩, Or.inl rfl⟩
      rcases Nat.lt_or_ge id s.cycles.length with inside | outside
      · rwa [List.getElem?_append_left inside] at cycle
      · rw [List.getElem?_append_right outside] at cycle
        have new := List.mem_of_getElem? cycle
        rw [List.mem_singleton.mp new] at reached
        cases reached
  | @tip place reply readable was =>
      rw [State.setPhase] at cycle
      dsimp only at cycle
      by_cases same : place = id
      · subst same
        rw [List.getElem?_set_self (List.getElem?_eq_some_iff.mp was).1,
          Option.some.injEq] at cycle
        subst cycle
        cases reply with
        | none => cases reached
        | some tipHeight =>
            left
            refine ⟨tipHeight, readable, rfl, ?_, rfl⟩
            rw [afterTip] at reached
            split_ifs at reached
            · cases reached
            · exact (Option.some.inj reached).symm
      · right
        rw [List.getElem?_set_ne same] at cycle
        exact ⟨by simp, ⟨phase, n, cycle, reached, le_rfl⟩, Or.inl rfl⟩
  | moved was moves =>
      obtain ⟨alive, advances⟩ := moves_advance moves
      exact Or.inr (follows_set alive rfl rfl was advances cycle reached)
  | executed was =>
      exact Or.inr (follows_set (by simp) rfl rfl was (advances_same (Or.inr rfl)) cycle reached)
  | @unheard place loop root attempt errMsg was =>
      have advances : Advances (.execute loop root attempt) (retry loop root attempt errMsg) :=
        advances_same (retry_due loop root attempt errMsg)
      exact Or.inr (follows_set (by simp) rfl rfl was advances cycle reached)
  | @recorded place loop was =>
      right
      rw [State.setPhase] at cycle ⊢
      dsimp only at cycle ⊢
      by_cases same : place = id
      · subst same
        rw [List.getElem?_set_self (List.getElem?_eq_some_iff.mp was).1,
          Option.some.injEq] at cycle
        subst cycle
        have next : loop.h + 1 = n := Option.some.inj reached
        refine ⟨by simp, ⟨_, loop.h, was, rfl, by omega⟩, ?_⟩
        exact Or.inr (Or.inl ⟨loop.h, rfl, by omega⟩)
      · rw [List.getElem?_set_ne same] at cycle
        refine ⟨by simp, ⟨phase, n, cycle, reached, le_rfl⟩, ?_⟩
        exact Or.inr (Or.inr ⟨place, loop, rfl, same, was, rfl⟩)
  | included pending executed =>
      exact Or.inr ⟨by simp, ⟨phase, n, cycle, reached, le_rfl⟩, Or.inl rfl⟩
  | failed pending failing =>
      exact Or.inr ⟨by simp, ⟨phase, n, cycle, reached, le_rfl⟩, Or.inl rfl⟩
  | restart => cases cycle

/-- Only the record of a height changes the row. -/
theorem step_cursor {s s' : State} {label : Label} (stepped : step S s label = some s') :
    s'.cursor = s.cursor ∨ ∃ id loop, label = .record id true ∧
      s.cycles[id]? = some (.submitted loop) ∧ s'.cursor = some loop.h := by
  cases step_stepped stepped with
  | @recorded id loop was => exact Or.inr ⟨id, loop, rfl, was, rfl⟩
  | start | tip | moved | executed | unheard | included | failed | restart => exact Or.inl rfl

/-- The cycle under a number took its start in `s₀`, and no restart has come since. -/
structure Took (S : Setting) (relayer : ContractAddress) (first : List Label) (id : Nat)
    (s₀ s₁ : State) (tipHeight : Int) (readable : Bool) (since : List Label) : Prop where
  split : ∃ past, first = past ++ .tip id (some tipHeight) readable :: since ∧
    GuardedRun.run (step S) (initial relayer) past = some s₀
  taken : step S s₀ (.tip id (some tipHeight) readable) = some s₁
  alive : ∀ label ∈ since, label ≠ .restart

/-- Along `since` another cycle has recorded the height. -/
def RecordedByOther (S : Setting) (s₁ : State) (since : List Label) (id : Nat) (x : Int) : Prop :=
  ∃ a other b middle ahead, since = a ++ .record other true :: b ∧
    GuardedRun.run (step S) s₁ a = some middle ∧
    middle.cycles[other]? = some (.submitted ahead) ∧ other ≠ id ∧ ahead.h = x

theorem Took.run {first since : List Label} {id : Nat} {s s₀ s₁ : State} {tipHeight : Int}
    {readable : Bool} (took : Took S relayer first id s₀ s₁ tipHeight readable since)
    (ran : GuardedRun.run (step S) (initial relayer) first = some s) :
    GuardedRun.run (step S) s₁ since = some s := by
  obtain ⟨past, rfl, reached⟩ := took.split
  rw [GuardedRun.run_append, reached, Option.bind_some, GuardedRun.run, took.taken,
    Option.bind_some] at ran
  exact ran

theorem Took.snoc {first since : List Label} {id : Nat} {s₀ s₁ : State} {tipHeight : Int}
    {readable : Bool} (took : Took S relayer first id s₀ s₁ tipHeight readable since)
    {label : Label} (alive : label ≠ .restart) :
    Took S relayer (first ++ [label]) id s₀ s₁ tipHeight readable (since ++ [label]) := by
  obtain ⟨past, rfl, reached⟩ := took.split
  refine ⟨⟨past, by simp, reached⟩, took.taken, ?_⟩
  intro other member
  rcases List.mem_append.mp member with old | new
  · exact took.alive other old
  · rw [List.mem_singleton.mp new]
    exact alive

/-- Where the recorded height of a state comes from, seen from a cycle that is to record `n`. -/
inductive Source (S : Setting) (s₀ s₁ : State) (since : List Label) (id : Nat) (n : Int)
    (cursor : Option Int) : Prop where
  | untouched (same : cursor = s₀.cursor)
  | own (x : Int) (recorded : cursor = some x) (behind : x < n)
  | other (x : Int) (recorded : cursor = some x) (byOther : RecordedByOther S s₁ since id x)

theorem Source.later {s₀ s₁ : State} {since : List Label} {id : Nat} {m n : Int}
    {cursor : Option Int} (source : Source S s₀ s₁ since id m cursor) (less : m ≤ n)
    (label : Label) : Source S s₀ s₁ (since ++ [label]) id n cursor := by
  cases source with
  | untouched same => exact .untouched same
  | own x recorded behind => exact .own x recorded (lt_of_lt_of_le behind less)
  | other x recorded byOther =>
      obtain ⟨a, other, b, middle, ahead, rfl, rest⟩ := byOther
      exact .other x recorded ⟨a, other, b ++ [label], middle, ahead, by simp, rest⟩

theorem origin {first : List Label} {s : State}
    (ran : GuardedRun.run (step S) (initial relayer) first = some s) {id : Nat} {phase : Phase}
    {n : Int} (cycle : s.cycles[id]? = some phase) (reached : due phase = some n) :
    ∃ s₀ s₁ tipHeight readable since,
      Took S relayer first id s₀ s₁ tipHeight readable since ∧
      startHeight s₀.cursor readable tipHeight ≤ n ∧ Source S s₀ s₁ since id n s.cursor := by
  induction first using List.reverseRecOn generalizing s phase n with
  | nil =>
      cases ran
      cases cycle
  | append_singleton first label ih =>
      obtain ⟨m, before, stepped⟩ := GuardedRun.run_snoc.mp ran
      rcases step_due stepped cycle reached with ⟨tipHeight, readable, rfl, start, same⟩ | follows
      · refine ⟨m, s, tipHeight, readable, [], ⟨⟨first, rfl, before⟩, stepped, ?_⟩, start.ge,
          .untouched same⟩
        intro other member
        cases member
      · obtain ⟨phase', n', cycle', reached', less⟩ := follows.before
        obtain ⟨s₀, s₁, tipHeight, readable, since, took, start, source⟩ :=
          ih before cycle' reached'
        refine ⟨s₀, s₁, tipHeight, readable, since ++ [label], took.snoc follows.alive,
          start.trans less, ?_⟩
        rcases follows.cursor with same | ⟨x, recorded, behind⟩ |
          ⟨other, ahead, rfl, apart, submitted, recorded⟩
        · rw [same]
          exact source.later less label
        · exact .own x recorded behind
        · exact .other ahead.h recorded
            ⟨since, other, [], m, ahead, by simp, took.run before, submitted, apart, rfl⟩

def KeepsProgress (s s' : State) : Prop :=
  ∀ x, s.cursor = some x → ∃ y, s'.cursor = some y ∧ x ≤ y

/-- The recorded height does not decrease from any state of a run to a later one. -/
def Progresses (S : Setting) (relayer : ContractAddress) (labels : List Label) : Prop :=
  ∀ first middle last s s', labels = first ++ middle ++ last →
    GuardedRun.run (step S) (initial relayer) first = some s →
    GuardedRun.run (step S) s middle = some s' → KeepsProgress s s'

/-- A cycle that records a height has not been overtaken: no other cycle has recorded a greater one
since it took its start, and if it took the tip for its start, none was recorded then. -/
def InOrder (S : Setting) (relayer : ContractAddress) (labels : List Label) : Prop :=
  ∀ first id last s loop, labels = first ++ .record id true :: last →
    GuardedRun.run (step S) (initial relayer) first = some s →
    s.cycles[id]? = some (.submitted loop) →
    ∀ s₀ s₁ tipHeight readable since, Took S relayer first id s₀ s₁ tipHeight readable since →
      (∀ x, RecordedByOther S s₁ since id x → x ≤ loop.h) ∧
      (getLastRelayedHeight s₀.cursor readable = -1 → ∀ x, s₀.cursor = some x → x ≤ loop.h)

theorem KeepsProgress.refl (s : State) : KeepsProgress s s := fun x recorded => ⟨x, recorded, le_rfl⟩

theorem KeepsProgress.trans {s₁ s₂ s₃ : State} (first : KeepsProgress s₁ s₂)
    (second : KeepsProgress s₂ s₃) : KeepsProgress s₁ s₃ := by
  intro x recorded
  obtain ⟨y, later, above⟩ := first x recorded
  obtain ⟨z, last, top⟩ := second y later
  exact ⟨z, last, above.trans top⟩

theorem record_step {s : State} {id : Nat} {loop : Loop}
    (submitted : s.cycles[id]? = some (.submitted loop)) :
    ∃ s', step S s (.record id true) = some s' ∧ s'.cursor = some loop.h := by
  refine ⟨{ s with cursor := some loop.h }.setPhase id (.sleeping loop), ?_, rfl⟩
  rw [step, submitted]
  rfl

theorem inOrder_of_progresses {labels : List Label} (progresses : Progresses S relayer labels) :
    InOrder S relayer labels := by
  intro first id last s loop split ran submitted s₀ s₁ tipHeight readable since took
  obtain ⟨s', stepped, recorded⟩ := record_step (S := S) submitted
  have toEnd := took.run ran
  obtain ⟨past, rfl, reached⟩ := took.split
  constructor
  · rintro x ⟨a, other, b, middle, ahead, rfl, early, submittedOther, -, rfl⟩
    obtain ⟨middle', steppedOther, recordedOther⟩ := record_step (S := S) submittedOther
    rw [GuardedRun.run_append, early, Option.bind_some, GuardedRun.run, steppedOther,
      Option.bind_some] at toEnd
    have before : GuardedRun.run (step S) (initial relayer)
        (past ++ .tip id (some tipHeight) readable :: (a ++ [.record other true])) =
        some middle' := by
      rw [GuardedRun.run_append, reached, Option.bind_some, GuardedRun.run, took.taken,
        Option.bind_some]
      exact GuardedRun.run_snoc.mpr ⟨middle, early, steppedOther⟩
    obtain ⟨y, later, above⟩ := progresses _ (b ++ [.record id true]) last middle' s'
      (by simp [split]) before (GuardedRun.run_snoc.mpr ⟨s, toEnd, stepped⟩) _ recordedOther
    rw [recorded, Option.some.injEq] at later
    rw [later]
    exact above
  · intro _ x known
    have onward : GuardedRun.run (step S) s₀
        (.tip id (some tipHeight) readable :: since ++ [.record id true]) = some s' := by
      refine GuardedRun.run_snoc.mpr ⟨s, ?_, stepped⟩
      rw [GuardedRun.run, took.taken, Option.bind_some]
      exact toEnd
    obtain ⟨y, later, above⟩ := progresses past _ last s₀ s' (by simp [split]) reached onward x known
    rw [recorded, Option.some.injEq] at later
    rw [later]
    exact above

theorem progresses_of_inOrder {labels : List Label} (ordered : InOrder S relayer labels) :
    Progresses S relayer labels := by
  apply (GuardedRun.run_keeps_iff KeepsProgress.refl fun _ _ _ => KeepsProgress.trans).mpr
  intro first label last s s' split ran stepped x known
  rcases step_cursor stepped with same | ⟨id, loop, rfl, submitted, recorded⟩
  · exact ⟨x, same.trans known, le_rfl⟩
  · refine ⟨loop.h, recorded, ?_⟩
    obtain ⟨s₀, s₁, tipHeight, readable, since, took, start, source⟩ := origin ran submitted rfl
    obtain ⟨others, tip⟩ := ordered first id last s loop split ran submitted s₀ s₁ tipHeight
      readable since took
    cases source with
    | untouched same =>
        have read : s₀.cursor = some x := same.symm.trans known
        rcases startHeight_cases s₀.cursor readable tipHeight with ⟨unread, -⟩ | after
        · exact tip unread x read
        · have start' := read.symm.trans after
          rw [Option.some.injEq] at start'
          omega
    | own y written behind =>
        rw [known, Option.some.injEq] at written
        omega
    | other y written byOther =>
        rw [known, Option.some.injEq] at written
        rw [written]
        exact others y byOther

/-- For every schedule the recorded height never goes back if and only if no cycle records a
height after it was overtaken. -/
theorem progresses_iff (S : Setting) (relayer : ContractAddress) (labels : List Label) :
    Progresses S relayer labels ↔ InOrder S relayer labels :=
  ⟨inOrder_of_progresses, progresses_of_inOrder⟩

/-- Two cycles start from the same row; the second is ahead when the first records. -/
def overtaken : List Label :=
  [.start, .tip 0 (some 100) true, .start, .tip 1 (some 101) true] ++ relayed 1 ++ relayed 0

theorem overtaken_goes_back : ¬ ∀ labels, Progresses RelayCycles.relayer 7 labels := by
  intro progresses
  have ran : ((GuardedRun.run (step RelayCycles.relayer) (initial 7)
      ([.start, .tip 0 (some 100) true, .start, .tip 1 (some 101) true] ++ relayed 1)).bind
      fun s => (GuardedRun.run (step RelayCycles.relayer) s (relayed 0)).map
        fun s' => (s.cursor, s'.cursor)) = some (some 101, some 100) := by decide +kernel
  obtain ⟨s, first, ran⟩ := Option.bind_eq_some_iff.mp ran
  obtain ⟨s', second, rows⟩ := Option.map_eq_some_iff.mp ran
  simp only [Prod.mk.injEq] at rows
  obtain ⟨before, after⟩ := rows
  obtain ⟨y, later, above⟩ :=
    progresses overtaken _ _ [] s s' (by simp [overtaken]) first second 101 before
  rw [after, Option.some.injEq] at later
  omega

end PrivateBtc.Backend.RelayProgress
