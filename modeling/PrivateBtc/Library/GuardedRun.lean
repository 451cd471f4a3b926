/- PrivateBtc/Library/GuardedRun
   digest: Runs of a labelled step function whose steps all meet a condition on state and label. -/

import Mathlib.Algebra.Ring.Nat
import Mathlib.Tactic.SplitIfs
import Mathlib.Tactic.TypeStar

set_option autoImplicit false
set_option relaxedAutoImplicit false

namespace PrivateBtc.Library.GuardedRun

universe u v

variable {S : Type u} {L : Type v} (step : S → L → Option S)

def run (s : S) : List L → Option S
  | [] => some s
  | label :: labels => (step s label).bind fun s' => run s' labels

/-- A run that stops at a label that fails its check. -/
def runIf (check : S → L → Bool) (s : S) : List L → Option S
  | [] => some s
  | label :: labels =>
      if check s label then (step s label).bind fun s' => runIf check s' labels else none

/-- The states of the runs from `start` whose steps are all allowed. -/
inductive Reaches (allowed : S → L → Prop) (start : S) : S → Prop where
  | start : Reaches allowed start start
  | step {s s' : S} {label : L} (before : Reaches allowed start s) (permitted : allowed s label)
      (stepped : step s label = some s') : Reaches allowed start s'

variable {step} {allowed : S → L → Prop} {start s s' : S}

/-- What holds at the start and is preserved by every allowed step holds in every state reached. -/
theorem Reaches.invariant {invariant : S → Prop} (reached : Reaches step allowed start s)
    (holds : invariant start)
    (preserved : ∀ s label s', invariant s → allowed s label → step s label = some s' →
      invariant s') : invariant s := by
  induction reached with
  | start => exact holds
  | step _ permitted stepped ih => exact preserved _ _ _ ih permitted stepped

/-- A run over labels that are allowed in every state. -/
theorem Reaches.of_run {labels : List L} (before : Reaches step allowed start s)
    (permitted : ∀ label ∈ labels, ∀ s, allowed s label)
    (ran : run step s labels = some s') : Reaches step allowed start s' := by
  induction labels generalizing s with
  | nil =>
      cases ran
      exact before
  | cons label labels ih =>
      rw [run, Option.bind_eq_some_iff] at ran
      obtain ⟨s₁, stepped, rest⟩ := ran
      have first := before.step (permitted label List.mem_cons_self s) stepped
      exact ih first (fun l member => permitted l (.tail _ member)) rest

/-- A run whose labels all pass a check that is enough for being allowed. -/
theorem Reaches.of_runIf {check : S → L → Bool} {labels : List L}
    (sound : ∀ s label, check s label = true → allowed s label)
    (before : Reaches step allowed start s) (ran : runIf step check s labels = some s') :
    Reaches step allowed start s' := by
  induction labels generalizing s with
  | nil =>
      cases ran
      exact before
  | cons label labels ih =>
      rw [runIf] at ran
      split_ifs at ran with passed
      obtain ⟨s₁, stepped, rest⟩ := Option.bind_eq_some_iff.mp ran
      exact ih (before.step (sound s label passed) stepped) rest

/-- What every step preserves, a run preserves. -/
theorem run_preserves (kept : S → Prop)
    (preserved : ∀ s label s', kept s → step s label = some s' → kept s') {labels : List L}
    (ran : run step s labels = some s') (holds : kept s) : kept s' := by
  have reached : Reaches step (fun _ _ => True) s s' :=
    Reaches.start.of_run (fun _ _ _ => trivial) ran
  exact reached.invariant holds fun s label s' before _ stepped =>
    preserved s label s' before stepped

/-- What every step preserves together with the labels so far, a run preserves with its labels. -/
theorem run_traces {kept : List L → S → Prop}
    (preserved : ∀ labels s label s', kept labels s → step s label = some s' →
      kept (labels ++ [label]) s') {before labels : List L}
    (ran : run step s labels = some s') (holds : kept before s) : kept (before ++ labels) s' := by
  induction labels generalizing s before with
  | nil =>
      cases ran
      rwa [List.append_nil]
  | cons label labels ih =>
      rw [run, Option.bind_eq_some_iff] at ran
      obtain ⟨s₁, stepped, rest⟩ := ran
      rw [List.append_cons]
      exact ih rest (preserved before s label s₁ holds stepped)

/-- Where every label takes its cost from what is left, a run costs at most what was left. -/
theorem run_spends {M : Type*} {left : S → Nat} {labelOf : M → L} {cost : M → Nat}
    {labels : List M}
    (spends : ∀ label ∈ labels, ∀ s s', step s (labelOf label) = some s' →
      left s' + cost label ≤ left s)
    (ran : run step s (labels.map labelOf) = some s') :
    left s' + (labels.map cost).sum ≤ left s := by
  induction labels generalizing s with
  | nil =>
      cases ran
      exact Nat.le_refl _
  | cons label labels ih =>
      rw [List.map_cons, run, Option.bind_eq_some_iff] at ran
      obtain ⟨s₁, stepped, rest⟩ := ran
      have first := spends label List.mem_cons_self s s₁ stepped
      have later := ih (fun l member => spends l (.tail _ member)) rest
      rw [List.map_cons, List.sum_cons]
      omega

theorem run_append {labels more : List L} :
    run step s (labels ++ more) = (run step s labels).bind fun s' => run step s' more := by
  induction labels generalizing s with
  | nil => rfl
  | cons label labels ih =>
      rw [List.cons_append, run, run, Option.bind_assoc]
      congr 1
      funext s₁
      exact ih

theorem run_snoc {labels : List L} {label : L} :
    run step s (labels ++ [label]) = some s' ↔
      ∃ middle, run step s labels = some middle ∧ step middle label = some s' := by
  rw [run_append, Option.bind_eq_some_iff]
  simp [run]

variable (step) (start) in
/-- Some label of the run met a condition on the labels before it, its state and itself, and only
quiet labels came since. -/
def Since (quiet : L → Prop) (event : List L → S → L → Prop) (labels : List L) : Prop :=
  ∃ before s label after, labels = before ++ label :: after ∧ run step start before = some s ∧
    event before s label ∧ ∀ later ∈ after, quiet later

namespace Since

variable {quiet : L → Prop} {event : List L → S → L → Prop} {labels : List L}
  {label : L}

theorem now (ran : run step start labels = some s) (met : event labels s label) :
    Since step start quiet event (labels ++ [label]) :=
  ⟨labels, s, label, [], rfl, ran, met, fun _ member => by cases member⟩

theorem snoc (since : Since step start quiet event labels) (silent : quiet label) :
    Since step start quiet event (labels ++ [label]) := by
  obtain ⟨before, s, met, after, rfl, ran, holds, rest⟩ := since
  refine ⟨before, s, met, after ++ [label], by simp, ran, holds, ?_⟩
  intro later member
  rcases List.mem_append.mp member with old | new
  · exact rest later old
  · rwa [List.mem_singleton.mp new]

end Since

/-- What every step of a run keeps, the run keeps from any of its states to any later one. -/
theorem run_keeps_iff {keeps : S → S → Prop} (refl : ∀ s, keeps s s)
    (trans : ∀ s₁ s₂ s₃, keeps s₁ s₂ → keeps s₂ s₃ → keeps s₁ s₃) {labels : List L} :
    (∀ first middle last s₁ s₂, labels = first ++ middle ++ last → run step s first = some s₁ →
        run step s₁ middle = some s₂ → keeps s₁ s₂) ↔
      ∀ first label last s₁ s₂, labels = first ++ label :: last → run step s first = some s₁ →
        step s₁ label = some s₂ → keeps s₁ s₂ := by
  constructor
  · intro segments first label last s₁ s₂ split before stepped
    refine segments first [label] last s₁ s₂ (by simp [split]) before ?_
    simp [run, stepped]
  · intro steps first middle
    induction middle generalizing first with
    | nil =>
        intro last s₁ s₂ _ _ ran
        cases ran
        exact refl s₁
    | cons label middle ih =>
        intro last s₁ s₃ split before ran
        rw [run, Option.bind_eq_some_iff] at ran
        obtain ⟨s₂, stepped, rest⟩ := ran
        have now : keeps s₁ s₂ :=
          steps first label (middle ++ last) s₁ s₂ (by simp [split]) before stepped
        have later : keeps s₂ s₃ := ih (first ++ [label]) last s₂ s₃ (by simp [split])
          (run_snoc.mpr ⟨s₁, before, stepped⟩) rest
        exact trans s₁ s₂ s₃ now later

theorem run_of_runIf {check : S → L → Bool} {labels : List L}
    (ran : runIf step check s labels = some s') : run step s labels = some s' := by
  induction labels generalizing s with
  | nil => exact ran
  | cons label labels ih =>
      rw [runIf] at ran
      split_ifs at ran
      obtain ⟨s₁, stepped, rest⟩ := Option.bind_eq_some_iff.mp ran
      rw [run, stepped]
      exact ih rest

end PrivateBtc.Library.GuardedRun
