/- PrivateBtc/Library/Transactional
   digest: Runs of fallible calls on a state; a failing call leaves the state as it was. -/

import PrivateBtc.Library.Outcome

set_option autoImplicit false
set_option relaxedAutoImplicit false

namespace PrivateBtc.Library.Transactional

universe u v w

variable {S : Type u} {L : Type v} {E : Type w} (call : S → L → Except E S)

def step (s : S) (l : L) : S :=
  match call s l with
  | .ok s' => s'
  | .error _ => s

def run (s : S) (calls : List L) : S := calls.foldl (step call) s

/-- The accepted calls of a run, each with the state it was made in. -/
def history (s : S) : List L → List (S × L)
  | [] => []
  | l :: calls =>
      match call s l with
      | .ok s' => (s, l) :: history s' calls
      | .error _ => history s calls

theorem run_cons (s : S) (l : L) (calls : List L) :
    run call s (l :: calls) = run call (step call s l) calls := rfl

theorem history_mem {s before : S} {l : L} {calls : List L}
    (entered : (before, l) ∈ history call s calls) : l ∈ calls := by
  induction calls generalizing s with
  | nil => cases entered
  | cons m calls ih =>
      rw [history] at entered
      cases outcome : call s m with
      | error e =>
          rw [outcome] at entered
          exact List.mem_cons_of_mem _ (ih entered)
      | ok s' =>
          rw [outcome] at entered
          rcases List.mem_cons.mp entered with here | later
          · cases here
            exact List.mem_cons_self
          · exact List.mem_cons_of_mem _ (ih later)

theorem history_accepted {s before : S} {l : L} {calls : List L}
    (entered : (before, l) ∈ history call s calls) : ∃ after, call before l = .ok after := by
  induction calls generalizing s with
  | nil => cases entered
  | cons m calls ih =>
      rw [history] at entered
      cases outcome : call s m with
      | error e =>
          rw [outcome] at entered
          exact ih entered
      | ok s' =>
          rw [outcome] at entered
          rcases List.mem_cons.mp entered with here | later
          · cases here
            exact ⟨s', outcome⟩
          · exact ih later

/-- An invariant of the state and of the calls accepted so far holds after every run. -/
theorem run_history_invariant (allowed : L → Prop) (invariant : List (S × L) → S → Prop)
    (preserved : ∀ past s l s', invariant past s → allowed l → call s l = .ok s' →
      invariant (past ++ [(s, l)]) s')
    (past : List (S × L)) (s : S) (start : invariant past s) (calls : List L)
    (all_allowed : ∀ l ∈ calls, allowed l) :
    invariant (past ++ history call s calls) (run call s calls) := by
  induction calls generalizing past s with
  | nil =>
      rw [history, List.append_nil]
      exact start
  | cons l calls ih =>
      have later : ∀ l ∈ calls, allowed l := fun m member =>
        all_allowed m (List.mem_cons_of_mem _ member)
      rw [run_cons, step, history]
      cases outcome : call s l with
      | error e => exact ih past s start later
      | ok s' =>
          have next := preserved past s l s' start (all_allowed l List.mem_cons_self) outcome
          have rest := ih (past ++ [(s, l)]) s' next later
          rw [List.append_assoc, List.singleton_append] at rest
          exact rest

end PrivateBtc.Library.Transactional
