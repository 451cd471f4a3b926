/- PrivateBtc/Library/CairoVm
   digest: The Cairo machine on a fixed memory: decoding, steps, and a rule for each instruction. -/

import Mathlib.Algebra.Ring.Int.Defs
import Mathlib.Data.Int.Cast.Lemmas
import Mathlib.Tactic.Ring

set_option autoImplicit false
set_option relaxedAutoImplicit false

namespace PrivateBtc.Library.CairoVm

universe u

inductive Register where
  | ap | fp
  deriving DecidableEq

/-- The cell `[register + offset]`. -/
structure Cell where
  register : Register
  offset : Int
  deriving DecidableEq

inductive Operand where
  | cell (cell : Cell)
  | immediate (value : Nat)
  deriving DecidableEq

/-- The right-hand side of an assertion, or the target of a jump. -/
inductive Value where
  | operand (operand : Operand)
  | double (cell : Cell) (offset : Int)
  | add (cell : Cell) (operand : Operand)
  | mul (cell : Cell) (operand : Operand)
  deriving DecidableEq

inductive Instruction where
  | assertEq (dst : Cell) (value : Value) (increments : Bool)
  | jump (target : Value) (relative increments : Bool)
  | jumpIf (condition : Cell) (target : Operand) (increments : Bool)
  | call (target : Value) (relative : Bool)
  | ret
  | advance (value : Value)
  deriving DecidableEq

section Assembly

abbrev ap (offset : Int) : Cell := ⟨.ap, offset⟩

abbrev fp (offset : Int) : Cell := ⟨.fp, offset⟩

abbrev imm (value : Nat) : Value := .operand (.immediate value)

abbrev cell (cell : Cell) : Value := .operand (.cell cell)

/-- `[ap] = value; ap++` -/
abbrev push (value : Value) : Instruction := .assertEq (ap 0) value true

end Assembly

section Decoding

variable (word next : Nat)

def flag (index : Nat) : Bool := word.testBit (48 + index)

/-- Offsets are biased by 2^15. -/
def offset (index : Nat) : Int := (word / 2 ^ (16 * index) % 2 ^ 16 : Nat) - 2 ^ 15

def register (index : Nat) : Register := if flag word index then .fp else .ap

def dst : Cell := ⟨register word 0, offset word 0⟩

def op0 : Cell := ⟨register word 1, offset word 1⟩

/-- The second operand: the next word, or a cell; `none` where it hangs on the first. -/
def op1 : Option Operand :=
  match flag word 2, flag word 3, flag word 4 with
  | true, false, false => if offset word 2 = 1 then some (.immediate next) else none
  | false, true, false => some (.cell ⟨.fp, offset word 2⟩)
  | false, false, true => some (.cell ⟨.ap, offset word 2⟩)
  | _, _, _ => none

def result : Option Value :=
  match op1 word next, flag word 5, flag word 6 with
  | some operand, false, false => some (.operand operand)
  | some operand, true, false => some (.add (op0 word) operand)
  | some operand, false, true => some (.mul (op0 word) operand)
  | none, false, false =>
      if flag word 2 || flag word 3 || flag word 4 then none
      else some (.double (op0 word) (offset word 2))
  | _, _, _ => none

/-- How an instruction word reads, with the word after it; `none` for the words that no assembly
instruction has. -/
def decode : Option Instruction :=
  if 2 ^ 63 ≤ word then none
  else
    match flag word 7, flag word 8, flag word 9, flag word 10, flag word 12, flag word 13,
        flag word 14 with
    | false, false, false, false, false, false, true =>
        (result word next).map fun value => .assertEq (dst word) value (flag word 11)
    | false, false, false, true, false, false, false =>
        if flag word 11 then none else (result word next).map .advance
    | true, false, false, false, false, false, false =>
        (result word next).map fun target => .jump target false (flag word 11)
    | false, true, false, false, false, false, false =>
        (result word next).map fun target => .jump target true (flag word 11)
    | false, false, true, false, false, false, false =>
        (op1 word next).map fun target => .jumpIf (dst word) target (flag word 11)
    | true, false, false, false, true, false, false =>
        if dst word = ⟨.ap, 0⟩ ∧ op0 word = ⟨.ap, 1⟩ ∧ flag word 11 = false then
          (result word next).map fun target => .call target false
        else none
    | false, true, false, false, true, false, false =>
        if dst word = ⟨.ap, 0⟩ ∧ op0 word = ⟨.ap, 1⟩ ∧ flag word 11 = false then
          (result word next).map fun target => .call target true
        else none
    | true, false, false, false, false, true, false =>
        if dst word = ⟨.fp, -2⟩ ∧ result word next = some (.operand (.cell ⟨.fp, -1⟩)) ∧
            flag word 11 = false then
          some .ret
        else none
    | _, _, _, _, _, _, _ => none

end Decoding

/-- The words that an instruction takes. -/
def Operand.size : Operand → Nat
  | .cell _ => 1
  | .immediate _ => 2

def Value.size : Value → Nat
  | .operand o | .add _ o | .mul _ o => o.size
  | .double _ _ => 1

structure Registers (F : Type u) where
  pc : F
  ap : F
  fp : F

section Machine

variable {F : Type u} [CommRing F] [DecidableEq F] (m : F → F)

def Cell.address (cell : Cell) (s : Registers F) : F :=
  match cell.register with
  | .ap => s.ap + cell.offset
  | .fp => s.fp + cell.offset

def Operand.eval (s : Registers F) : Operand → F
  | .cell c => m (c.address s)
  | .immediate n => n

def Value.eval (s : Registers F) : Value → F
  | .operand o => o.eval m s
  | .double c offset => m (m (c.address s) + offset)
  | .add c o => m (c.address s) + o.eval m s
  | .mul c o => m (c.address s) * o.eval m s

/-- Memory is written once: an instruction only asserts what it finds there. -/
def Instruction.next (s : Registers F) : Instruction → Option (Registers F)
  | .assertEq dst value increments =>
      if m (dst.address s) = value.eval m s then
        some ⟨s.pc + value.size, s.ap + increments.toNat, s.fp⟩
      else none
  | .jump target relative increments =>
      some ⟨if relative then s.pc + target.eval m s else target.eval m s,
        s.ap + increments.toNat, s.fp⟩
  | .jumpIf condition target increments =>
      some ⟨if m (condition.address s) = 0 then s.pc + target.size else s.pc + target.eval m s,
        s.ap + increments.toNat, s.fp⟩
  | .call target relative =>
      if m s.ap = s.fp ∧ m (s.ap + 1) = s.pc + target.size then
        some ⟨if relative then s.pc + target.eval m s else target.eval m s, s.ap + 2, s.ap + 2⟩
      else none
  | .ret => some ⟨m (s.fp - 1), s.ap, m (s.fp - 2)⟩
  | .advance value => some ⟨s.pc + value.size, s.ap + value.eval m s, s.fp⟩

/-- `value` reads a field element as a number. -/
def step (value : F → Nat) (s : Registers F) : Option (Registers F) :=
  (decode (value (m s.pc)) (value (m (s.pc + 1)))).bind fun instruction => instruction.next m s

/-- The machine gets from its state to the final pc, and is in `t` there. -/
inductive Halts (value : F → Nat) (final : F) (t : Registers F) : Registers F → Prop where
  | there (ends : t.pc = final) : Halts value final t t
  | step {s s' : Registers F} (away : s.pc ≠ final) (stepped : step m value s = some s')
      (rest : Halts value final t s') : Halts value final t s

/-- The words of a program stand in memory from `base` on. -/
def Loaded (value : F → Nat) (words : List Nat) (base : F) : Prop :=
  ∀ (k word : Nat), words[k]? = some word → value (m (base + k)) = word

/-- What the stack holds at a distance from `origin`. -/
def stack (origin : F) (i : Int) : F := m (origin + i)

/-- Registers at known distances from the start of the program and from one stack cell. -/
def place (base origin : F) (k : Nat) (i j : Int) : Registers F :=
  ⟨base + k, origin + i, origin + j⟩

variable {m} {value : F → Nat} {final base origin : F} {t : Registers F} {words : List Nat}
  {listing : Nat → Option Instruction} {k : Nat} {i j : Int}

theorem halts_final (there : base + k = final) :
    Halts m value final t (place base origin k i j) ↔ t = place base origin k i j := by
  constructor
  · intro halts
    cases halts with
    | there _ => rfl
    | step away _ _ => exact absurd there away
  · rintro rfl
    exact .there there

/-- The listing is what the words decode to. -/
def Lists (words : List Nat) (listing : Nat → Option Instruction) : Prop :=
  ∀ k instruction, listing k = some instruction → ∃ word next, words[k]? = some word ∧
    words[k + 1]? = some next ∧ decode word next = some instruction

/-- A program that stands in memory, with its listing and the place where it ends. -/
structure Program (m : F → F) (value : F → Nat) (listing : Nat → Option Instruction)
    (base : F) (stop : Nat) : Prop where
  decodes : ∀ k instruction, listing k = some instruction →
    decode (value (m (base + k))) (value (m (base + k + 1))) = some instruction
  away : ∀ k, (listing k).isSome → k ≠ stop → base + k ≠ base + stop

omit [DecidableEq F] in
theorem Loaded.decodes (loaded : Loaded m value words base) (lists : Lists words listing)
    {instruction : Instruction} (listed : listing k = some instruction) :
    decode (value (m (base + k))) (value (m (base + k + 1))) = some instruction := by
  obtain ⟨word, next, here, after, decoded⟩ := lists k instruction listed
  have second : base + k + 1 = base + ((k + 1 : Nat) : F) := by
    push_cast
    ring
  rw [loaded k word here, second, loaded (k + 1) next after, decoded]

section Rules

variable {stop : Nat} (program : Program m value listing base stop)
include program

theorem Program.halts_iff {instruction : Instruction} (listed : listing k = some instruction)
    (running : k ≠ stop) :
    Halts m value (base + stop) t (place base origin k i j) ↔
      ∃ s, instruction.next m (place base origin k i j) = some s ∧
        Halts m value (base + stop) t s := by
  have stepped : step m value (place base origin k i j) =
      instruction.next m (place base origin k i j) := by
    show Option.bind (decode _ _) _ = _
    rw [show (place base origin k i j).pc = base + k from rfl, program.decodes k _ listed]
    rfl
  have away := program.away k (by rw [listed]; rfl) running
  constructor
  · intro halts
    cases halts with
    | there ends => exact absurd ends away
    | step _ went rest => exact ⟨_, stepped ▸ went, rest⟩
  · rintro ⟨s, went, rest⟩
    exact .step away (stepped.trans went) rest

omit program [DecidableEq F] in
theorem stack_ap (offset : Int) :
    m (Cell.address (ap offset) (place base origin k i j)) = stack m origin (i + offset) := by
  simp only [Cell.address, place, stack]
  push_cast
  rw [add_assoc]

omit program [DecidableEq F] in
theorem stack_fp (offset : Int) :
    m (Cell.address (fp offset) (place base origin k i j)) = stack m origin (j + offset) := by
  simp only [Cell.address, place, stack]
  push_cast
  rw [add_assoc]

omit program [DecidableEq F] in
theorem place_eq {pc ap fp : F} (here : pc = base + k) (top : ap = origin + i)
    (frame : fp = origin + j) : (⟨pc, ap, fp⟩ : Registers F) = place base origin k i j := by
  rw [here, top, frame, place]

theorem Program.assertEq_iff {dst : Cell} {value_ : Value} {increments : Bool} {n : Nat}
    (listed : listing k = some (.assertEq dst value_ increments)) (running : k ≠ stop)
    (next : k + value_.size = n) :
    Halts m value (base + stop) t (place base origin k i j) ↔
      m (dst.address (place base origin k i j)) = value_.eval m (place base origin k i j) ∧
        Halts m value (base + stop) t (place base origin n (i + increments.toNat) j) := by
  subst next
  have later : (⟨base + k + value_.size, origin + i + increments.toNat, origin + j⟩ :
      Registers F) = place base origin (k + value_.size) (i + increments.toNat) j :=
    place_eq (by push_cast; ring) (by push_cast; ring) rfl
  rw [program.halts_iff listed running]
  simp only [Instruction.next]
  split_ifs with holds
  · simp only [Option.some.injEq, exists_eq_left', holds, true_and]
    rw [← later]
    rfl
  · simp [holds]

theorem Program.advance_iff {by_ : Nat}
    (listed : listing k = some (.advance (.operand (.immediate by_)))) (running : k ≠ stop) :
    Halts m value (base + stop) t (place base origin k i j) ↔
      Halts m value (base + stop) t (place base origin (k + 2) (i + by_) j) := by
  have later : (⟨base + k + (2 : Nat), origin + i + by_, origin + j⟩ : Registers F) =
      place base origin (k + 2) (i + by_) j :=
    place_eq (by push_cast; ring) (by push_cast; ring) rfl
  rw [program.halts_iff listed running, ← later]
  simp only [Instruction.next, Option.some.injEq, exists_eq_left']
  rfl

theorem Program.jump_iff {by_ : Nat}
    (listed : listing k = some (.jump (.operand (.immediate by_)) true false))
    (running : k ≠ stop) :
    Halts m value (base + stop) t (place base origin k i j) ↔
      Halts m value (base + stop) t (place base origin (k + by_) i j) := by
  have later : (⟨base + k + by_, origin + i + (0 : Nat), origin + j⟩ : Registers F) =
      place base origin (k + by_) i j :=
    place_eq (by push_cast; ring) (by push_cast; ring) rfl
  rw [program.halts_iff listed running, ← later]
  simp only [Instruction.next, Option.some.injEq, exists_eq_left']
  rfl

/-- A conditional jump goes on behind itself on zero, and else to its target. -/
theorem Program.jumpIf_iff {condition : Cell} {by_ : Nat}
    (listed : listing k = some (.jumpIf condition (.immediate by_) false)) (running : k ≠ stop) :
    Halts m value (base + stop) t (place base origin k i j) ↔
      if m (condition.address (place base origin k i j)) = 0 then
        Halts m value (base + stop) t (place base origin (k + 2) i j)
      else Halts m value (base + stop) t (place base origin (k + by_) i j) := by
  rw [program.halts_iff listed running]
  simp only [Instruction.next, Option.some.injEq, exists_eq_left']
  split_ifs
  · have later : (⟨base + k + (2 : Nat), origin + i + (0 : Nat), origin + j⟩ : Registers F) =
        place base origin (k + 2) i j :=
      place_eq (by push_cast; ring) (by push_cast; ring) rfl
    rw [← later]
    rfl
  · have later : (⟨base + k + by_, origin + i + (0 : Nat), origin + j⟩ : Registers F) =
        place base origin (k + by_) i j :=
      place_eq (by push_cast; ring) (by push_cast; ring) rfl
    rw [← later]
    rfl

/-- A call pushes the frame and the return address. -/
theorem Program.call_iff {by_ : Nat}
    (listed : listing k = some (.call (.operand (.immediate by_)) true)) (running : k ≠ stop) :
    Halts m value (base + stop) t (place base origin k i j) ↔
      stack m origin i = origin + j ∧ stack m origin (i + 1) = base + ((k + 2 : Nat) : F) ∧
        Halts m value (base + stop) t (place base origin (k + by_) (i + 2) (i + 2)) := by
  have later : (⟨base + k + by_, origin + i + 2, origin + i + 2⟩ : Registers F) =
      place base origin (k + by_) (i + 2) (i + 2) :=
    place_eq (by push_cast; ring) (by push_cast; ring) (by push_cast; ring)
  have top : origin + ((i + 1 : Int) : F) = origin + i + 1 := by
    push_cast
    ring
  have back : base + ((k + 2 : Nat) : F) = base + k + (2 : Nat) := by
    push_cast
    ring
  rw [program.halts_iff listed running, stack, stack, top, back, ← later]
  simp only [Instruction.next]
  split_ifs with pushed
  · simp only [Option.some.injEq, exists_eq_left']
    exact ⟨fun rest => ⟨pushed.1, pushed.2, rest⟩, fun holds => holds.2.2⟩
  · constructor
    · rintro ⟨s, none_, -⟩
      cases none_
    · rintro ⟨frame, back, -⟩
      exact absurd ⟨frame, back⟩ pushed

/-- A return goes where the call came from, when the pushed cells say so. -/
theorem Program.ret_iff {k' : Nat} {j' : Int} (listed : listing k = some .ret) (running : k ≠ stop)
    (back : stack m origin (j - 1) = base + k') (frame : stack m origin (j - 2) = origin + j') :
    Halts m value (base + stop) t (place base origin k i j) ↔
      Halts m value (base + stop) t (place base origin k' i j') := by
  have first : origin + ((j - 1 : Int) : F) = origin + j - 1 := by
    push_cast
    ring
  have second : origin + ((j - 2 : Int) : F) = origin + j - 2 := by
    push_cast
    ring
  rw [stack, first] at back
  rw [stack, second] at frame
  rw [program.halts_iff listed running]
  simp only [Instruction.next, Option.some.injEq, exists_eq_left']
  rw [show (place base origin k i j).fp = origin + j from rfl, back, frame]
  rfl

end Rules

end Machine

end PrivateBtc.Library.CairoVm
