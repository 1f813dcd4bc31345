import ChipEight.Proofs.Footprint
import ChipEight.Proofs.Lifecycle

/-!
# Calls and returns

A call puts its return address on the stack, a return takes the latest one off, and nothing
else touches the stack. So calls and returns nest like brackets, whatever the program does
between them and whenever the host presses keys or lets time pass.

Nesting is said in two ways. Seen from one call, the entries below it and its own entry stay
as they are until the stack is as low as before the call, and control is then behind the call.
Seen from the instructions executed so far, a call has returned once the returns after it
outnumber the calls after it, and the stack is the list of the calls that have not. Neither
needs the instructions to succeed: a refused one leaves the stack alone.
-/

namespace ChipEight

namespace Fetched

def isCall (op : Fetched) : Bool := op.word.family = 0x2

def isReturn (op : Fetched) : Bool := op.word.toNat = 0x00EE

theorem isReturn_eq_false {op : Fetched} (h : op.isCall = true) : op.isReturn = false := by
  have call : op.word.family = 0x2 := of_decide_eq_true h
  refine decide_eq_false ?_
  intro ret
  rw [(Word.fields_of_toNat ret (by decide)).1] at call
  cases call

/-- What an executed instruction makes of the open calls, the latest first. -/
inductive Stacks (op : Fetched) : List Int → List Int → Prop
  | call {calls : List Int} (h : op.isCall = true) : op.Stacks calls ((op.addr + 2) :: calls)
  | ret {target : Int} {rest : List Int} (h : op.isReturn = true) :
      op.Stacks (target :: rest) rest
  | other {calls : List Int} (call : op.isCall = false) (ret : op.isReturn = false) :
      op.Stacks calls calls

end Fetched

/-! ## Calls that have returned -/

/-- A call has returned, if these are the instructions after it: at some point the returns among
them outnumber the calls. -/
def Returned (later : List Fetched) : Prop :=
  ∃ part, part <+: later ∧ part.countP Fetched.isCall < part.countP Fetched.isReturn

/-- The number of returns that belong to no call of the list. -/
def surplus : List Fetched → Nat
  | [] => 0
  | op :: rest =>
    if op.isCall then surplus rest - 1
    else if op.isReturn then surplus rest + 1
    else surplus rest

theorem lt_surplus_iff {trace : List Fetched} {count : Nat} :
    count < surplus trace ↔
      ∃ part, part <+: trace ∧
        part.countP Fetched.isCall + count < part.countP Fetched.isReturn := by
  induction trace generalizing count with
  | nil =>
    simp only [surplus, Nat.not_lt_zero, List.prefix_nil, exists_eq_left, List.countP_nil]
  | cons op rest ih =>
    have extend : (∃ part, part <+: op :: rest ∧
        part.countP Fetched.isCall + count < part.countP Fetched.isReturn) ↔
        ∃ part, part <+: rest ∧ (op :: part).countP Fetched.isCall + count <
          (op :: part).countP Fetched.isReturn := by
      constructor
      · rintro ⟨part, sub, more⟩
        rcases List.prefix_cons_iff.mp sub with rfl | ⟨inner, rfl, within⟩
        · exact absurd more (Nat.not_lt_zero _)
        · exact ⟨inner, within, more⟩
      · rintro ⟨part, sub, more⟩
        exact ⟨op :: part, List.cons_prefix_cons.mpr ⟨rfl, sub⟩, more⟩
    rw [extend, surplus]
    cases call : op.isCall with
    | true =>
      have ret := Fetched.isReturn_eq_false call
      -- a leading call takes up one return, so what follows has to have one more to spare
      have opened := @ih (count + 1)
      simp only [List.countP_cons, call, ret, if_true, Nat.add_zero, Bool.false_eq_true, if_false]
      rw [Nat.lt_sub_iff_add_lt, opened]
      simp only [Nat.add_assoc, Nat.add_comm 1 count]
    | false =>
      cases ret : op.isReturn with
      | true =>
        simp only [List.countP_cons, call, ret, if_true, Bool.false_eq_true, if_false, Nat.add_zero]
        cases count with
        | zero =>
          refine iff_of_true (Nat.succ_pos _) ⟨[], List.nil_prefix, Nat.succ_pos _⟩
        | succ count =>
          simp only [Nat.add_lt_add_iff_right, ih, ← Nat.add_assoc]
      | false =>
        simp only [List.countP_cons, call, ret, Bool.false_eq_true, if_false, Nat.add_zero, ih]

theorem returned_iff {later : List Fetched} : Returned later ↔ 0 < surplus later := by
  rw [lt_surplus_iff]
  rfl

instance (later : List Fetched) : Decidable (Returned later) :=
  decidable_of_iff (0 < surplus later) returned_iff.symm

/-- The return addresses of the calls that have not returned, oldest first. -/
def unreturned : List Fetched → List Int
  | [] => []
  | op :: rest =>
    if op.isCall ∧ ¬ Returned rest then (op.addr + 2) :: unreturned rest else unreturned rest

namespace Fetched.Stacks

variable {op : Fetched} {before left base : List Int}

/-- An instruction that leaves the stack high enough keeps the entries at its bottom. -/
theorem suffix (h : op.Stacks before left) (bottom : base <:+ before)
    (high : base.length ≤ left.length) : base <:+ left := by
  cases h with
  | call => exact bottom.trans (List.suffix_cons _ _)
  | ret =>
    rcases List.suffix_cons_iff.mp bottom with rfl | bottom
    · exact absurd high (Nat.not_le.mpr (Nat.lt_succ_self _))
    · exact bottom
  | other => exact bottom

theorem isReturn_of_lt (h : op.Stacks before left) (lowered : left.length < before.length) :
    op.isReturn = true := by
  cases h with
  | call => exact absurd lowered (Nat.not_lt.mpr (Nat.le_succ _))
  | ret ret => exact ret
  | other => exact absurd lowered (Nat.lt_irrefl _)

/-- What is open after the rest of a run, in terms of what was open before its first
instruction. -/
theorem unreturned_cons (h : op.Stacks before left) (rest : List Fetched) :
    (unreturned rest).reverse ++ left.drop (surplus rest) =
      (unreturned (op :: rest)).reverse ++ before.drop (surplus (op :: rest)) := by
  rw [unreturned, surplus]
  cases h with
  | call call =>
    rw [if_pos call]
    by_cases returned : Returned rest
    · obtain ⟨count, returns⟩ := Nat.exists_eq_succ_of_ne_zero (Nat.ne_of_gt
        (returned_iff.mp returned))
      rw [if_neg fun opened => opened.2 returned, returns]
      rfl
    · have none : surplus rest = 0 := Nat.eq_zero_of_not_pos (mt returned_iff.mpr returned)
      rw [if_pos ⟨call, returned⟩, none, List.reverse_cons, List.append_assoc]
      rfl
  | ret ret =>
    have call : op.isCall = false := by
      refine Bool.eq_false_iff.mpr ?_
      intro call
      rw [isReturn_eq_false call] at ret
      cases ret
    simp only [call, ret, Bool.false_eq_true, false_and, if_false, if_true]
    rfl
  | other call ret =>
    simp only [call, ret, Bool.false_eq_true, false_and, if_false]

end Fetched.Stacks

namespace Processor

theorem length_stack (p : Processor) : p.stack.length = p.calls.length := List.length_reverse

/-- The last entry of the stack is the latest call. -/
theorem calls_eq_cons {p q : Processor} {target : Int} (stack : p.stack = q.stack ++ [target]) :
    p.calls = target :: q.calls := by
  apply List.reverse_inj.mp
  rw [List.reverse_cons]
  exact stack

end Processor

/-! ## One action -/

namespace Console

/-- The instruction that was executed. -/
def Answer.instruction? : Answer → Option Fetched
  | .stepped (.ok op) => some op
  | _ => none

/-- The return addresses on the stack, oldest first. -/
def stack (c : Console) : List Int := c.machine.processor.stack

variable {c : Console}

theorem lt_of_lt_stack {d : Console} (h : c.stack.length < d.stack.length) :
    c.machine.processor.calls.length < d.machine.processor.calls.length := by
  rw [← Processor.length_stack, ← Processor.length_stack]
  exact h

/-- Only a step executes an instruction. -/
theorem step_of_instruction? {action : Action} {op : Fetched}
    (executed : (c.act action).result.instruction? = some op) :
    action = .step ∧ c.step.result = .ok op := by
  cases action with
  | step =>
    refine ⟨rfl, ?_⟩
    cases done : c.step.result with
    | ok other =>
      simp only [act, done, Answer.instruction?] at executed
      cases executed
      rfl
    | error fault =>
      simp only [act, done, Answer.instruction?] at executed
      cases executed
  | update elapsed => cases executed
  | setKey key pressed =>
    simp only [act] at executed
    split at executed <;> cases executed

theorem calls_step (h : c.machine.WellFormed) {op : Fetched} (done : c.step.result = .ok op) :
    op.Stacks c.machine.processor.calls c.step.state.machine.processor.calls := by
  have succeeded : c.machine.step.result = .ok op := done
  obtain ⟨rfl, framed⟩ := Machine.framed_of_step h succeeded
  show c.machine.current.Stacks c.machine.processor.calls c.machine.step.state.processor.calls
  cases call : c.machine.current.isCall with
  | true =>
    have calls := Processor.calls_eq_cons (framed.called (of_decide_eq_true call))
    rw [calls]
    exact .call call
  | false =>
    cases ret : c.machine.current.isReturn with
    | true =>
      have calls := Processor.calls_eq_cons (framed.returned (of_decide_eq_true ret))
      rw [calls]
      exact .ret ret
    | false =>
      have kept : c.machine.step.state.processor.calls = c.machine.processor.calls := by
        refine framed.confined .calls ?_
        intro written
        cases written with
        | call h => exact of_decide_eq_false call h
        | ret h => exact of_decide_eq_false ret h
      rw [kept]
      exact .other call ret

/-- An instruction that is refused leaves the stack as it is. -/
theorem calls_step_of_error (h : c.machine.WellFormed) {fault : Fault}
    (failed : c.step.result = .error fault) :
    c.step.state.machine.processor.calls = c.machine.processor.calls := by
  obtain ⟨-, -, done⟩ := Machine.fails_of_error h failed
  show c.machine.step.state.processor.calls = c.machine.processor.calls
  rw [done]
  cases fault.word <;> rfl

/-- Keys and the passing of time leave the stack alone, and so do all instructions but calls and
returns. -/
theorem calls_act (h : c.machine.WellFormed) (action : Action) :
    (∃ op, (c.act action).result.instruction? = some op ∧
      op.Stacks c.machine.processor.calls (c.act action).state.machine.processor.calls) ∨
    (c.act action).result.instruction? = none ∧
      (c.act action).state.machine.processor.calls = c.machine.processor.calls := by
  cases action with
  | step =>
    cases done : c.step.result with
    | ok op =>
      refine .inl ⟨op, ?_, calls_step h done⟩
      simp only [act, done, Answer.instruction?]
    | error fault =>
      refine .inr ⟨?_, calls_step_of_error h done⟩
      simp only [act, done, Answer.instruction?]
  | update elapsed =>
    exact .inr ⟨rfl, congrArg Processor.calls (processor_update c elapsed)⟩
  | setKey key pressed =>
    refine .inr ?_
    simp only [act]
    split
    · exact ⟨rfl, rfl⟩
    · next set =>
      rw [setKey_eq set]
      exact ⟨rfl, rfl⟩

/-- An action that lowers the stack is a return, and control is where the entry said. -/
theorem stack_eq_of_act (h : c.machine.WellFormed) (action : Action)
    (lowered : (c.act action).state.stack.length < c.stack.length) :
    c.stack = (c.act action).state.stack ++ [(c.act action).state.machine.pc] := by
  rcases calls_act h action with ⟨op, executed, stacked⟩ | ⟨-, same⟩
  · obtain ⟨rfl, done⟩ := step_of_instruction? executed
    have succeeded : c.machine.step.result = .ok op := done
    obtain ⟨rfl, framed⟩ := Machine.framed_of_step h succeeded
    exact framed.returned (of_decide_eq_true (stacked.isReturn_of_lt (lt_of_lt_stack lowered)))
  · exact absurd (lt_of_lt_stack lowered) (by rw [same]; exact Nat.lt_irrefl _)

theorem WellFormed.act (h : c.WellFormed) (action : Action) : (c.act action).state.WellFormed := by
  cases action with
  | step => exact h.step
  | update elapsed => exact h.update elapsed
  | setKey key pressed =>
    simp only [Console.act]
    split
    · exact h
    · next set => exact h.setKey set

/-! ## Runs -/

/-- The console after a list of actions. -/
def after (c : Console) : List Action → Console
  | [] => c
  | action :: rest => (c.act action).state.after rest

/-- The instructions that are executed meanwhile, in order. -/
def trace (c : Console) : List Action → List Fetched
  | [] => []
  | action :: rest =>
    (c.act action).result.instruction?.toList ++ (c.act action).state.trace rest

theorem after_append (c : Console) (actions rest : List Action) :
    c.after (actions ++ rest) = (c.after actions).after rest := by
  induction actions generalizing c with
  | nil => rfl
  | cons action actions ih => exact ih (c.act action).state

theorem WellFormed.after (h : c.WellFormed) (actions : List Action) :
    (c.after actions).WellFormed := by
  induction actions generalizing c with
  | nil => exact h
  | cons action rest ih => exact ih (h.act action)

/-- While the stack is at least as high as some entries at its bottom, these stay. -/
theorem suffix_after (h : c.WellFormed) {base : List Int} {actions : List Action}
    (bottom : base <:+ c.machine.processor.calls)
    (high : ∀ run, run <+: actions → base.length ≤ (c.after run).machine.processor.calls.length) :
    base <:+ (c.after actions).machine.processor.calls := by
  induction actions generalizing c with
  | nil => exact bottom
  | cons action rest ih =>
    refine ih (h.act action) ?_ ?_
    · have first := high [action] (List.cons_prefix_cons.mpr ⟨rfl, List.nil_prefix⟩)
      rcases calls_act h.machine action with ⟨op, -, stacked⟩ | ⟨-, same⟩
      · exact stacked.suffix bottom first
      · rw [same]
        exact bottom
    · intro run sub
      exact high (action :: run) (List.cons_prefix_cons.mpr ⟨rfl, sub⟩)

/-- After any run the stack holds what the run has not returned from: first of the calls that
were open before it, then of its own. -/
theorem calls_after (h : c.WellFormed) (actions : List Action) :
    (c.after actions).machine.processor.calls =
      (unreturned (c.trace actions)).reverse ++
        c.machine.processor.calls.drop (surplus (c.trace actions)) := by
  induction actions generalizing c with
  | nil => rfl
  | cons action rest ih =>
    rw [after, trace, ih (h.act action)]
    rcases calls_act h.machine action with ⟨op, executed, stacked⟩ | ⟨skipped, same⟩
    · rw [executed]
      exact stacked.unreturned_cons _
    · rw [skipped, same]
      rfl

theorem stack_after (h : c.WellFormed) (actions : List Action) :
    (c.after actions).stack =
      c.stack.take (c.stack.length - surplus (c.trace actions)) ++
        unreturned (c.trace actions) := by
  have calls := congrArg List.reverse (calls_after h actions)
  rw [List.reverse_append, List.reverse_reverse, List.reverse_drop] at calls
  rw [stack, stack, Processor.length_stack]
  exact calls

/-- From a call on, as long as the stack is higher than before it, its entry and those below stay.
The action that lowers it as far as before the call brings control behind the call. -/
theorem bracketed_of_call (h : c.WellFormed) {op : Fetched} (done : c.step.result = .ok op)
    (call : op.word.family = 0x2) {actions : List Action}
    (above : ∀ run, run <+: actions → c.stack.length < (c.step.state.after run).stack.length) :
    c.step.state.stack = c.stack ++ [c.machine.pc + 2] ∧
      (∀ run, run <+: actions → c.step.state.stack <+: (c.step.state.after run).stack) ∧
      ∀ last, (c.step.state.after (actions ++ [last])).stack.length = c.stack.length →
        (c.step.state.after (actions ++ [last])).machine.pc = c.machine.pc + 2 ∧
          (c.step.state.after (actions ++ [last])).stack = c.stack := by
  have succeeded : c.machine.step.result = .ok op := done
  obtain ⟨rfl, framed⟩ := Machine.framed_of_step h.machine succeeded
  have opened : c.step.state.stack = c.stack ++ [c.machine.pc + 2] := framed.called call
  have kept : ∀ run, run <+: actions →
      c.step.state.stack <+: (c.step.state.after run).stack := by
    intro run within
    apply List.reverse_prefix.mpr
    apply suffix_after h.step (List.suffix_refl _)
    intro part sub
    have high := above part (sub.trans within)
    rw [← Processor.length_stack, ← Processor.length_stack]
    show c.step.state.stack.length ≤ (c.step.state.after part).stack.length
    rw [opened, List.length_append]
    exact high
  refine ⟨opened, kept, ?_⟩
  intro last low
  have next : c.step.state.after (actions ++ [last]) =
      ((c.step.state.after actions).act last).state := after_append _ _ _
  rw [next] at low ⊢
  have high := above actions (List.prefix_refl actions)
  rw [← low] at high
  -- the last action takes one entry off, and by `kept` it can only be the one of the call
  have taken := stack_eq_of_act (h.step.after actions).machine last high
  have sub := kept actions (List.prefix_refl actions)
  rw [opened, taken] at sub
  have same := sub.eq_of_length (by rw [List.length_append, List.length_append, low]; rfl)
  obtain ⟨stack, entry⟩ := List.append_inj same low.symm
  exact ⟨(List.singleton_inj.mp entry).symm, stack.symm⟩

theorem stack_load {program : List UInt8} (loaded : (c.load program).result = .ok ()) :
    (c.load program).state.stack = [] := by
  rw [load] at loaded ⊢
  split at loaded
  · cases loaded
  · rfl

end Console

namespace Engine

/-- Calls and returns nest like brackets. The first part follows one call until the stack is as
low as before it, the second the stack of any console through a run, and the third through a run
that begins with a program just loaded. -/
theorem calls_bracketed (options : Options) (history : List Operation) :
    let e := (ofOptions options).run history
    let c := e.console
    (∀ op, c.step.result = .ok op → op.word.family = 0x2 → ∀ actions,
      (∀ run, run <+: actions → c.stack.length < (c.step.state.after run).stack.length) →
        c.step.state.stack = c.stack ++ [c.machine.pc + 2] ∧
        (∀ run, run <+: actions → c.step.state.stack <+: (c.step.state.after run).stack) ∧
        ∀ last, (c.step.state.after (actions ++ [last])).stack.length = c.stack.length →
          (c.step.state.after (actions ++ [last])).machine.pc = c.machine.pc + 2 ∧
            (c.step.state.after (actions ++ [last])).stack = c.stack) ∧
      (∀ actions, (c.after actions).stack.length ≤ 16 ∧
        (c.after actions).stack =
          c.stack.take (c.stack.length - surplus (c.trace actions)) ++
            unreturned (c.trace actions)) ∧
      ∀ program, (e.load program).2 = .ok () → ∀ actions,
        ((e.load program).1.console.after actions).stack =
          unreturned ((e.load program).1.console.trace actions) := by
  intro e c
  have formed := wellFormed_run options history
  refine ⟨?_, ?_, ?_⟩
  · intro op done call actions above
    exact Console.bracketed_of_call formed.console done call above
  · intro actions
    have depth := (formed.console.after actions).machine.depth_le
    rw [← Processor.length_stack] at depth
    exact ⟨depth, Console.stack_after formed.console actions⟩
  · intro program loaded actions
    have empty : (e.load program).1.console.stack = [] := by
      rcases load_cases e program 2 with ⟨_, -, same⟩ | ⟨-, ⟨_, -, same⟩ | ⟨supplied, same⟩⟩
      · rw [same] at loaded
        cases loaded
      · rw [same] at loaded
        cases loaded
      · rw [same]
        exact Console.stack_load supplied
    rw [Console.stack_after (formed.load program 2).console actions, empty, List.take_nil,
      List.nil_append]

/-- A subroutine that calls another one: both return, the outer one behind its call. -/
theorem calls_bracketed_of_nested_call :
    let program := [0x22, 0x04, 0x00, 0x00, 0x22, 0x08, 0x00, 0xEE, 0x00, 0xEE]
    let c := ((ofOptions {}).run [.load program]).console
    let run : List Console.Action := [.step, .setKey 3 true, .step, .step]
    (c.step.state.after run).machine.pc = 0x202 ∧ (c.step.state.after run).stack = [] ∧
      unreturned (c.trace [.step, .step, .step]) = [0x202] := by
  intro program c run
  obtain ⟨nested, runs, -⟩ := calls_bracketed {} [.load program]
  have above : ∀ count ≤ 3, c.stack.length <
      (c.step.state.after (([.step, .setKey 3 true, .step] : List Console.Action).take
        count)).stack.length := by
    decide +kernel
  obtain ⟨-, -, returned⟩ := nested { addr := 0x200, word := Word.ofBytes 0x22 0x04 }
    (by decide +kernel) (by decide) [.step, .setKey 3 true, .step] (by
      intro part sub
      rw [List.prefix_iff_eq_take.mp sub]
      exact above part.length sub.length_le)
  obtain ⟨pc, stack⟩ := returned .step (by decide +kernel)
  have start : c.machine.pc = 0x200 ∧ c.stack = [] := by decide +kernel
  obtain ⟨-, open_⟩ := runs [.step, .step, .step]
  have opened : (c.after [.step, .step, .step]).stack = [0x202] := by decide +kernel
  refine ⟨?_, ?_, ?_⟩
  · exact pc.trans (by rw [start.1]; rfl)
  · exact stack.trans start.2
  · rw [start.2, List.take_nil, List.nil_append] at open_
    exact open_.symm.trans opened

end Engine

end ChipEight
