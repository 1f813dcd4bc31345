import ChipEight.Proofs.Calls

/-!
# The slots of the call stack

A processor is given the return addresses of its open calls as a list. Behind the list there are
sixteen slots and a depth. A call fills the slot at the depth, and a return gives that slot up again
without a change to it, so above the depth there are addresses of calls that have returned, and zeros
where no call has come yet.

The list is what the slots up to the depth hold (`CallStack.Represents`). Either way calls and returns
give the same addresses and fail for the same reasons, so the list stays right through any run, and
of all slots it is only those which the run comes to that are written (`Console.slots_after`).
-/

namespace ChipEight

/-- Sixteen slots for return addresses, of which the lowest are in use. -/
structure CallStack where
  slots : Vector Int 16 := Vector.replicate 16 0
  depth : Nat := 0
  depth_le : depth ≤ 16 := by decide

namespace CallStack

/-- Fills the first slot that is not in use. If there is none the program counter is charged. -/
def push (s : CallStack) (pc target : Int) : Except Fault CallStack :=
  if room : s.depth < 16 then
    .ok { slots := s.slots.set s.depth target, depth := s.depth + 1, depth_le := room }
  else .error ⟨.callStackFull s.depth, pc, none⟩

theorem last_lt (s : CallStack) : s.depth - 1 < 16 := by
  have bound := s.depth_le
  omega

/-- Gives what the last slot in use holds, and gives it up. -/
def pop (s : CallStack) (pc : Int) : Except Fault (Int × CallStack) :=
  if 0 < s.depth then
    .ok (s.slots.get ⟨s.depth - 1, s.last_lt⟩,
      { s with depth := s.depth - 1, depth_le := Nat.le_of_lt s.last_lt })
  else .error ⟨.callStackEmpty, pc, none⟩

/-- The slots in use hold the return addresses of the open calls, oldest first. -/
def Represents (s : CallStack) (p : Processor) : Prop :=
  s.slots.toList.take s.depth = p.stack

/-- Both fail for the same reason, or both succeed and their results are related. -/
inductive Alike {α β : Type} (related : α → β → Prop) : Except Fault α → Except Fault β → Prop
  | ok {a : α} {b : β} (same : related a b) : Alike related (.ok a) (.ok b)
  | error (fault : Fault) : Alike related (.error fault) (.error fault)

variable {s : CallStack} {p q : Processor} {op : Fetched}

/-! ## One call and one return -/

theorem take_push (room : s.depth < 16) (target : Int) :
    (s.slots.set s.depth target).toList.take (s.depth + 1) =
      s.slots.toList.take s.depth ++ [target] := by
  have inside : s.depth < (s.slots.toList.set s.depth target).length := by
    rw [List.length_set, Vector.length_toList]
    exact room
  rw [Vector.toList_set, List.take_succ_eq_append_getElem inside, List.getElem_set_self,
    List.take_set_of_le (Nat.le_refl _)]

theorem take_pop (used : 0 < s.depth) :
    s.slots.toList.take s.depth =
      s.slots.toList.take (s.depth - 1) ++ [s.slots.get ⟨s.depth - 1, s.last_lt⟩] := by
  have inside : s.depth - 1 < s.slots.toList.length := by
    rw [Vector.length_toList]
    exact s.last_lt
  have split := List.take_succ_eq_append_getElem inside
  rw [Nat.sub_add_cancel used, Vector.getElem_toList] at split
  exact split

namespace Represents

theorem depth_eq (h : s.Represents p) : s.depth = p.calls.length := by
  have lengths := congrArg List.length h
  rw [List.length_take, Vector.length_toList, Nat.min_eq_left s.depth_le,
    Processor.length_stack] at lengths
  exact lengths

/-- Opening a call comes to the same in the slots and in the list. -/
theorem push (h : s.Represents p) (target : Int) :
    Alike Represents (s.push p.pc target) (p.push target) := by
  rw [CallStack.push, Processor.push, ← h.depth_eq]
  by_cases room : s.depth < 16
  · have free : ¬ Processor.maxCalls ≤ s.depth := Nat.not_le.mpr room
    rw [dif_pos room, if_neg free]
    refine .ok ?_
    rw [Represents, take_push room, h]
    exact List.reverse_cons.symm
  · have full : Processor.maxCalls ≤ s.depth := Nat.not_lt.mp room
    rw [dif_neg room, if_pos full]
    exact .error _

/-- So does closing one. -/
theorem pop (h : s.Represents p) :
    Alike (fun a b => a.1 = b.1 ∧ a.2.Represents b.2) (s.pop p.pc) p.pop := by
  rw [CallStack.pop, Processor.pop]
  cases calls : p.calls with
  | nil =>
    have empty : ¬ 0 < s.depth := by
      rw [h.depth_eq, calls]
      exact Nat.lt_irrefl 0
    rw [if_neg empty]
    exact .error _
  | cons target rest =>
    have used : 0 < s.depth := by
      rw [h.depth_eq, calls]
      exact Nat.succ_pos _
    have held : s.slots.toList.take (s.depth - 1) ++ [s.slots.get ⟨s.depth - 1, s.last_lt⟩] =
        rest.reverse ++ [target] := by
      rw [← take_pop used, h, Processor.stack, calls, List.reverse_cons]
    obtain ⟨below, last⟩ := List.append_inj' held rfl
    rw [if_pos used]
    exact .ok ⟨List.singleton_inj.mp last, below⟩

end Represents

/-! ## Runs -/

/-- What an executed instruction does to the slots. -/
def execute (s : CallStack) (op : Fetched) : CallStack :=
  if op.isCall then (s.push op.addr (op.addr + 2)).toOption.getD s
  else if op.isReturn then ((s.pop op.addr).toOption.map Prod.snd).getD s
  else s

/-- What the instructions of a run do to the slots, one after the other. -/
def follow (s : CallStack) (trace : List Fetched) : CallStack := trace.foldl execute s

theorem execute_of_call (call : op.isCall = true) (room : s.depth < 16) :
    s.execute op =
      { slots := s.slots.set s.depth (op.addr + 2), depth := s.depth + 1, depth_le := room } := by
  rw [execute, if_pos call, push, dif_pos room]
  rfl

theorem execute_of_return (ret : op.isReturn = true) (used : 0 < s.depth) :
    s.execute op =
      { s with depth := s.depth - 1, depth_le := Nat.le_of_lt s.last_lt } := by
  have call : ¬ op.isCall = true := by
    intro call
    rw [Fetched.isReturn_eq_false call] at ret
    cases ret
  rw [execute, if_neg call, if_pos ret, pop, if_pos used]
  rfl

/-- An instruction does to the slots what it does to the list. -/
theorem Represents.execute (h : s.Represents p) (stacked : op.Stacks p.calls q.calls)
    (bound : q.calls.length ≤ 16) : (s.execute op).Represents q := by
  have depth := h.depth_eq
  have held : s.slots.toList.take s.depth = p.calls.reverse := h
  show _ = q.calls.reverse
  generalize p.calls = before at stacked depth held
  generalize q.calls = left at stacked bound
  cases stacked with
  | call call =>
    have room : s.depth < 16 := by
      rw [depth]
      exact bound
    rw [execute_of_call call room, take_push room, held, List.reverse_cons]
  | @ret target rest ret =>
    have used : 0 < s.depth := by
      rw [depth]
      exact Nat.succ_pos _
    rw [take_pop used, List.reverse_cons] at held
    rw [execute_of_return ret used]
    exact (List.append_inj' held rfl).1
  | other call ret =>
    rw [CallStack.execute, call, ret]
    exact held

/-- Only a call writes a slot, and it is the one at the depth. -/
theorem slots_execute (s : CallStack) (op : Fetched) {k : Nat} (slot : k < 16)
    (low : (s.execute op).depth ≤ k) : (s.execute op).slots[k] = s.slots[k] := by
  cases call : op.isCall with
  | true =>
    by_cases room : s.depth < 16
    · rw [execute_of_call call room] at low
      have other : s.depth ≠ k := Nat.ne_of_lt low
      simp only [execute_of_call call room]
      exact Vector.getElem_set_ne _ _ other
    · simp only [execute, call, if_true, push, dif_neg room]
      rfl
  | false =>
    simp only [execute, call, pop, Bool.false_eq_true, if_false]
    split
    · split <;> rfl
    · rfl

/-- A slot keeps its address as long as the depth does not exceed it. -/
theorem slots_follow (s : CallStack) {trace : List Fetched} {k : Nat} (slot : k < 16)
    (low : ∀ part, part <+: trace → (s.follow part).depth ≤ k) :
    (s.follow trace).slots[k] = s.slots[k] := by
  induction trace generalizing s with
  | nil => rfl
  | cons op rest ih =>
    have first : (s.execute op).depth ≤ k :=
      low [op] (List.cons_prefix_cons.mpr ⟨rfl, List.nil_prefix⟩)
    have later : ∀ part, part <+: rest → ((s.execute op).follow part).depth ≤ k :=
      fun part sub => low (op :: part) (List.cons_prefix_cons.mpr ⟨rfl, sub⟩)
    exact (ih (s.execute op) later).trans (s.slots_execute op slot first)

end CallStack

namespace Console

variable {c : Console} {s : CallStack}

/-- Keys, the passing of time and instructions that are refused leave the slots alone. -/
theorem represents_act (h : c.WellFormed) (held : s.Represents c.machine.processor)
    (action : Action) :
    (s.follow (c.act action).result.instruction?.toList).Represents
      (c.act action).state.machine.processor := by
  rcases calls_act h.machine action with ⟨op, executed, stacked⟩ | ⟨skipped, same⟩
  · rw [executed]
    exact held.execute stacked (h.act action).machine.depth_le
  · rw [skipped]
    show s.slots.toList.take s.depth = (c.act action).state.machine.processor.calls.reverse
    rw [same]
    exact held

theorem represents_after (h : c.WellFormed) (held : s.Represents c.machine.processor)
    (actions : List Action) :
    (s.follow (c.trace actions)).Represents (c.after actions).machine.processor := by
  induction actions generalizing c s with
  | nil => exact held
  | cons action rest ih =>
    rw [trace, CallStack.follow, List.foldl_append]
    exact ih (h.act action) (represents_act h held action)

/-- The first instructions of a run are those of its first actions. -/
theorem prefix_trace {actions : List Action} {part : List Fetched}
    (sub : part <+: c.trace actions) : ∃ run, run <+: actions ∧ c.trace run = part := by
  induction actions generalizing c part with
  | nil => exact ⟨[], List.prefix_refl _, (List.prefix_nil.mp sub).symm⟩
  | cons action rest ih =>
    rw [trace] at sub
    cases executed : (c.act action).result.instruction? with
    | none =>
      rw [executed] at sub
      obtain ⟨run, within, rfl⟩ := ih sub
      refine ⟨action :: run, List.cons_prefix_cons.mpr ⟨rfl, within⟩, ?_⟩
      rw [trace, executed]
      rfl
    | some op =>
      rw [executed] at sub
      rcases List.prefix_cons_iff.mp sub with rfl | ⟨inner, rfl, within⟩
      · exact ⟨[], List.nil_prefix, rfl⟩
      · obtain ⟨run, earlier, rfl⟩ := ih within
        refine ⟨action :: run, List.cons_prefix_cons.mpr ⟨rfl, earlier⟩, ?_⟩
        rw [trace, executed]
        rfl

/-- Whatever a console does, the slots up to the depth hold its stack, and a slot that the run never
comes to holds what it held before. -/
theorem slots_after (h : c.WellFormed) (held : s.Represents c.machine.processor)
    (actions : List Action) :
    let later := s.follow (c.trace actions)
    later.slots.toList.take later.depth = (c.after actions).stack ∧
      ∀ k, ∀ slot : k < 16, (∀ run, run <+: actions → (c.after run).stack.length ≤ k) →
        later.slots[k] = s.slots[k] := by
  intro later
  refine ⟨represents_after h held actions, ?_⟩
  intro k slot low
  apply s.slots_follow slot
  intro part sub
  obtain ⟨run, within, rfl⟩ := prefix_trace sub
  rw [(represents_after h held run).depth_eq, ← Processor.length_stack]
  exact low run within

/-- A program finds all slots zero, and those that it never comes to remain so. -/
theorem slots_after_load (h : c.WellFormed) {program : List UInt8}
    (loaded : (c.load program).result = .ok ()) (actions : List Action) :
    let start := (c.load program).state
    let later := ({} : CallStack).follow (start.trace actions)
    later.slots.toList.take later.depth = (start.after actions).stack ∧
      ∀ k, ∀ slot : k < 16, (∀ run, run <+: actions → (start.after run).stack.length ≤ k) →
        later.slots[k] = 0 := by
  intro start later
  have empty : ({} : CallStack).Represents start.machine.processor := (stack_load loaded).symm
  obtain ⟨held, kept⟩ := slots_after (h.load program) empty actions
  refine ⟨held, ?_⟩
  intro k slot low
  rw [kept k slot low]
  exact Vector.getElem_replicate slot

end Console

end ChipEight
