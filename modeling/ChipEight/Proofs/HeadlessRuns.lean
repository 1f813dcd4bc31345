import ChipEight.Headless
import ChipEight.Proofs.Control

/-!
# How headless runs go

`Console.Steps n c d` says that exactly `n` instructions, all of which succeed, lead from one
console to another; `Console.Moves n c d` says in addition that each of them has left its own
address. A headless run takes moves until it has taken as many as it may, until an instruction
stays on its own address, or until one fails. `HeadlessRun.Ends` has one constructor for each
of these three ends, and `HeadlessRun.ends_advance` says that no run ends otherwise.

A run that an instruction has ended by staying in place is said to be halted. It is parked,
which is to go on for ever without a change, if that instruction is a jump or a wait for a key.
A call and a return stay in place just as well, when they are given their own address, but what
they leave behind is not what they found: `HeadlessRun.parked_of_halted`.
-/

namespace ChipEight

namespace Console

variable {c d : Console} {op : Fetched} {n : Nat}

/-- Exactly `n` instructions, all of which succeed, lead from one console to another. -/
inductive Steps : Nat → Console → Console → Prop
  | refl (c : Console) : Steps 0 c c
  | cons {n : Nat} {c d : Console} {op : Fetched} (done : c.step.result = .ok op)
      (rest : Steps n c.step.state d) : Steps (n + 1) c d

/-- Exactly `n` instructions lead from one console to another, and each of them succeeds and
sends control away from its own address. -/
inductive Moves : Nat → Console → Console → Prop
  | refl (c : Console) : Moves 0 c c
  | cons {n : Nat} {c d : Console} {op : Fetched} (done : c.step.result = .ok op)
      (away : c.step.state.machine.pc ≠ op.addr) (rest : Moves n c.step.state d) :
      Moves (n + 1) c d

/-- The next instruction succeeds and leaves the program counter on its own address. -/
def Stays (c : Console) : Prop :=
  ∃ op, c.step.result = .ok op ∧ c.step.state.machine.pc = op.addr

/-- Nothing is left to happen: every further instruction succeeds and changes nothing but the
count of executed instructions. -/
def Parked (c : Console) : Prop :=
  ∀ n, c.Steps n { c with executed := c.executed + n }

theorem WellFormed.moves (h : c.WellFormed) (moves : Moves n c d) : d.WellFormed := by
  induction moves with
  | refl => exact h
  | cons _ _ _ ih => exact ih h.step

theorem WellFormed.holdKeys (h : c.WellFormed) {keys : List Int}
    (held : c.holdKeys keys = .ok d) : d.WellFormed := by
  induction keys generalizing c with
  | nil =>
    cases held
    exact h
  | cons key rest ih =>
    rw [Console.holdKeys] at held
    split at held
    · cases held
    · next set => exact ih (h.setKey set) held

/-! ## Parking -/

/-- An instruction that changes nothing is met again for ever. -/
theorem parked_of_step {events : List Event}
    (same : c.machine.step = { state := c.machine, result := .ok op, events }) : c.Parked := by
  intro n
  induction n generalizing c with
  | zero => exact .refl c
  | succ n ih =>
    have done : c.step.result = .ok op := by rw [step, afterInstruction, same]
    have counted : c.step.state = { c with executed := c.executed + 1 } := by
      rw [step, afterInstruction, same]
    have total : c.executed + 1 + n = c.executed + (n + 1) := by omega
    refine .cons done ?_
    rw [counted, ← total]
    exact ih same

theorem Parked.step (parked : c.Parked) :
    ∃ op, c.step.result = .ok op ∧ c.step.state = { c with executed := c.executed + 1 } := by
  cases parked 1 with
  | cons done rest =>
    generalize c.step.state = next at rest
    cases rest
    exact ⟨_, done, rfl⟩

/-- A console from which a fault can be reached is not parked. -/
theorem not_parked_of_fault {fault : Fault} (steps : c.Steps n d)
    (failure : d.step.result = .error fault) : ¬ c.Parked := by
  intro parked
  have longer := parked (n + 1)
  generalize { c with executed := c.executed + (n + 1) } = last at longer
  clear parked
  induction steps with
  | refl =>
    cases longer with
    | cons done _ =>
      rw [failure] at done
      cases done
  | cons _ _ ih =>
    cases longer with
    | cons _ rest => exact ih failure rest

/-- Calls of their own address fill the call stack, until there is no room for one more. -/
theorem overflow_of_call (h : c.WellFormed) (fetches : c.machine.Fetches) {target : Nat}
    (decoded : c.machine.word.decode = .call target) (own : target = c.machine.pc) {room : Nat}
    (left : c.machine.processor.calls.length + room = 16) :
    ∃ d fault, c.Steps room d ∧ d.step.result = .error fault ∧
      fault.cause.kind = .stackOverflow := by
  induction room generalizing c with
  | zero =>
    have family : c.machine.word.family = 0x2 := by
      cases Word.decode_eq_iff.mp decoded
      assumption
    have fails : c.machine.Fails .stackOverflow (some c.machine.word) :=
      .execute fetches (.call family left)
    obtain ⟨fault, failure, kind, -, -⟩ := Machine.error_of_fails h.machine fails
    exact ⟨c, fault, .refl c, failure, kind⟩
  | succ room ih =>
    have stacked := Machine.step_of_call h.machine.memory fetches decoded own (by omega)
    have done : c.step.result = .ok c.machine.current := by
      rw [Console.step, afterInstruction, stacked]
    have machine : c.step.state.machine = { c.machine with
        processor := { c.machine.processor with
          calls := (c.machine.pc + 2) :: c.machine.processor.calls } } := by
      rw [Console.step, afterInstruction, stacked]
    obtain ⟨d, fault, rest, failure, kind⟩ := ih h.step (by rw [machine]; exact fetches)
      (by rw [machine]; exact decoded) (by rw [machine]; exact own)
      (by rw [machine, List.length_cons]; omega)
    exact ⟨d, fault, .cons done rest, failure, kind⟩

/-- A return on an empty stack fails, and any other takes an address from the stack. -/
theorem step_of_ret (h : c.WellFormed) (fetches : c.machine.Fetches)
    (decoded : c.machine.word.decode = .ret) :
    (∃ fault, c.step.result = .error fault ∧ fault.cause.kind = .stackUnderflow) ∨
      c.step.result = .ok c.machine.current ∧
        c.step.state.machine.processor.calls.length + 1 =
          c.machine.processor.calls.length := by
  cases calls : c.machine.processor.calls with
  | nil =>
    have word : c.machine.word.toNat = 0x00EE := by
      cases Word.decode_eq_iff.mp decoded
      assumption
    have fails : c.machine.Fails .stackUnderflow (some c.machine.word) :=
      .execute fetches (.ret word (by rw [calls]; rfl))
    obtain ⟨fault, failure, kind, -, -⟩ := Machine.error_of_fails h.machine fails
    exact .inl ⟨fault, failure, kind⟩
  | cons target rest =>
    obtain ⟨done, left, -, -⟩ := Machine.calls_step_of_ret h.machine.memory fetches decoded calls
    refine .inr ⟨done, ?_⟩
    rw [step, afterInstruction, left, List.length_cons]

/-- A return is not met again with the stack that it found. -/
theorem not_parked_of_ret (h : c.WellFormed) (fetches : c.machine.Fetches)
    (decoded : c.machine.word.decode = .ret) : ¬ c.Parked := by
  intro parked
  obtain ⟨op, done, state⟩ := parked.step
  rcases step_of_ret h fetches decoded with ⟨fault, failure, -⟩ | ⟨-, left⟩
  · rw [failure] at done
    cases done
  · rw [state] at left
    exact Nat.succ_ne_self _ left

end Console

namespace HeadlessRun

/-- The ends a headless run can come to when it may take `limit` more instructions. -/
inductive Ends (first : HeadlessRun) (limit : Nat) (last : HeadlessRun) : Prop
  /-- It has taken them all. -/
  | exhausted (moves : first.console.Moves limit last.console)
      (steps : last.steps = first.steps + limit) (halted : last.halted = false)
      (fault : last.fault = none)
  /-- An instruction stayed on its own address. -/
  | stayed {k : Nat} {c : Console} (within : k < limit) (moves : first.console.Moves k c)
      (stays : c.Stays) (console : last.console = c.step.state)
      (steps : last.steps = first.steps + (k + 1)) (halted : last.halted = true)
      (fault : last.fault = none)
  /-- An instruction failed. -/
  | failed {k : Nat} {c : Console} {fault : Fault} (within : k < limit)
      (moves : first.console.Moves k c) (failure : c.step.result = .error fault)
      (console : last.console = c.step.state) (steps : last.steps = first.steps + k)
      (halted : last.halted = true) (fault : last.fault = some fault)

/-- A move before the others makes a run longer, and no different. -/
theorem Ends.cons {first second last : HeadlessRun} {limit : Nat} {op : Fetched}
    (done : first.console.step.result = .ok op)
    (away : first.console.step.state.machine.pc ≠ op.addr)
    (console : second.console = first.console.step.state)
    (steps : second.steps = first.steps + 1) (ends : second.Ends limit last) :
    first.Ends (limit + 1) last := by
  have prepend : ∀ {k c}, second.console.Moves k c → first.console.Moves (k + 1) c := by
    intro k c moves
    rw [console] at moves
    exact .cons done away moves
  cases ends with
  | exhausted moves taken halted fault =>
    exact .exhausted (prepend moves) (by omega) halted fault
  | stayed within moves stays reached taken halted fault =>
    exact .stayed (Nat.succ_lt_succ within) (prepend moves) stays reached (by omega) halted fault
  | failed within moves failure reached taken halted fault =>
    exact .failed (Nat.succ_lt_succ within) (prepend moves) failure reached (by omega) halted fault

theorem ends_advance {run : HeadlessRun} (going : run.halted = false) (sound : run.fault = none)
    (limit : Nat) : run.Ends limit (run.advance limit) := by
  induction limit generalizing run with
  | zero => exact .exhausted (.refl _) rfl going sound
  | succ limit ih =>
    rw [advance]
    cases done : run.console.step.result with
    | error fault => exact .failed (Nat.succ_pos _) (.refl _) done rfl rfl rfl rfl
    | ok op =>
      dsimp only
      by_cases back : run.console.step.state.machine.pc = op.addr
      · rw [if_pos back]
        exact .stayed (Nat.succ_pos _) (.refl _) ⟨op, done, back⟩ rfl rfl rfl sound
      · rw [if_neg back]
        exact .cons done back rfl rfl (ih going sound)

variable {program : List UInt8} {options : Options} {keys : List Int} {limit : Int}
  {run : HeadlessRun}

/-- A program that is loaded is run from the console with the keys held, and one that does not
fit is a fault. -/
theorem ends_of_ofProgram (ran : ofProgram program options keys limit = .ok run) :
    (∃ fault, run.fault = some fault ∧
        ((Console.ofOptions options).load program).result = .error fault) ∨
      ∃ first : HeadlessRun, ((Console.ofOptions options).load program).result = .ok () ∧
        ((Console.ofOptions options).load program).state.holdKeys keys = .ok first.console ∧
        first.steps = 0 ∧ first.Ends limit.toNat run := by
  unfold ofProgram at ran
  dsimp only at ran
  split at ran
  · next fault refused =>
    cases ran
    exact .inl ⟨fault, rfl, refused⟩
  · next loaded =>
    split at ran
    · cases ran
    · next console held =>
      cases ran
      refine .inr ⟨_, loaded, ?_, ?_, ends_advance rfl rfl _⟩
      · exact held
      · rfl

/-- A run that is halted without a fault has an instruction in front of it that stays on its own
address. -/
theorem stays_of_halted (ran : ofProgram program options keys limit = .ok run)
    (halted : run.halted = true) (sound : run.fault = none) :
    run.console.WellFormed ∧ run.console.machine.Fetches ∧ run.console.machine.Stays := by
  rcases ends_of_ofProgram ran with ⟨fault, failed, -⟩ | ⟨first, -, held, -, ends⟩
  · rw [failed] at sound
    cases sound
  · cases ends with
    | exhausted _ _ going _ =>
      rw [going] at halted
      cases halted
    | failed _ _ _ _ _ _ failed =>
      rw [failed] at sound
      cases sound
    | stayed _ moves stays console _ _ _ =>
      have begun := ((Console.wellFormed_ofOptions options).load program).holdKeys held
      have last := begun.moves moves
      obtain ⟨op, done, back⟩ := stays
      obtain ⟨-, -, fetches, stays, -⟩ := Machine.stays_of_step last.machine done back
      rw [console]
      exact ⟨last.step, fetches, stays⟩

/-- What a run that is halted without a fault has come to. A jump to itself and a wait without a
key park the run: it goes on for ever and changes nothing but the count. A call of its own
address does not, for it fills the call stack and then fails; nor does a return, which fails at
once or shortens the stack. -/
theorem parked_of_halted (program : List UInt8) (options : Options) (keys : List Int)
    (limit : Int) (run : HeadlessRun) (ran : ofProgram program options keys limit = .ok run)
    (halted : run.halted = true) (sound : run.fault = none) :
    let c := run.console
    let m := c.machine
    (((∃ target : Nat, m.word.decode = .jump target ∧ (target : Int) = m.pc) ∨
          (∃ x, m.word.decode = .awaitKey x) ∧ m.keypad.lowest? = none) ∧ c.Parked) ∨
      ((∃ target : Nat, m.word.decode = .call target ∧ (target : Int) = m.pc) ∧ ¬ c.Parked ∧
        ∃ d fault, c.Steps (16 - m.processor.calls.length) d ∧ d.step.result = .error fault ∧
          fault.cause.kind = .stackOverflow) ∨
      (m.word.decode = .ret ∧ ¬ c.Parked ∧
        ((∃ fault, c.step.result = .error fault ∧ fault.cause.kind = .stackUnderflow) ∨
          c.step.result = .ok m.current ∧
            c.step.state.machine.processor.calls.length + 1 = m.processor.calls.length)) := by
  intro c m
  obtain ⟨formed, fetches, stays⟩ := stays_of_halted ran halted sound
  cases stays with
  | jump decoded own =>
    have same := Machine.step_of_jump formed.machine.memory fetches decoded own
    exact .inl ⟨.inl ⟨_, decoded, own⟩, Console.parked_of_step same⟩
  | awaitKey decoded released =>
    have same := Machine.step_of_awaitKey formed.machine.memory fetches decoded released
    exact .inl ⟨.inr ⟨⟨_, decoded⟩, released⟩, Console.parked_of_step same⟩
  | call decoded own =>
    have left : m.processor.calls.length + (16 - m.processor.calls.length) = 16 :=
      Nat.add_sub_cancel' formed.machine.depth_le
    obtain ⟨d, fault, steps, failure, kind⟩ :=
      Console.overflow_of_call formed fetches decoded own left
    exact .inr (.inl ⟨⟨_, decoded, own⟩, Console.not_parked_of_fault steps failure,
      d, fault, steps, failure, kind⟩)
  | ret decoded =>
    exact .inr (.inr ⟨decoded, Console.not_parked_of_ret formed fetches decoded,
      Console.step_of_ret formed fetches decoded⟩)

/-- A wait without a key parks at its own address. -/
theorem parked_of_awaitKey :
    ∃ run, ofProgram [0xF0, 0x0A] {} [] 1 = .ok run ∧ run.halted = true ∧ run.fault = none ∧
      run.console.Parked := by
  have seen : (ofProgram [0xF0, 0x0A] {} [] 1).map
      (fun run => (run.halted, run.fault, run.console.machine.word.decode)) =
        .ok (true, none, .awaitKey 0) := by decide +kernel
  cases ran : ofProgram [0xF0, 0x0A] {} [] 1 with
  | error refusal =>
    rw [ran] at seen
    cases seen
  | ok run =>
    rw [ran] at seen
    obtain ⟨halted, sound, decoded⟩ : run.halted = true ∧ run.fault = none ∧
        run.console.machine.word.decode = .awaitKey 0 := by simpa [Except.map] using seen
    refine ⟨run, rfl, halted, sound, ?_⟩
    rcases parked_of_halted [0xF0, 0x0A] {} [] 1 run ran halted sound with
      ⟨-, parked⟩ | ⟨⟨target, called, -⟩, -⟩ | ⟨returned, -⟩
    · exact parked
    · rw [decoded] at called
      cases called
    · rw [decoded] at returned
      cases returned

/-- A call of its own address is reported as halted after one instruction, and yet fifteen more
succeed and the sixteenth overflows the stack. -/
theorem not_parked_of_call :
    ∃ run, ofProgram [0x22, 0x00] {} [] 1 = .ok run ∧ run.halted = true ∧ run.fault = none ∧
      ¬ run.console.Parked ∧
      ∃ d fault, run.console.Steps 15 d ∧ d.step.result = .error fault ∧
        fault.cause.kind = .stackOverflow := by
  have seen : (ofProgram [0x22, 0x00] {} [] 1).map
      (fun run => (run.halted, run.fault, run.console.machine.word.decode, run.console.machine.pc,
        run.console.machine.processor.calls)) =
        .ok (true, none, .call 0x200, 0x200, [0x202]) := by decide +kernel
  cases ran : ofProgram [0x22, 0x00] {} [] 1 with
  | error refusal =>
    rw [ran] at seen
    cases seen
  | ok run =>
    rw [ran] at seen
    obtain ⟨halted, sound, decoded, pc, calls⟩ : run.halted = true ∧ run.fault = none ∧
        run.console.machine.word.decode = .call 0x200 ∧ run.console.machine.pc = 0x200 ∧
          run.console.machine.processor.calls = [0x202] := by simpa [Except.map] using seen
    obtain ⟨formed, fetches, -⟩ := stays_of_halted ran halted sound
    have room : run.console.machine.processor.calls.length + 15 = 16 := by rw [calls]; rfl
    obtain ⟨d, fault, steps, failure, kind⟩ :=
      Console.overflow_of_call formed fetches decoded pc.symm room
    exact ⟨run, rfl, halted, sound, Console.not_parked_of_fault steps failure, d, fault, steps,
      failure, kind⟩

end HeadlessRun

end ChipEight
