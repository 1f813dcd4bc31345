import ChipEight.Proofs.Faults

/-!
# Where control goes

An instruction falls through to the next one or sends control somewhere. Five kinds of words
send control somewhere, and `Machine.Redirects` lists them with the addresses they send it to.

Four of the five can find their own address there: a jump, a wait for a key that is not held, a
call, and a return. `Machine.Stays` lists these. The first two then leave the machine exactly as
it was, so that the same instruction is met again for ever. A call has stacked an address and a
return has taken one from the stack, so these two are met again with another stack.
-/

namespace ChipEight

namespace Machine

variable {m : Machine} {op : Fetched}

/-! ## Sending control -/

theorem pc_present (m : Machine) (request : Display.Request) :
    (m.present request).state.pc = m.pc := by
  cases request <;> rfl

theorem pc_combine (m : Machine) (op : Fetched) (operation : Operation) (x y : Fin 16) :
    (m.combine op operation x y).state.pc = m.pc := by
  rw [combine]
  generalize operation.apply m.reversed (m.v x) (m.v y) = computed
  obtain ⟨result, flag⟩ := computed
  cases flag <;> rfl

/-- A word is carried out with the program counter left where it is: only the driver of the
machine moves it. -/
theorem pc_execute (m : Machine) (op : Fetched) : (m.execute op).state.pc = m.pc := by
  cases decoded : op.word.decode with
  | clear | selectMode =>
    simp only [execute, decoded]
    exact pc_present m _
  | combine operation x y =>
    simp only [execute, decoded]
    exact pc_combine m op operation x y
  | draw x y rows =>
    simp only [execute, decoded, draw]
    split
    · rfl
    · exact pc_present m _
  | storeDigits | store =>
    simp only [execute, decoded, state_writeBlock]
    rfl
  | ret =>
    simp only [execute, decoded, Processor.pop]
    cases m.processor.calls <;> rfl
  | call target =>
    simp only [execute, decoded, Processor.push]
    by_cases full : Processor.maxCalls ≤ m.processor.calls.length
    · rw [if_pos full]
      rfl
    · rw [if_neg full]
      rfl
  | restore x =>
    simp only [execute, decoded]
    split
    · rfl
    · exact Processor.pc_setLow _ _
  | skipIf =>
    simp only [execute, decoded]
    split <;> rfl
  | awaitKey x =>
    simp only [execute, decoded, awaitKey]
    split <;> rfl
  | _ =>
    simp only [execute, decoded]
    rfl

/-- The words that send control somewhere, with the address they send it to. -/
inductive Redirects (m : Machine) (op : Fetched) : Int → Prop
  | ret {target : Int} {processor : Processor} (decoded : op.word.decode = .ret)
      (popped : m.processor.pop = .ok (target, processor)) : m.Redirects op target
  | jump {target : Nat} (decoded : op.word.decode = .jump target) : m.Redirects op target
  | call {target : Nat} (decoded : op.word.decode = .call target) : m.Redirects op target
  | skipIf {condition : Condition} (decoded : op.word.decode = .skipIf condition) :
      m.Redirects op (m.pc + 2)
  | awaitKey {x : Fin 16} (decoded : op.word.decode = .awaitKey x)
      (released : m.keypad.lowest? = none) : m.Redirects op op.addr

/-- No other word sends control anywhere. -/
theorem redirects_of_execute {target : Int}
    (sent : (m.execute op).result = .ok (some target)) : m.Redirects op target := by
  cases decoded : op.word.decode with
  | ret =>
    simp only [execute, decoded] at sent
    split at sent
    · cases sent
    · next popped =>
      cases sent
      exact .ret decoded popped
  | jump =>
    simp only [execute, decoded] at sent
    cases sent
    exact .jump decoded
  | call =>
    simp only [execute, decoded] at sent
    split at sent
    · cases sent
    · cases sent
      exact .call decoded
  | skipIf =>
    simp only [execute, decoded] at sent
    split at sent
    · cases sent
      exact .skipIf decoded
    · cases sent
  | awaitKey =>
    simp only [execute, decoded, Machine.awaitKey] at sent
    split at sent
    · cases sent
    · next released =>
      cases sent
      exact .awaitKey decoded released
  | clear | selectMode =>
    simp only [execute, decoded, result_present] at sent
    cases sent
  | combine =>
    simp only [execute, decoded, result_combine] at sent
    cases sent
  | draw x y rows =>
    simp only [execute, decoded, draw] at sent
    split at sent
    · cases sent
    · rw [result_present] at sent
      cases sent
  | storeDigits | store =>
    simp only [execute, decoded, result_writeBlock] at sent
    split at sent <;> cases sent
  | restore =>
    simp only [execute, decoded] at sent
    split at sent <;> cases sent
  | _ =>
    simp only [execute, decoded] at sent
    cases sent

/-! ## Staying in place -/

/-- The words that leave the program counter on their own address. -/
inductive Stays (m : Machine) : Prop
  | jump {target : Nat} (decoded : m.word.decode = .jump target) (own : target = m.pc)
  | awaitKey {x : Fin 16} (decoded : m.word.decode = .awaitKey x)
      (released : m.keypad.lowest? = none)
  | call {target : Nat} (decoded : m.word.decode = .call target) (own : target = m.pc)
  | ret (decoded : m.word.decode = .ret)

/-- A wait for a key stays in place only while no key is held. -/
theorem Stays.released {x : Fin 16} (h : m.Stays) (decoded : m.word.decode = .awaitKey x) :
    m.keypad.lowest? = none := by
  cases h with
  | awaitKey _ released => exact released
  | jump other | call other | ret other =>
    rw [decoded] at other
    cases other

theorem word_congr {n : Machine} (memory : n.memory = m.memory) (pc : n.pc = m.pc) :
    n.word = m.word := by
  rw [word, word, memory, pc]

theorem step_of_jump {target : Nat} (memory : m.memory.Intact) (fetches : m.Fetches)
    (decoded : m.word.decode = .jump target) (own : target = m.pc) :
    m.step = { state := m, result := .ok m.current, events := [.jumped target] } := by
  have executed : m.advance.execute m.current = m.advance.redirect target [.jumped target] := by
    simp only [execute, current, decoded]
  rw [step_of_fetches memory fetches, complete, executed, own]
  rfl

theorem step_of_awaitKey {x : Fin 16} (memory : m.memory.Intact) (fetches : m.Fetches)
    (decoded : m.word.decode = .awaitKey x) (released : m.keypad.lowest? = none) :
    m.step = { state := m, result := .ok m.current, events := [.keyAwaited] } := by
  have kept : m.advance.keypad.lowest? = none := released
  have executed : m.advance.execute m.current = m.advance.redirect m.pc [.keyAwaited] := by
    simp only [execute, current, decoded, Machine.awaitKey, kept]
  rw [step_of_fetches memory fetches, complete, executed]
  rfl

/-- A call of its own address stacks the address behind it, as long as there is room. -/
theorem step_of_call {target : Nat} (memory : m.memory.Intact) (fetches : m.Fetches)
    (decoded : m.word.decode = .call target) (own : target = m.pc)
    (room : m.processor.calls.length < 16) :
    m.step =
      { state := { m with processor :=
          { m.processor with calls := (m.pc + 2) :: m.processor.calls } }
        result := .ok m.current } := by
  have passed : m.advance.pc = m.pc + 2 := pc_advance_of_fetches fetches
  have free : ¬ Processor.maxCalls ≤ m.advance.processor.calls.length := Nat.not_le.mpr room
  have executed : m.advance.execute m.current =
      ({ m.advance with processor :=
        { m.advance.processor with calls := (m.pc + 2) :: m.processor.calls } } :
          Machine).redirect target := by
    simp only [execute, current, decoded, Processor.push, if_neg free, passed]
    rfl
  rw [step_of_fetches memory fetches, complete, executed, own]
  rfl

/-- A return takes an address from the stack. -/
theorem calls_step_of_ret (memory : m.memory.Intact) (fetches : m.Fetches)
    (decoded : m.word.decode = .ret) {target : Int} {rest : List Int}
    (calls : m.processor.calls = target :: rest) :
    m.step.result = .ok m.current ∧ m.step.state.processor.calls = rest ∧
      m.step.state.pc = target ∧ m.step.state.memory = m.memory := by
  have kept : m.advance.processor.calls = target :: rest := calls
  have executed : m.advance.execute m.current =
      ({ m.advance with processor := { m.advance.processor with calls := rest } } :
        Machine).redirect target := by
    simp only [execute, current, decoded, Processor.pop, kept]
  rw [step_of_fetches memory fetches, complete, executed]
  exact ⟨rfl, rfl, rfl, rfl⟩

/-- An instruction that leaves the program counter on its own address is one of the four, and
the same word is met again afterwards. -/
theorem stays_of_step (h : m.WellFormed) (done : m.step.result = .ok op)
    (back : m.step.state.pc = op.addr) :
    m.Fetches ∧ m.Stays ∧ m.step.state.Fetches ∧ m.step.state.Stays ∧
      m.step.state.word = m.word := by
  by_cases fetches : m.Fetches
  · have passed : m.advance.pc = m.pc + 2 := pc_advance_of_fetches fetches
    rw [step_of_fetches h.memory fetches] at done back
    cases result : (m.advance.execute m.current).result with
    | error fault =>
      rw [complete_of_error result] at done
      cases done
    | ok sent =>
      rw [complete_of_ok result] at done back
      cases done
      cases sent with
      | none =>
        have left : (m.advance.execute m.current).state.pc = m.pc + 2 :=
          (pc_execute _ _).trans passed
        have same : m.pc + 2 = m.pc := left.symm.trans back
        omega
      | some target =>
        have own : target = m.pc := back
        cases redirects_of_execute result with
        | ret decoded popped =>
          cases calls : m.processor.calls with
          | nil =>
            have empty : m.advance.processor.calls = [] := calls
            simp only [Processor.pop, empty] at popped
            cases popped
          | cons latest rest =>
            have stacked : m.advance.processor.calls = latest :: rest := calls
            simp only [Processor.pop, stacked] at popped
            cases popped
            obtain ⟨-, -, pc, memory⟩ := calls_step_of_ret h.memory fetches decoded calls
            have same : m.step.state.word = m.word := word_congr memory (pc.trans own)
            refine ⟨fetches, .ret decoded, ?_, .ret ?_, same⟩
            · rw [Fetches, pc, own]
              exact fetches
            · rw [same]
              exact decoded
        | jump decoded =>
          have step := step_of_jump h.memory fetches decoded own
          rw [step]
          exact ⟨fetches, .jump decoded own, fetches, .jump decoded own, rfl⟩
        | call decoded =>
          by_cases room : m.processor.calls.length < 16
          · have step := step_of_call h.memory fetches decoded own room
            rw [step]
            exact ⟨fetches, .call decoded own, fetches, .call decoded own, rfl⟩
          · have full : Processor.maxCalls ≤ m.advance.processor.calls.length :=
              Nat.not_lt.mp room
            have word : m.current.word.decode = .call _ := decoded
            simp only [execute, word, Processor.push, if_pos full] at result
            cases result
        | skipIf decoded =>
          have away : m.advance.pc + 2 = m.pc := own
          omega
        | awaitKey decoded released =>
          have step := step_of_awaitKey h.memory fetches decoded released
          rw [step]
          exact ⟨fetches, .awaitKey decoded released, fetches, .awaitKey decoded released, rfl⟩
  · rw [step_of_not_fetches h.memory fetches] at done
    cases done

end Machine

end ChipEight
