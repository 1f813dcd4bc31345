import ChipEight.Proofs.Unattended

/-!
# Step limits

A headless run is a number of steps, and the number is the least at which something stops it: the
limit has been reached, the last step has stayed on its own address, or the next one fails
(`Console.Stops`). Several of these may hold at once, and then a step that stayed in place is what
the run reports, and a failure that was never met is not reported at all. `HeadlessRun.Takes` says
what the run has to show for it.

So a limit only cuts a run off. A run that was stopped by something else is the same for every
larger limit, and one that was cut off is continued by the same rule from where it stood
(`HeadlessRun.takes_least`). The continuation may forget that steps were taken before: the last
of them did not stay in place, or the run would not have been cut off.
-/

namespace ChipEight

namespace Console

variable {c d : Console}

/-- The console after a number of steps, succeed or fail. -/
def stepped (c : Console) : Nat → Console
  | 0 => c
  | k + 1 => c.step.state.stepped k

/-- The step of this number has stayed on its own address. Steps are counted from one. -/
def StaysAt (c : Console) : Nat → Prop
  | 0 => False
  | k + 1 => (c.stepped k).Stays

/-- Something keeps a run from going further than this many steps. -/
inductive Stops (c : Console) (limit : Int) (k : Nat) : Prop
  | limited (reached : limit ≤ k)
  | stayed (stays : c.StaysAt k)
  | failed {fault : Fault} (failure : (c.stepped k).step.result = .error fault)

theorem step_stepped (c : Console) (k : Nat) : (c.stepped k).step.state = c.stepped (k + 1) := by
  induction k generalizing c with
  | zero => rfl
  | succ k ih => exact ih c.step.state

/-- Moves are steps, all of which are counted, and of which none stays in place or fails. -/
theorem Moves.eq_stepped {n : Nat} (moves : Moves n c d) :
    d = c.stepped n ∧ d.executed = c.executed + n ∧
      ∀ k < n, ¬ (c.stepped k).Stays ∧ ∀ fault, (c.stepped k).step.result ≠ .error fault := by
  induction moves with
  | refl => exact ⟨rfl, rfl, fun k before => absurd before (Nat.not_lt_zero k)⟩
  | @cons n c d op done away rest ih =>
    obtain ⟨last, counted, others⟩ := ih
    refine ⟨last, ?_, ?_⟩
    · rw [counted, executed_of_ok done]
      omega
    · intro k before
      cases k with
      | succ k => exact others k (Nat.lt_of_succ_lt_succ before)
      | zero =>
        constructor
        · rintro ⟨other, same, back⟩
          have same : c.step.result = .ok other := same
          rw [done] at same
          cases same
          exact away back
        · intro fault failure
          have failure : c.step.result = .error fault := failure
          rw [done] at failure
          cases failure

/-- Nothing stops a run in the middle of its moves. -/
theorem Moves.not_stops {limit : Int} {n : Nat} (moves : Moves n c d) {k : Nat} (before : k < n)
    (within : k < limit) : ¬ c.Stops limit k := by
  obtain ⟨-, -, others⟩ := moves.eq_stepped
  intro stops
  cases stops with
  | limited reached => omega
  | failed failure => exact (others k before).2 _ failure
  | stayed stays =>
    cases k with
    | zero => exact stays
    | succ k => exact (others k (Nat.lt_of_succ_lt before)).1 stays

theorem Moves.not_staysAt {n : Nat} (moves : Moves n c d) : ¬ c.StaysAt n := by
  cases n with
  | zero => exact id
  | succ n => exact (moves.eq_stepped.2.2 n (Nat.lt_succ_self n)).1

/-- Nor behind them, if there is another step to take and it succeeds. -/
theorem Moves.not_stops_of_ok {limit : Int} {n : Nat} (moves : Moves n c d) {op : Fetched}
    (done : d.step.result = .ok op) (within : n < limit) : ¬ c.Stops limit n := by
  intro stops
  cases stops with
  | limited reached => omega
  | stayed stays => exact moves.not_staysAt stays
  | failed failure =>
    rw [moves.eq_stepped.1, failure] at done
    cases done

/-- All keys that there are can be held. -/
theorem holdKeys_eq_ok (c : Console) {keys : List Int} (numbered : ∀ key ∈ keys, 0 ≤ key ∧ key < 16) :
    ∃ d, c.holdKeys keys = .ok d := by
  induction keys generalizing c with
  | nil => exact ⟨c, rfl⟩
  | cons key rest ih =>
    obtain ⟨first, others⟩ := List.forall_mem_cons.mp numbered
    simp only [holdKeys, setKey, Keypad.set, dif_pos first]
    exact ih _ others

/-- A program that was loaded has not been executed yet. -/
theorem executed_load {program : List UInt8} (loaded : (c.load program).result = .ok ()) :
    (c.load program).state.executed = 0 := by
  rw [load] at loaded ⊢
  split
  · next refused =>
    rw [refused] at loaded
    cases loaded
  · rfl

end Console

namespace HeadlessRun

variable {first last : HeadlessRun} {limit : Int} {k : Nat}

/-- A run that may take `limit` more steps takes `k` of them, the least number at which it is stopped,
and reports how. Where it fails, that is on the step after these, and it keeps what the failed step
leaves behind. -/
structure Takes (first : HeadlessRun) (limit : Int) (k : Nat) (last : HeadlessRun) : Prop where
  stops : first.console.Stops limit k
  least : ∀ j < k, ¬ first.console.Stops limit j
  within : (k : Int) ≤ max 0 limit
  steps : last.steps = first.steps + k
  executed : last.console.executed = first.console.executed + k
  failed_iff : last.fault ≠ none ↔ ¬ limit ≤ k ∧ ¬ first.console.StaysAt k
  failed : ∀ fault, last.fault = some fault →
    (first.console.stepped k).step.result = .error fault ∧
      last.console = (first.console.stepped k).step.state ∧ last.halted = true
  ended : last.fault = none →
    last.console = first.console.stepped k ∧ (last.halted = true ↔ first.console.StaysAt k)

/-- Each of the ends a run can come to is the least number of steps at which something stops it. -/
theorem Ends.takes (ends : first.Ends limit.toNat last) : ∃ k, first.Takes limit k last := by
  cases ends with
  | exhausted moves steps halted fault =>
    obtain ⟨reached, counted, -⟩ := moves.eq_stepped
    have reach : limit ≤ limit.toNat := Int.self_le_toNat limit
    exact ⟨limit.toNat,
      { stops := .limited reach
        least := fun j before => moves.not_stops before (by omega)
        within := by omega
        steps, executed := counted
        failed_iff := iff_of_false (not_not_intro fault) fun both => both.1 reach
        failed := by simp [fault]
        ended := fun _ => ⟨reached, by simp [halted, moves.not_staysAt]⟩ }⟩
  | @stayed k c within moves stays console steps halted fault =>
    obtain ⟨reached, counted, -⟩ := moves.eq_stepped
    obtain ⟨op, done, -⟩ := id stays
    have last : (first.console.stepped k).Stays := reached ▸ stays
    have taken : first.console.StaysAt (k + 1) := last
    exact ⟨k + 1,
      { stops := .stayed taken
        least := by
          intro j before
          -- the last step is not among the moves, since it stays
          rcases Nat.lt_succ_iff_lt_or_eq.mp before with earlier | rfl
          · exact moves.not_stops earlier (by omega)
          · exact moves.not_stops_of_ok done (by omega)
        within := by omega
        steps
        executed := by rw [console, Console.executed_of_ok done, counted, Nat.add_assoc]
        failed_iff := by simp [fault, taken]
        failed := by simp [fault]
        ended := fun _ =>
          ⟨by rw [console, reached, Console.step_stepped], iff_of_true halted taken⟩ }⟩
  | @failed k c fault within moves failure console steps halted failed =>
    obtain ⟨reached, counted, -⟩ := moves.eq_stepped
    have next : (first.console.stepped k).step.result = .error fault := reached ▸ failure
    have short : ¬ limit ≤ k := by omega
    exact ⟨k,
      { stops := .failed next
        least := fun j before => moves.not_stops before (by omega)
        within := by omega
        steps
        executed := by rw [console, Console.executed_of_error failure, counted]
        failed_iff := by simp [failed, short, moves.not_staysAt]
        failed := by
          intro other same
          rw [failed] at same
          cases same
          exact ⟨next, by rw [console, reached], halted⟩
        ended := by simp [failed] }⟩

/-- A run that was cut off by its limit has not failed, and has taken as many steps as it may. -/
theorem Takes.of_going (h : first.Takes limit k last) (going : last.halted = false) :
    last.fault = none ∧ (k : Int) = max 0 limit := by
  have sound : last.fault = none := by
    cases failed : last.fault with
    | none => rfl
    | some fault =>
      rw [(h.failed fault failed).2.2] at going
      cases going
  have unstayed : ¬ first.console.StaysAt k := by
    intro stays
    rw [(h.ended sound).2.mpr stays] at going
    cases going
  have limited : limit ≤ k := by
    apply Decidable.byContradiction
    intro short
    exact h.failed_iff.mpr ⟨short, unstayed⟩ sound
  have within := h.within
  exact ⟨sound, by omega⟩

/-- A run may be interrupted by a limit and continued, if nothing else has ended it. -/
theorem advance_add {run : HeadlessRun} (going : run.halted = false) (m n : Nat) :
    run.advance (m + n) =
      if (run.advance m).halted then run.advance m else (run.advance m).advance n := by
  induction m generalizing run with
  | zero => rw [Nat.zero_add, advance, going, if_neg Bool.false_ne_true]
  | succ m ih =>
    rw [Nat.succ_add, advance, advance]
    cases done : run.console.step.result with
    | error fault => rfl
    | ok op =>
      dsimp only
      by_cases back : run.console.step.state.machine.pc = op.addr
      · simp only [if_pos back, if_true]
      · simp only [if_neg back]
        exact ih going

/-- A program that is loaded is run from the console in which the keys are held. -/
theorem ofProgram_eq {program : List UInt8} {options : Options} {keys : List Int} {c : Console}
    (loaded : ((Console.ofOptions options).load program).result = .ok ())
    (held : ((Console.ofOptions options).load program).state.holdKeys keys = .ok c) (limit : Int) :
    ofProgram program options keys limit =
      .ok (({ console := c, events := ((Console.ofOptions options).load program).events.toArray } :
        HeadlessRun).advance limit.toNat) := by
  unfold ofProgram
  generalize (Console.ofOptions options).load program = image at loaded held
  simp only [loaded, held]

/-- A headless run takes the least number of steps at which something stops it, and a larger limit
only extends it. Whatever the limit is, the run comes to a result and has taken and counted `k` steps,
where `k` is least such that the limit is reached, or the last step has stayed on its own address, or
the next one fails. It ends by that failure if neither of the others holds, and is otherwise halted if
and only if the last step stayed in place. If a run is halted, every larger limit gives the same
result. If it is not, it has taken as many steps as it might, and a larger limit continues it by the
same rule from where it stood. -/
theorem takes_least (program : List UInt8) (options : Options) (keys : List Int)
    (fits : program.length ≤ 3584) (numbered : ∀ key ∈ keys, 0 ≤ key ∧ key < 16) :
    ∃ first : HeadlessRun,
      ((Console.ofOptions options).load program).state.holdKeys keys = .ok first.console ∧
        first.steps = 0 ∧ first.console.executed = 0 ∧
        ∀ limit : Int, ∃ run k, ofProgram program options keys limit = .ok run ∧
          first.Takes limit k run ∧ run.steps = k ∧ run.console.executed = k ∧
          ∀ later : Int, limit ≤ later → ∃ longer, ofProgram program options keys later = .ok longer ∧
            (run.halted = true → longer = run) ∧
            (run.halted = false → (run.steps : Int) = max 0 limit ∧
              longer = run.advance (later.toNat - limit.toNat) ∧
              ∃ j, run.Takes (max 0 later - max 0 limit) j longer) := by
  have loaded := Engine.load_ofOptions_of_fits options fits
  obtain ⟨c, held⟩ := ((Console.ofOptions options).load program).state.holdKeys_eq_ok numbered
  have fresh : c.executed = 0 := by
    rw [Console.holdKeys_eq held]
    exact Console.executed_load loaded
  obtain ⟨first, console, steps, halted, fault, ran⟩ : ∃ first : HeadlessRun, first.console = c ∧
      first.steps = 0 ∧ first.halted = false ∧ first.fault = none ∧
        ∀ limit, ofProgram program options keys limit = .ok (first.advance limit.toNat) :=
    ⟨_, rfl, rfl, rfl, rfl, ofProgram_eq loaded held⟩
  subst console
  refine ⟨first, held, steps, fresh, fun limit => ?_⟩
  obtain ⟨k, takes⟩ : ∃ k, first.Takes limit k (first.advance limit.toNat) :=
    (ends_advance halted fault limit.toNat).takes
  have taken : (first.advance limit.toNat).steps = k := by rw [takes.steps, steps, Nat.zero_add]
  have counted : (first.advance limit.toNat).console.executed = k := by
    rw [takes.executed, fresh, Nat.zero_add]
  refine ⟨_, k, ran limit, takes, taken, counted, fun later larger => ⟨_, ran later, ?_, ?_⟩⟩
  · intro ended
    have split : later.toNat = limit.toNat + (later.toNat - limit.toNat) := by omega
    rw [split, advance_add halted, if_pos ended]
  · intro going
    obtain ⟨sound, all⟩ := takes.of_going going
    have split : later.toNat = limit.toNat + (later.toNat - limit.toNat) := by omega
    have continued : first.advance later.toNat =
        (first.advance limit.toNat).advance (later.toNat - limit.toNat) := by
      rw [split, advance_add halted, going, if_neg Bool.false_ne_true, ← split]
    refine ⟨by rw [taken, all], continued, ?_⟩
    have left : later.toNat - limit.toNat = (max 0 later - max 0 limit).toNat := by omega
    rw [continued, left]
    exact (ends_advance going sound _).takes

/-- A program that counts once and then jumps to itself, cut off just when it jumps, has been halted by
the jump. No larger limit makes a difference. -/
theorem takes_least_of_last_jump :
    ∃ run, ofProgram [0x70, 0x01, 0x12, 0x02] {} [5] 2 = .ok run ∧ run.steps = 2 ∧
      run.halted = true ∧ run.fault = none ∧
      ofProgram [0x70, 0x01, 0x12, 0x02] {} [5] 100 = .ok run := by
  have seen : (ofProgram [0x70, 0x01, 0x12, 0x02] {} [5] 2).map
      (fun run => (run.halted, run.fault, run.steps)) = .ok (true, none, 2) := by decide +kernel
  obtain ⟨first, -, -, -, runs⟩ :=
    takes_least [0x70, 0x01, 0x12, 0x02] {} [5] (by decide) (by decide)
  obtain ⟨run, k, ran, -, -, -, further⟩ := runs 2
  obtain ⟨longer, ran', same, -⟩ := further 100 (by decide)
  rw [ran] at seen
  obtain ⟨halted, sound, steps⟩ : run.halted = true ∧ run.fault = none ∧ run.steps = 2 := by
    simpa [Except.map] using seen
  exact ⟨run, ran, steps, halted, sound, by rw [ran', same halted]⟩

end HeadlessRun

end ChipEight
