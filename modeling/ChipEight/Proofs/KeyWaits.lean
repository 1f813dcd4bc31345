import ChipEight.Proofs.ModeChanges
import ChipEight.Proofs.Resumption

/-!
# Waits for keys

A program that waits for a key loses none and invents none. Where the host neither holds the display
nor turns the pauses on, a thread that runs and rests is in a wait for a key, and no key is held
(`Engine.Unpaused` excludes the other reason to rest). The first key that is pressed then ends the
wait before anything else is executed, and is what the program gets; whatever else the host does to
keys or to the time leaves the wait as it is. While a key is held, a wait is over in the turn that
comes to it, and yields the lowest key: the same key may end many waits before the engine rests
again.

All of this is what the keypad says a wait comes to (`Keypad.wait`), carried over to the thread.
-/

namespace ChipEight

namespace Keypad

variable {k : Keypad} {key : Fin 16} {cancelled : Bool}

theorem isHeld_of_lt (k : Keypad) {n : Nat} (inside : n < 16) : k.isHeld n = k.held[n] := by
  have low : ((n : Int) % 16).toNat % 16 = n := by omega
  simp only [isHeld, Fin.getElem_fin, Fin.ofNat, low]

theorem lowest?_eq_some_iff :
    k.lowest? = some key ↔
      k.isHeld key.val = true ∧ ∀ other : Fin 16, other < key → k.isHeld other.val = false := by
  have places := fun place : Fin 16 => k.isHeld_of_lt place.isLt
  obtain ⟨⟨held, size⟩⟩ := k
  simp only [places, lowest?, Vector.findFinIdx?, Option.map_eq_some_iff,
    Array.findFinIdx?_eq_some_iff]
  constructor
  · rintro ⟨index, ⟨there, before⟩, rfl⟩
    refine ⟨there, fun other lower => ?_⟩
    simpa using before (other.cast size.symm) lower
  · rintro ⟨there, before⟩
    refine ⟨key.cast size.symm, ⟨there, fun other lower => ?_⟩, rfl⟩
    simpa using before (other.cast size) lower

theorem lowest?_eq_none_iff : k.lowest? = none ↔ ∀ key, k.isHeld key = false := by
  rw [lowest?, Vector.findFinIdx?_eq_none_iff]
  constructor
  · intro none key
    exact Bool.eq_false_iff.mpr (none _ (Vector.getElem_mem _))
  · intro released pressed mem
    obtain ⟨index, inside, rfl⟩ := Vector.mem_iff_getElem.mp mem
    have same := released index
    rw [k.isHeld_of_lt inside] at same
    exact Bool.eq_false_iff.mp same

/-- A wait yields the lowest key that is held, called off or not. -/
theorem wait_eq_pressed_iff :
    k.wait cancelled = .pressed key ↔
      k.isHeld key.val = true ∧ ∀ other : Fin 16, other < key → k.isHeld other.val = false := by
  rw [← lowest?_eq_some_iff, wait]
  cases k.lowest? with
  | some lowest => simp
  | none => cases cancelled <;> simp

/-- A wait ends without a key only if it is called off and no key is held. -/
theorem wait_eq_cancelled_iff :
    k.wait cancelled = .cancelled ↔ (∀ key, k.isHeld key = false) ∧ cancelled = true := by
  rw [← lowest?_eq_none_iff, wait]
  cases k.lowest? with
  | some lowest => simp
  | none => cases cancelled <;> simp

/-- A key that is pressed while no other is held is the one that is held. -/
theorem set_true_of_released (released : ∀ key, k.isHeld key = false) (key : Fin 16) :
    ∃ next, k.set key.val true = .ok next ∧
      ∀ other, next.isHeld other = decide (other % 16 = key.val) := by
  have there : 0 ≤ (key.val : Int) ∧ (key.val : Int) < 16 := by omega
  obtain ⟨next, set⟩ : ∃ next, k.set key.val true = .ok next := ⟨_, dif_pos there⟩
  refine ⟨next, set, fun other => ?_⟩
  rw [isHeld_set set, released]
  simp

/-- Releasing a key that is not held makes no difference. -/
theorem set_false_of_released (released : ∀ key, k.isHeld key = false) {key : Int} (low : 0 ≤ key)
    (high : key < 16) : k.set key false = .ok k := by
  have place : key.toNat < 16 := by omega
  have same : k.held[key.toNat] = false := by
    rw [← released key.toNat, k.isHeld_of_lt place]
  rw [set, dif_pos ⟨low, high⟩]
  simp [← same]

end Keypad

namespace Console

variable {c : Console} {op : Fetched} {x key : Fin 16}

/-- The console once a wait has been answered with a key: it is in the register, and the instruction
is counted. -/
def answered (c : Console) (x key : Fin 16) : Console :=
  { c with machine := c.machine.set x (UInt8.ofNat key), executed := c.executed + 1 }

theorem complete_of_lowest? (decoded : op.word.decode = .awaitKey x)
    (lowest : c.machine.keypad.lowest? = some key) :
    c.complete op = { state := c.answered x key, result := .ok op, events := [.keyAwaited] } := by
  have executed : c.machine.execute op =
      (c.machine.set x (UInt8.ofNat key)).fallThrough [.keyAwaited] := by
    simp only [Machine.execute, decoded, Machine.awaitKey, lowest]
  rw [complete, Machine.complete, executed]
  rfl

end Console

namespace Engine

variable {e next : Engine} {op : Fetched} {x key : Fin 16}

/-! ## Keys that are held -/

/-- The engine once the wait of its thread has been answered with a key. The thread is between two
instructions. -/
def answered (e : Engine) (x key : Fin 16) : Engine :=
  ({ e with console := e.console.answered x key, activity := .ready } : Engine).tell [.keyAwaited]

theorem complete_of_lowest? (decoded : op.word.decode = .awaitKey x)
    (lowest : e.console.machine.keypad.lowest? = some key) : e.complete op = e.answered x key := by
  rw [complete, Console.complete_of_lowest? decoded lowest, conclude_of_ok rfl]
  rfl

theorem keyHeld_of_lowest? (lowest : e.console.machine.keypad.lowest? = some key) :
    e.keyHeld = true := by
  rw [keyHeld, lowest]
  rfl

/-- A thread in a wait for a key does what the keypad says the wait comes to. -/
theorem turn_of_awaitingKey (doing : e.activity = .awaitingKey op)
    (decoded : op.word.decode = .awaitKey x) (polls : e.breaksOff = false) :
    e.turn =
      match e.console.machine.keypad.wait e.cancelled with
      | .pressed key => e.answered x key
      | .cancelled => ({ e with console := withdrawn e.console op, activity := .ready } :
          Engine).tell [.keyAwaited]
      | .pending => e := by
  rw [turn, doing, Keypad.wait]
  dsimp only
  cases lowest : e.console.machine.keypad.lowest? with
  | some key =>
    rw [keyHeld_of_lowest? lowest, Bool.true_or, if_pos rfl]
    exact complete_of_lowest? decoded lowest
  | none =>
    have released := keyHeld_eq_false_iff.mpr lowest
    rw [released, Bool.false_or]
    by_cases asked : e.cancelled = true
    · rw [if_pos asked, if_pos asked]
      exact complete_of_awaitKey (waitsForKey_iff.mpr ⟨x, decoded⟩) released
    · rw [if_neg asked, if_neg asked, polls, if_neg Bool.false_ne_true]

/-- A thread that comes to a wait while keys are held passes it, with the lowest key. -/
theorem turn_of_lowest? (ready : e.activity = .ready) (going : e.cancelled = false)
    (unpaused : e.pause = .nothing) (free : e.displayHeld = false)
    (fetched : e.console.machine.fetch = .ok op) (decoded : op.word.decode = .awaitKey x)
    (lowest : e.console.machine.keypad.lowest? = some key) : e.turn = e.pass.answered x key := by
  have unheld : e.pass.heldUp? op = none := heldUp?_of_free free op
  rw [turn_of_ready ready going unpaused, beginInstruction_of_fetch fetched,
    keyHeld_of_lowest? lowest, Bool.not_true, Bool.and_false, if_neg Bool.false_ne_true, unheld]
  exact complete_of_lowest? decoded lowest

/-! ## Threads that do not pause -/

/-- The pauses are off, and the thread is not in one. -/
structure Unpaused (e : Engine) : Prop where
  off : e.console.debugMode = false
  going : e.activity ≠ .paused

namespace Unpaused

theorem pause_eq (h : e.Unpaused) : e.pause = .nothing := by
  rw [pause, h.off, if_neg Bool.false_ne_true]

theorem conclude (h : e.Unpaused) {done : Effect Console (Except Fault Fetched)}
    (same : done.state.debugMode = e.console.debugMode) : (e.conclude done).Unpaused where
  off := by
    rw [Engine.conclude]
    split <;> exact same.trans h.off
  going := activity_conclude_ne e done Activity.noConfusion Activity.noConfusion

theorem turned (h : e.Unpaused) (turned : e.Turned next) : next.Unpaused := by
  cases turned with
  | ended | brokenOff | failed | awaited | heldUp => exact ⟨h.off, Activity.noConfusion⟩
  | paused unbounded =>
    rw [h.pause_eq] at unbounded
    cases unbounded
  | passed =>
    have passed : e.pass.Unpaused := ⟨h.off, h.going⟩
    exact passed.conclude rfl
  | completed | presented => exact h.conclude rfl

theorem turn (h : e.Unpaused) : e.turn.Unpaused := by
  cases resting : e.atRest with
  | true =>
    rw [turn_of_atRest resting]
    exact h
  | false => exact h.turned (turned_turn resting)

theorem wake (h : e.Unpaused) : e.wake.Unpaused := by
  rw [Engine.wake, if_neg fun pausing => h.going pausing.1]
  exact h

theorem settle_requestStop (h : e.Unpaused) (turns : Nat) :
    (e.requestStop.settle turns).Unpaused :=
  of_settle (fun _ h => h.turn) ⟨h.off, h.going⟩ turns

theorem stop (h : e.Unpaused) : e.stop.Unpaused := h.settle_requestStop 2

theorem stopAndWait (h : e.Unpaused) (turns : Nat) : (e.stopAndWait turns).1.Unpaused := by
  rcases stopAndWait_eq e turns with ⟨taken, same⟩ | same
  · rw [same]
    exact h.settle_requestStop taken
  · rw [same]
    exact ⟨h.stop.off, h.stop.going⟩

theorem start (h : e.Unpaused) : e.start.1.Unpaused := by
  apply of_start h
  intro _ _
  exact ⟨h.off, Activity.noConfusion⟩

theorem load (h : e.Unpaused) (program : List UInt8) (turns : Nat) :
    (e.load program turns).1.Unpaused := by
  apply of_load (h.stopAndWait turns)
  intro _ loaded
  exact ⟨(Console.loaded_load loaded).2.trans h.stop.off, h.stop.going⟩

theorem restart (h : e.Unpaused) (turns : Nat) : (e.restart turns).1.Unpaused := by
  apply of_restart h (h.stopAndWait turns)
  intro _
  have renewed : e.stop.renewed.Unpaused := ⟨h.stop.off, h.stop.going⟩
  exact renewed.start

theorem act (h : e.Unpaused) (action : Console.Action) : (e.act action).1.Unpaused := by
  have same : (e.console.act action).state.debugMode = e.console.debugMode :=
    congrArg (fun c => c.debugMode) (e.console.act_eq action)
  exact of_act h (fun _ _ => ⟨h.off, h.going⟩) fun _ => ⟨same.trans h.off, h.going⟩

end Unpaused

/-- The operations in which the host neither takes hold of the display nor turns the pauses on. -/
def Operation.unobtrusive : Operation → Bool
  | .holdDisplay => false
  | .setDebugMode enabled => !enabled
  | _ => true

/-- Nothing but keys can keep the thread waiting. -/
structure Undisturbed (e : Engine) : Prop extends e.Unhindered, e.Unpaused

theorem Undisturbed.perform (h : e.Undisturbed) {operation : Operation}
    (unobtrusive : operation.unobtrusive = true) : (e.perform operation).Undisturbed := by
  have free := h.toUnhindered
  have unpaused := h.toUnpaused
  cases operation with
  | load program turns => exact ⟨free.load program turns, unpaused.load program turns⟩
  | start => exact ⟨free.start, unpaused.start⟩
  | requestStop => exact ⟨free.requestStop, ⟨unpaused.off, unpaused.going⟩⟩
  | stopAndWait turns => exact ⟨free.stopAndWait turns, unpaused.stopAndWait turns⟩
  | restart turns => exact ⟨free.restart turns, unpaused.restart turns⟩
  | act action =>
    have hosted : (Operation.act action).hosted = true := rfl
    exact ⟨free.perform hosted, unpaused.act action⟩
  | setDebugMode enabled =>
    cases enabled with
    | false => exact ⟨⟨free.free, free.away⟩, ⟨rfl, unpaused.going⟩⟩
    | true => cases unobtrusive
  | holdDisplay => cases unobtrusive
  | releaseDisplay => exact ⟨⟨rfl, free.away⟩, ⟨unpaused.off, unpaused.going⟩⟩
  | observe | addListener => exact ⟨⟨free.free, free.away⟩, ⟨unpaused.off, unpaused.going⟩⟩
  | turn => exact ⟨free.turn, unpaused.turn⟩
  | wake => exact ⟨free.wake, unpaused.wake⟩

theorem Undisturbed.run (h : e.Undisturbed) {history : List Operation}
    (unobtrusive : ∀ operation ∈ history, operation.unobtrusive = true) :
    (e.run history).Undisturbed :=
  List.foldlRecOn history Engine.perform h fun _ undisturbed operation mem =>
    undisturbed.perform (unobtrusive operation mem)

theorem undisturbed_ofOptions {options : Options} (off : options.debugMode = false) :
    (ofOptions options).Undisturbed where
  free := rfl
  away := fun _ _ => Activity.noConfusion
  off := off
  going := Activity.noConfusion

/-! ## Rest -/

/-- The engine waits for a key to put into a register, and goes on waiting until one is pressed. -/
structure Expects (e : Engine) (x : Fin 16) : Prop where
  released : ∀ key, e.console.machine.keypad.isHeld key = false
  word : ∃ word, e.console.machine.memory.fetch (e.console.machine.pc - 2) = .ok word ∧
    word.family = 0xF ∧ word.kk = 0x0A ∧ word.x = x
  pressed : ∀ key : Fin 16, ∃ keypad : Keypad,
    (∀ other, keypad.isHeld other = decide (other % 16 = key.val)) ∧
      e.setKey key.val true = (e.withKeys keypad, .ok ()) ∧
      (e.withKeys keypad).atRest = false ∧
      (e.withKeys keypad).turn = (e.withKeys keypad).answered x key
  lifted : ∀ key, 0 ≤ key → key < 16 → e.setKey key false = (e, .ok ())
  refused : ∀ key, ¬ (0 ≤ key ∧ key < 16) → ∀ pressed, e.setKey key pressed = (e, .error ⟨key⟩)
  timed : ∀ elapsed, (e.update elapsed).1.atRest = true ∧ ∃ clock meter timers told,
    (told = [] ∨ told = [.beeped]) ∧
      (e.update elapsed).1 =
        ({ e with console :=
          { e.console with clock, meter, machine := { e.console.machine with timers } } } :
            Engine).tell told

/-- Time that passes changes timers and meters, and at most a beep is told of it. -/
theorem update_eq (e : Engine) (elapsed : Int) :
    ∃ clock meter timers told, (told = [] ∨ told = [.beeped]) ∧
      (e.update elapsed).1 =
        ({ e with console :=
          { e.console with clock, meter, machine := { e.console.machine with timers } } } :
            Engine).tell told := by
  rw [update, Console.update]
  generalize e.console.clock.pass e.console.machine.timers elapsed = passage
  cases ticks : passage.ticks with
  | error refusal =>
    exact ⟨passage.clock, e.console.meter, passage.timers, [], .inl rfl, rfl⟩
  | ok count =>
    refine ⟨passage.clock, _, passage.timers, _, ?_, rfl⟩
    cases passage.beeped with
    | true => exact .inr rfl
    | false => exact .inl rfl

namespace Awaits

/-- A key that is held ends the wait. -/
theorem turn_withKeys (h : e.Awaits op) (decoded : op.word.decode = .awaitKey x) {keypad : Keypad}
    (lowest : keypad.lowest? = some key) :
    (e.withKeys keypad).atRest = false ∧
      (e.withKeys keypad).turn = (e.withKeys keypad).answered x key := by
  have held : (e.withKeys keypad).keyHeld = true := keyHeld_of_lowest? lowest
  have waits := h.withKeys keypad
  constructor
  · rw [← Bool.not_eq_true, waits.atRest_iff, held]
    exact Bool.noConfusion
  · have keys : (e.withKeys keypad).console.machine.keypad.lowest? = some key := lowest
    rw [turn_of_awaitingKey waits.doing decoded waits.polls, Keypad.wait, keys]

theorem expects (h : e.Awaits op) (resting : e.atRest = true) : e.Expects op.word.x := by
  obtain ⟨x, decoded⟩ := waitsForKey_iff.mp h.waiting
  cases Word.decode_eq_iff.mp decoded with
  | awaitKey family low =>
    have released := Keypad.lowest?_eq_none_iff.mp
      (keyHeld_eq_false_iff.mp (h.atRest_iff.mp resting))
    have before : e.console.machine.pc - 2 = op.addr := by
      rw [h.passed]
      omega
    refine ⟨released, ⟨op.word, before ▸ h.stands, family, low, rfl⟩, fun key => ?_, ?_, ?_, ?_⟩
    · -- the key that is pressed is the only one, and so the lowest
      obtain ⟨keypad, set, held⟩ := Keypad.set_true_of_released released key
      have lowest : keypad.lowest? = some key :=
        Keypad.lowest?_eq_some_iff.mpr
          ⟨by simp only [held, decide_eq_true_eq]; omega, fun other lower => by
            simp only [held, decide_eq_false_iff_not]; omega⟩
      exact ⟨keypad, held, setKey_of_set set, h.turn_withKeys decoded lowest⟩
    · intro key low high
      exact setKey_of_set (Keypad.set_false_of_released released low high)
    · intro key outside pressed
      exact setKey_of_refused (dif_neg outside)
    · intro elapsed
      have timed := update_eq e elapsed
      refine ⟨?_, timed⟩
      obtain ⟨clock, meter, timers, told, -, same⟩ := timed
      rw [same]
      exact resting

end Awaits

/-- A thread that runs and rests is in a wait for a key. -/
theorem Undisturbed.awaits (h : e.Undisturbed) {options : Options} (formed : e.WellFormed options)
    (coherent : e.Coherent) (suspended : e.Suspended) (running : e.phase = .running)
    (resting : e.atRest = true) : ∃ op, e.Awaits op := by
  have runs := coherent.runs running
  -- every other activity is not at rest, not running, or excluded by what the host leaves alone
  cases doing : e.activity with
  | awaitingKey op =>
    obtain ⟨waiting, stands⟩ := suspended.awaited op doing
    obtain ⟨low, high, passed⟩ := formed.awaited op doing
    have free := h.free
    have unpaused := h.off
    have polls : e.breaksOff = false := breaksOff_of_atRest doing resting
    exact ⟨op, { runs with doing, waiting, stands, low, high, passed, free, polls, unpaused }⟩
  | ended =>
    rw [coherent.ended_iff.mp doing] at running
    cases running
  | ready =>
    rw [atRest_of_ready doing] at resting
    cases resting
  | paused => exact absurd doing h.going
  | atDisplay op request => exact absurd doing (h.away op request)

/-- Waits for keys lose no key and invent none. Whatever a host does that neither holds the display nor
turns the pauses on, an engine that runs and rests is in a wait for a key, with all keys released, and
the first key that is pressed completes the wait before anything else is executed. An instruction that
waits for a key while keys are held puts the lowest of them into its register at once, and the thread
does not rest. And whatever keys are held, a wait for a key yields the lowest, called off or not, and
yields none only if it is called off and no key is held. -/
theorem key_waits (options : Options) (off : options.debugMode = false) (history : List Operation)
    (unobtrusive : ∀ operation ∈ history, operation.unobtrusive = true) :
    let e := (ofOptions options).run history
    (e.phase = .running → e.atRest = true → ∃ x, e.Expects x) ∧
      (∀ op, e.console.machine.fetch = .ok op → op.word.family = 0xF → op.word.kk = 0x0A →
        (∃ key, e.console.machine.keypad.isHeld key = true) →
          ∃ key : Fin 16, e.console.machine.keypad.isHeld key.val = true ∧
            (∀ other < key, e.console.machine.keypad.isHeld other.val = false) ∧
            e.console.step =
              { state := e.pass.console.answered op.word.x key
                result := .ok op
                events := [.keyAwaited] } ∧
            (e.activity = .ready → e.cancelled = false →
              e.turn = e.pass.answered op.word.x key ∧ e.turn.atRest = false)) ∧
      ∀ (keypad : Keypad) (cancelled : Bool),
        (∀ key : Fin 16, keypad.wait cancelled = .pressed key ↔
          keypad.isHeld key.val = true ∧ ∀ other < key, keypad.isHeld other.val = false) ∧
          (keypad.wait cancelled = .cancelled ↔
            (∀ key, keypad.isHeld key = false) ∧ cancelled = true) := by
  intro e
  have undisturbed : e.Undisturbed := (undisturbed_ofOptions off).run unobtrusive
  refine ⟨fun running resting => ?_, fun op fetched family low held => ?_,
    fun keypad cancelled => ⟨fun key => Keypad.wait_eq_pressed_iff, Keypad.wait_eq_cancelled_iff⟩⟩
  · obtain ⟨op, awaits⟩ := undisturbed.awaits (wellFormed_run options history)
      (coherent_run options history) (suspended_run options history) running resting
    exact ⟨op.word.x, awaits.expects resting⟩
  · have decoded := Word.decode_eq_iff.mpr (.awaitKey family low)
    obtain ⟨key, lowest⟩ : ∃ key, e.console.machine.keypad.lowest? = some key := by
      rw [← Option.ne_none_iff_exists', Ne, Keypad.lowest?_eq_none_iff]
      intro released
      obtain ⟨key, pressed⟩ := held
      rw [released] at pressed
      cases pressed
    obtain ⟨pressed, least⟩ := Keypad.lowest?_eq_some_iff.mp lowest
    refine ⟨key, pressed, least, ?_, fun ready going => ?_⟩
    · rw [Console.step_of_fetch fetched]
      exact Console.complete_of_lowest? decoded lowest
    · rw [turn_of_lowest? ready going undisturbed.pause_eq undisturbed.free fetched decoded lowest]
      exact ⟨rfl, rfl⟩

/-- A program that waits twice gets the key that is pressed both times. -/
theorem key_waits_of_two_waits :
    let e := (ofOptions {}).run [.load [0xF3, 0x0A, 0xF4, 0x0A], .start, .turn]
    let again := (ofOptions {}).run
      [.load [0xF3, 0x0A, 0xF4, 0x0A], .start, .turn, .act (.setKey 11 true), .turn]
    e.phase = .running ∧ e.atRest = true ∧ (∃ x, e.Expects x) ∧
      again.turn = again.pass.answered 4 11 := by
  intro e again
  have running : e.phase = .running := by decide +kernel
  have resting : e.atRest = true := by decide +kernel
  obtain ⟨rests, -⟩ :=
    key_waits {} rfl [.load [0xF3, 0x0A, 0xF4, 0x0A], .start, .turn] (by decide)
  obtain ⟨-, reached, -⟩ := key_waits {} rfl
    [.load [0xF3, 0x0A, 0xF4, 0x0A], .start, .turn, .act (.setKey 11 true), .turn] (by decide)
  obtain ⟨key, down, least, -, turned⟩ := reached ⟨0x202, .ofBytes 0xF4 0x0A⟩ (by decide +kernel)
    (by decide +kernel) (by decide +kernel) ⟨11, by decide +kernel⟩
  have lowest := Keypad.lowest?_eq_some_iff.mpr ⟨down, least⟩
  have same : key = 11 := Option.some.inj (lowest.symm.trans (by decide +kernel))
  subst same
  exact ⟨running, resting, rests running resting, (turned (by decide +kernel) (by decide +kernel)).1⟩

end Engine

end ChipEight
