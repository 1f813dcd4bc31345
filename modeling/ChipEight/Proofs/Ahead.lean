import ChipEight.Proofs.Conversation

/-!
# Engines that differ by what they counted

Nothing that an engine does depends on the number of instructions it has executed. The number is
shown, it goes into the rate and into what is told at the end of a thread, and that is all. So two
engines that are equal but for this number stay so whatever is done with both
(`Engine.AheadBy.run`): they compute the same, tell their listeners the same and answer the same
(`Engine.AheadBy.ask`). They stay equally far apart until both are reset, which makes them equal.
-/

namespace ChipEight

namespace Console

variable {extra : Nat} {c d : Console}

/-- The second console is the first one, except that it has counted some more instructions and may
show another rate. -/
structure AheadBy (extra : Nat) (c d : Console) : Prop where
  machine : d.machine = c.machine
  options : d.options = c.options
  debugMode : d.debugMode = c.debugMode
  clock : d.clock = c.clock
  fault : d.fault = c.fault
  loaded : d.loaded = c.loaded
  executed : d.executed = c.executed + extra

/-- The same was done with two consoles of which one is ahead: it is ahead still, and the same was
answered and told. -/
structure Follows {α : Type} (extra : Nat) (done done' : Effect Console α) : Prop where
  state : done.state.AheadBy extra done'.state
  result : done'.result = done.result
  events : done'.events = done.events

namespace AheadBy

/-- The same machine for both. -/
theorem setMachine (h : c.AheadBy extra d) {m n : Machine} (same : n = m) :
    ({ c with machine := m } : Console).AheadBy extra { d with machine := n } :=
  { h with machine := same }

theorem afterInstruction (h : c.AheadBy extra d)
    (done : Effect Machine (Except Fault Fetched)) :
    Follows extra (c.afterInstruction done) (d.afterInstruction done) where
  state := by
    refine { h with machine := rfl, executed := ?_ }
    cases result : done.result with
    | error =>
      simp only [Console.afterInstruction, result]
      exact h.executed
    | ok =>
      simp only [Console.afterInstruction, result, h.executed]
      omega
  result := rfl
  events := rfl

theorem complete (h : c.AheadBy extra d) (op : Fetched) :
    Follows extra (c.complete op) (d.complete op) := by
  rw [Console.complete, Console.complete, h.machine]
  exact h.afterInstruction _

theorem present (h : c.AheadBy extra d) (op : Fetched) (request : Display.Request) :
    Follows extra (c.present op request) (d.present op request) := by
  rw [Console.present, Console.present, h.machine]
  exact h.afterInstruction _

theorem step (h : c.AheadBy extra d) : Follows extra c.step d.step := by
  rw [Console.step, Console.step, h.machine]
  exact h.afterInstruction _

/-- The rates need not be the same, so that one may be reported and the other not. -/
theorem update (h : c.AheadBy extra d) (elapsed : Int) :
    (c.update elapsed).state.AheadBy extra (d.update elapsed).state ∧
      (d.update elapsed).events = (c.update elapsed).events := by
  have passage : d.clock.pass d.machine.timers elapsed = c.clock.pass c.machine.timers elapsed := by
    rw [h.clock, h.machine]
  rw [Console.update, Console.update, passage, h.machine]
  dsimp only
  split
  · exact ⟨{ h with machine := rfl, clock := rfl }, rfl⟩
  · exact ⟨{ h with machine := rfl, clock := rfl }, rfl⟩

/-- Both rates are reported if the counts are small. -/
theorem result_update (h : c.AheadBy extra d) (formed : c.WellFormed) (formed' : d.WellFormed)
    (small : d.executed < 2 ^ 1023) (elapsed : Int) :
    (d.update elapsed).result = (c.update elapsed).result := by
  have least : c.executed < 2 ^ 1023 :=
    Nat.lt_of_le_of_lt (Nat.le_add_right _ extra) (h.executed ▸ small)
  rw [Console.update, Console.update, h.clock, h.machine]
  dsimp only
  split
  · rfl
  · dsimp only
    rw [formed.meter.reports least, formed'.meter.reports small]

theorem act (h : c.AheadBy extra d) (action : Action) :
    (c.act action).state.AheadBy extra (d.act action).state ∧
      (d.act action).events = (c.act action).events := by
  cases action with
  | step =>
    obtain ⟨state, -, events⟩ := h.step
    exact ⟨state, events⟩
  | update elapsed => exact h.update elapsed
  | setKey key pressed =>
    simp only [Console.act, Console.setKey, h.machine]
    cases c.machine.keypad.set key pressed with
    | error refusal => exact ⟨h, rfl⟩
    | ok keypad => exact ⟨h.setMachine rfl, rfl⟩

/-- A reset brings the counts together. -/
theorem reset (h : c.AheadBy extra d) : Follows 0 c.reset d.reset := by
  rw [Console.reset, Console.reset, h.machine, h.clock]
  exact ⟨{ h with machine := rfl, clock := rfl, fault := rfl, executed := rfl }, rfl, rfl⟩

/-- A load brings the counts together if it succeeds, and otherwise leaves them as they are. -/
theorem load (h : c.AheadBy extra d) (program : List UInt8) :
    Follows (if (c.load program).result = .ok () then 0 else extra) (c.load program)
      (d.load program) := by
  rw [Console.load, Console.load, h.machine]
  cases c.machine.memory.load program with
  | error fault =>
    rw [if_neg (by rintro ⟨⟩)]
    exact ⟨h, rfl, rfl⟩
  | ok memory =>
    rw [if_pos rfl]
    have image : ({ c with machine := { c.machine with memory }, loaded := true } :
        Console).AheadBy extra { d with machine := { c.machine with memory }, loaded := true } :=
      { h with machine := rfl, loaded := rfl }
    obtain ⟨state, -, events⟩ := image.reset
    exact ⟨state, rfl, congrArg (· ++ [Event.programLoaded program.length]) events⟩

end AheadBy

end Console

/-- What the callbacks of a host are told: the beep, and the mode of the display. -/
def Event.isHeard : Event → Bool
  | .beeped => true
  | .listenerTold _ _ => true
  | _ => false

namespace Engine

variable {extra : Nat} {e f : Engine}

/-- What the callbacks of the host were told so far. -/
def heard (e : Engine) : List Event := e.journal.toList.filter Event.isHeard

theorem heard_tell (e : Engine) (events : List Event) :
    (e.tell events).heard = e.heard ++ events.filter Event.isHeard := by
  rw [heard, tell, Array.toList_appendList, List.filter_append, heard]

/-- The beeps are heard. -/
theorem beeps_eq (e : Engine) : e.beeps = e.heard.count .beeped := by
  rw [heard, List.count_filter rfl, beeps, Array.count_toList]

/-- The modes of the display are heard. -/
theorem modesTold_eq (e : Engine) (listener : Text) :
    e.modesTold listener = e.heard.filterMap fun
      | .listenerTold name mode => if name = listener then some mode else none
      | _ => none := by
  rw [heard, List.filterMap_filter, modesTold]
  congr 1
  funext event
  cases event <;> simp [Event.isHeard]

/-- The second engine is the first one, except that it has counted some more instructions, may show
another rate, and has told other things that are not heard. -/
structure AheadBy (extra : Nat) (e f : Engine) : Prop where
  console : e.console.AheadBy extra f.console
  phase : f.phase = e.phase
  cancelled : f.cancelled = e.cancelled
  activity : f.activity = e.activity
  hasRun : f.hasRun = e.hasRun
  displayHeld : f.displayHeld = e.displayHeld
  abandoned : f.abandoned = e.abandoned
  endSeen : f.endSeen = e.endSeen
  heard : f.heard = e.heard

/-- The same engine with some more instructions counted. -/
def credit (e : Engine) (extra : Nat) : Engine :=
  { e with console := { e.console with executed := e.console.executed + extra } }

theorem aheadBy_credit (e : Engine) (extra : Nat) {told : List Event}
    (unheard : told.filter Event.isHeard = []) : e.AheadBy extra ((e.credit extra).tell told) where
  console := ⟨rfl, rfl, rfl, rfl, rfl, rfl, rfl⟩
  phase := rfl
  cancelled := rfl
  activity := rfl
  hasRun := rfl
  displayHeld := rfl
  abandoned := rfl
  endSeen := rfl
  heard := by
    rw [heard_tell, unheard, List.append_nil]
    rfl

namespace AheadBy

/-- Hosts are told of the same beeps. -/
theorem beeps (h : e.AheadBy extra f) : f.beeps = e.beeps := by
  rw [beeps_eq, beeps_eq, h.heard]

/-- Listeners are told the same modes. -/
theorem modesTold (h : e.AheadBy extra f) (listener : Text) :
    f.modesTold listener = e.modesTold listener := by
  rw [modesTold_eq, modesTold_eq, h.heard]

theorem tell (h : e.AheadBy extra f) {events events' : List Event}
    (same : events'.filter Event.isHeard = events.filter Event.isHeard) :
    (e.tell events).AheadBy extra (f.tell events') :=
  { h with heard := by rw [heard_tell, heard_tell, h.heard, same] }

theorem setConsole (h : e.AheadBy extra f) {more : Nat} {c d : Console}
    (console : c.AheadBy more d) :
    ({ e with console := c } : Engine).AheadBy more { f with console := d } :=
  { h with console }

/-- The same was done with both consoles. -/
theorem take (h : e.AheadBy extra f) {α : Type} {more : Nat} {done done' : Effect Console α}
    (state : done.state.AheadBy more done'.state) (events : done'.events = done.events) :
    (({ e with console := done.state } : Engine).tell done.events).AheadBy more
      (({ f with console := done'.state } : Engine).tell done'.events) :=
  (h.setConsole state).tell (by rw [events])

theorem doing (h : e.AheadBy extra f) (activity : Activity) :
    ({ e with activity } : Engine).AheadBy extra { f with activity } :=
  { h with activity := rfl }

/-! ## The thread -/

theorem keyHeld (h : e.AheadBy extra f) : f.keyHeld = e.keyHeld := by
  rw [Engine.keyHeld, h.console.machine, Engine.keyHeld]

theorem breaksOff (h : e.AheadBy extra f) : f.breaksOff = e.breaksOff := by
  rw [Engine.breaksOff, Engine.breaksOff, h.console.options]

theorem atRest (h : e.AheadBy extra f) : f.atRest = e.atRest := by
  simp only [Engine.atRest, h.activity, h.keyHeld, h.cancelled, h.displayHeld, h.breaksOff]

theorem finish (h : e.AheadBy extra f) : e.finish.AheadBy extra f.finish :=
  tell (e := { e with phase := .stopped, activity := .ended })
    (f := { f with phase := .stopped, activity := .ended })
    { h with phase := rfl, activity := rfl } rfl

theorem halt (h : e.AheadBy extra f) (fault : Fault) :
    (e.halt fault).AheadBy extra (f.halt fault) := by
  have recorded : ({ e.console with fault := some fault } : Console).AheadBy extra
      { f.console with fault := some fault } := { h.console with fault := rfl }
  exact ((h.setConsole recorded).tell rfl).finish

theorem conclude (h : e.AheadBy extra f) {done done' : Effect Console (Except Fault Fetched)}
    (follows : Console.Follows extra done done') :
    (e.conclude done).AheadBy extra (f.conclude done') := by
  have taken := (h.doing .ready).take follows.state follows.events
  rw [Engine.conclude, Engine.conclude, follows.result]
  split
  · exact taken
  · exact taken.halt _

theorem complete (h : e.AheadBy extra f) (op : Fetched) :
    (e.complete op).AheadBy extra (f.complete op) :=
  h.conclude (h.console.complete op)

theorem present (h : e.AheadBy extra f) (op : Fetched) (request : Display.Request) :
    (e.present op request).AheadBy extra (f.present op request) :=
  h.conclude (h.console.present op request)

theorem pass (h : e.AheadBy extra f) : e.pass.AheadBy extra f.pass :=
  h.setConsole (h.console.setMachine (by rw [h.console.machine]))

theorem beginInstruction (h : e.AheadBy extra f) :
    e.beginInstruction.AheadBy extra f.beginInstruction := by
  have same : f.console.machine.fetch = e.console.machine.fetch := by rw [h.console.machine]
  cases fetched : e.console.machine.fetch with
  | error fault =>
    rw [Engine.beginInstruction, Engine.beginInstruction, same, fetched]
    exact h.halt fault
  | ok op =>
    have asked : f.pass.heldUp? op = e.pass.heldUp? op := by
      rw [heldUp?, heldUp?, h.pass.displayHeld, h.pass.console.machine]
    rw [beginInstruction_of_fetch fetched, beginInstruction_of_fetch (same.trans fetched),
      h.keyHeld, asked]
    split
    · exact h.pass.doing _
    · split
      · exact h.pass.doing _
      · exact h.pass.complete op

theorem proceed (h : e.AheadBy extra f) : e.proceed.AheadBy extra f.proceed := by
  have pauses : f.pause = e.pause := by
    rw [Engine.pause, Engine.pause, h.console.debugMode, h.console.options]
  rw [Engine.proceed, Engine.proceed, h.cancelled, pauses]
  split
  · exact h.finish
  · split
    · exact { h.doing .paused with cancelled := rfl }
    · exact h.finish
    · exact h.beginInstruction
    · exact h.beginInstruction

theorem turn (h : e.AheadBy extra f) : e.turn.AheadBy extra f.turn := by
  rw [Engine.turn, Engine.turn, h.activity, h.cancelled, h.keyHeld, h.displayHeld, h.breaksOff]
  split
  · exact h
  · exact h.proceed
  · split
    · exact h.finish
    · exact h
  · split
    · exact h.complete _
    · split
      · exact (h.tell rfl).finish
      · exact h
  · split
    · exact h
    · exact h.present _ _

theorem wake (h : e.AheadBy extra f) : e.wake.AheadBy extra f.wake := by
  rw [Engine.wake, Engine.wake, h.activity, h.cancelled]
  split
  · exact h.beginInstruction
  · exact h

theorem settle (h : e.AheadBy extra f) (turns : Nat) :
    (e.settle turns).AheadBy extra (f.settle turns) := by
  induction turns generalizing e f with
  | zero => exact h
  | succ turns ih =>
    rw [Engine.settle, Engine.settle, h.atRest]
    split
    · exact h
    · exact ih h.turn

/-! ## The host -/

theorem requestStop (h : e.AheadBy extra f) : e.requestStop.AheadBy extra f.requestStop :=
  { h with
    cancelled := rfl
    phase := by rw [Engine.requestStop, Engine.requestStop, h.phase] }

theorem stop (h : e.AheadBy extra f) : e.stop.AheadBy extra f.stop := h.requestStop.settle 2

theorem join (h : e.AheadBy extra f) : f.join = e.join := by
  rw [Engine.join, Engine.join, h.abandoned, h.activity]

theorem abandon (h : e.AheadBy extra f) : e.abandon.AheadBy extra f.abandon :=
  { h with abandoned := rfl }

theorem observe (h : e.AheadBy extra f) : e.observe.AheadBy extra f.observe :=
  { h with endSeen := by rw [Engine.observe, Engine.observe, h.endSeen, h.activity] }

theorem stuckFault (h : e.AheadBy extra f) : f.stuckFault = e.stuckFault := by
  rw [Engine.stuckFault, Engine.stuckFault, h.console.options, h.console.machine]

theorem stopAndWait (h : e.AheadBy extra f) (turns : Nat) :
    (f.stopAndWait turns).2 = (e.stopAndWait turns).2 ∧
      (e.stopAndWait turns).1.AheadBy extra (f.stopAndWait turns).1 := by
  have dismissed : f.dismissed = e.dismissed := by
    rw [Engine.dismissed, Engine.dismissed, h.abandoned, h.endSeen, h.activity]
  have awaited : f.turnsAwaited turns = e.turnsAwaited turns := by
    rw [turnsAwaited, turnsAwaited, h.console.options]
  have later := h.requestStop.settle (e.turnsAwaited turns)
  rw [Engine.stopAndWait, Engine.stopAndWait, dismissed, awaited, h.console.options, h.activity]
  split
  · exact ⟨rfl, h.stop⟩
  · split
    · dsimp only
      rw [later.activity, later.stuckFault]
      split <;> exact ⟨rfl, later⟩
    · refine ⟨rfl, ?_⟩
      dsimp only
      split
      · exact h.stop
      · exact h.stop.abandon

theorem begun (h : e.AheadBy extra f) : e.begun.AheadBy extra f.begun :=
  tell (e := { e with
      cancelled := false, phase := .running, activity := .ready, abandoned := false
      endSeen := false, hasRun := true })
    (f := { f with
      cancelled := false, phase := .running, activity := .ready, abandoned := false
      endSeen := false, hasRun := true })
    { h with
      cancelled := rfl, phase := rfl, activity := rfl, abandoned := rfl, endSeen := rfl
      hasRun := rfl } rfl

theorem start (h : e.AheadBy extra f) :
    f.start.2 = e.start.2 ∧ e.start.1.AheadBy extra f.start.1 := by
  rw [Engine.start, Engine.start, h.console.loaded, h.phase, h.join]
  split
  · exact ⟨rfl, h⟩
  · split
    · exact ⟨rfl, h⟩
    · exact ⟨rfl, h.begun⟩

theorem load (h : e.AheadBy extra f) (program : List UInt8) (turns : Nat) :
    (f.load program turns).2 = (e.load program turns).2 ∧
      ∃ more, (e.load program turns).1.AheadBy more (f.load program turns).1 := by
  have waited := h.stopAndWait turns
  rw [Engine.load, Engine.load]
  generalize e.stopAndWait turns = stopped, f.stopAndWait turns = stopped' at waited
  obtain ⟨stopped, answer⟩ := stopped
  obtain ⟨stopped', answer'⟩ := stopped'
  obtain ⟨rfl, ahead⟩ : answer' = answer ∧ stopped.AheadBy extra stopped' := waited
  cases answer' with
  | error failure => exact ⟨rfl, extra, ahead⟩
  | ok =>
    have follows := ahead.console.load program
    dsimp only
    rw [follows.result]
    cases result : (stopped.console.load program).result with
    | error fault => exact ⟨rfl, extra, ahead⟩
    | ok =>
      rw [result, if_pos rfl] at follows
      exact ⟨rfl, 0, { ahead.take follows.state follows.events with hasRun := rfl }⟩

theorem restart (h : e.AheadBy extra f) (turns : Nat) :
    (f.restart turns).2 = (e.restart turns).2 ∧
      ∃ more, (e.restart turns).1.AheadBy more (f.restart turns).1 := by
  have waited := h.stopAndWait turns
  rw [Engine.restart, Engine.restart, h.hasRun]
  generalize e.stopAndWait turns = stopped, f.stopAndWait turns = stopped' at waited
  obtain ⟨stopped, answer⟩ := stopped
  obtain ⟨stopped', answer'⟩ := stopped'
  obtain ⟨rfl, ahead⟩ : answer' = answer ∧ stopped.AheadBy extra stopped' := waited
  split
  · exact ⟨rfl, extra, h⟩
  · cases answer' with
    | error failure => exact ⟨rfl, extra, ahead⟩
    | ok =>
      have follows := ahead.console.reset
      have fresh : stopped.renewed.AheadBy 0 stopped'.renewed :=
        (ahead.setConsole follows.state).tell (by rw [follows.events])
      obtain ⟨said, began⟩ := fresh.start
      exact ⟨congrArg (Except.mapError Failure.fault) said, 0, began⟩

theorem act (h : e.AheadBy extra f) (action : Console.Action) :
    (e.act action).1.AheadBy extra (f.act action).1 := by
  have waiting : f.waits = e.waits := by
    rw [waits, waits, h.console.machine, h.keyHeld, h.cancelled]
  have withheld : f.withholds action = e.withholds action := by
    cases action with
    | step => rw [withholds, withholds, h.activity, waiting, h.breaksOff]
    | update | setKey => rfl
  have broken : f.breaksOffAt action = e.breaksOffAt action := by
    cases action with
    | step => rw [breaksOffAt, breaksOffAt, waiting, h.breaksOff]
    | update | setKey => rfl
  obtain ⟨state, events⟩ := h.console.act action
  rw [Engine.act, Engine.act, withheld, broken]
  split
  · exact h
  · split
    · exact h.pass.tell rfl
    · exact h.take state events

theorem setDebugMode (h : e.AheadBy extra f) (enabled : Bool) :
    (e.setDebugMode enabled).AheadBy extra (f.setDebugMode enabled) :=
  h.setConsole (c := e.console.setDebugMode enabled) (d := f.console.setDebugMode enabled)
    { h.console with debugMode := rfl }

theorem addListener (h : e.AheadBy extra f) (name : Text) :
    (e.addListener name).AheadBy extra (f.addListener name) := by
  rw [Engine.addListener, Engine.addListener, h.console.machine]
  exact h.setConsole (h.console.setMachine rfl)

end AheadBy

/-- The operations that may reset the count of instructions. -/
def Operation.resets : Operation → Bool
  | .load _ _ => true
  | .restart _ => true
  | _ => false

namespace AheadBy

/-- An operation keeps an engine as far ahead as it was, unless both are reset. -/
theorem perform (h : e.AheadBy extra f) (operation : Operation) :
    ∃ more, (operation.resets = false → more = extra) ∧
      (e.perform operation).AheadBy more (f.perform operation) := by
  cases operation with
  | load program turns =>
    obtain ⟨-, more, ahead⟩ := h.load program turns
    exact ⟨more, Bool.noConfusion, ahead⟩
  | restart turns =>
    obtain ⟨-, more, ahead⟩ := h.restart turns
    exact ⟨more, Bool.noConfusion, ahead⟩
  | start => exact ⟨extra, fun _ => rfl, h.start.2⟩
  | requestStop => exact ⟨extra, fun _ => rfl, h.requestStop⟩
  | stopAndWait turns => exact ⟨extra, fun _ => rfl, (h.stopAndWait turns).2⟩
  | observe => exact ⟨extra, fun _ => rfl, h.observe⟩
  | act action => exact ⟨extra, fun _ => rfl, h.act action⟩
  | setDebugMode enabled => exact ⟨extra, fun _ => rfl, h.setDebugMode enabled⟩
  | holdDisplay => exact ⟨extra, fun _ => rfl, { h with displayHeld := rfl }⟩
  | releaseDisplay => exact ⟨extra, fun _ => rfl, { h with displayHeld := rfl }⟩
  | addListener name => exact ⟨extra, fun _ => rfl, h.addListener name⟩
  | turn => exact ⟨extra, fun _ => rfl, h.turn⟩
  | wake => exact ⟨extra, fun _ => rfl, h.wake⟩

/-- Whatever is done with two engines of which one is ahead, it stays as far ahead until both are
reset. -/
theorem run (h : e.AheadBy extra f) (history : List Operation) :
    ∃ more, ((∀ operation ∈ history, operation.resets = false) → more = extra) ∧
      (e.run history).AheadBy more (f.run history) := by
  induction history generalizing extra e f with
  | nil => exact ⟨extra, fun _ => rfl, h⟩
  | cons operation rest ih =>
    obtain ⟨next, kept, ahead⟩ := h.perform operation
    obtain ⟨last, keeps, further⟩ := ih ahead
    refine ⟨last, fun all => ?_, further⟩
    obtain ⟨first, others⟩ := List.forall_mem_cons.mp all
    rw [keeps others, kept first]

/-- Whatever is asked of two engines of which one is ahead, the answer is the same, as long as the
rates can be reported. -/
theorem ask (h : e.AheadBy extra f) (formed : e.console.WellFormed)
    (formed' : f.console.WellFormed) (request : Request)
    (small : ∀ elapsed, request = .update elapsed → f.console.executed < 2 ^ 1023) :
    (f.ask request).2 = (e.ask request).2 := by
  cases request with
  | load program => exact congrArg Answer.ofEnded (h.load program 2).1
  | start => exact congrArg (Answer.ofSaid ∘ Except.mapError Failure.fault) h.start.1
  | stop insistent =>
    cases insistent with
    | false => rfl
    | true => exact congrArg Answer.ofEnded (h.stopAndWait 2).1
  | restart => exact congrArg Answer.ofSaid (h.restart 2).1
  | join => exact congrArg Answer.said h.join
  | setKey key pressed =>
    simp only [Engine.ask, Engine.setKey, Console.setKey, h.console.machine]
    cases e.console.machine.keypad.set key pressed <;> rfl
  | update elapsed =>
    have result := h.console.result_update formed formed' (small elapsed rfl) elapsed
    simp only [Engine.ask, Engine.update, result]
    cases (e.console.update elapsed).result <;> rfl
  | setDebugMode | holdDisplay | releaseDisplay => rfl

end AheadBy

end Engine

end ChipEight
