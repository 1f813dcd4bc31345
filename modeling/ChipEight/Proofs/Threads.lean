import ChipEight.Proofs.Lifecycle

/-!
# Threads

Threads begin and end by turns in the journal, so that there is never more than one
(`Event.Alternates`, `Engine.alternates_run`). No instruction and nothing that a host does with the
console is told as the beginning or the end of a thread, so only the lifecycle has to be looked at.

A thread that is suspended has a reason for it, and no host operation takes the reason away behind
its back: a wait for a key still stands in memory where it was fetched, and a pause is one that was
asked for (`Engine.Suspended`).
-/

namespace ChipEight

namespace Event

/-! ## Threads in the journal -/

/-- An event that is the beginning or the end of a thread. -/
def ofThread : Event → Bool
  | .engineStarted => true
  | .engineStopped _ => true
  | _ => false

/-- None of these events is the beginning or the end of a thread. -/
def Quiet (events : List Event) : Prop := ∀ event ∈ events, event.ofThread = false

/-- Threads begin and end by turns: none begins before the one before it has ended. The flag
tells whether the last one is alive. -/
inductive Alternates : List Event → Bool → Prop
  | nil : Alternates [] false
  | begun {told : List Event} (h : Alternates told false) :
      Alternates (told ++ [.engineStarted]) true
  | ended {told : List Event} {executed : Nat} (h : Alternates told true) :
      Alternates (told ++ [.engineStopped executed]) false
  | other {told : List Event} {alive : Bool} {event : Event} (h : Alternates told alive)
      (quiet : event.ofThread = false) : Alternates (told ++ [event]) alive

variable {events events' : List Event}

theorem Alternates.append {told : List Event} {alive : Bool} (h : Alternates told alive)
    (quiet : Quiet events) : Alternates (told ++ events) alive := by
  induction events generalizing told with
  | nil =>
    rw [List.append_nil]
    exact h
  | cons event rest ih =>
    obtain ⟨first, others⟩ := List.forall_mem_cons.mp quiet
    rw [List.append_cons]
    exact ih (h.other first) others

theorem quiet_nil : Quiet [] := List.forall_mem_nil _

theorem Quiet.append (h : Quiet events) (h' : Quiet events') : Quiet (events ++ events') :=
  List.forall_mem_append.mpr ⟨h, h'⟩

theorem quiet_singleton {event : Event} (quiet : event.ofThread = false) : Quiet [event] :=
  List.forall_mem_singleton.mpr quiet

end Event

/-! ## What instructions tell -/

/-- An event that an instruction may tell. -/
def Event.ofInstruction : Event → Bool
  | .screenCleared => true
  | .jumped _ => true
  | .keyAwaited => true
  | .spriteDrawn _ _ _ => true
  | .operandOrderDoubtful _ => true
  | .wordSkipped _ => true
  | .modeChanged _ => true
  | .listenerTold _ _ => true
  | _ => false

theorem Display.told_selectMode (d : Display) (mode : Mode) :
    ∀ event ∈ (d.selectMode mode).events, event.ofInstruction = true := by
  simp only [selectMode, setMode]
  split
  · exact List.forall_mem_nil _
  · refine List.forall_mem_cons.mpr ⟨rfl, ?_⟩
    exact List.forall_mem_map.mpr fun _ _ => rfl

/-- An instruction tells of itself, and neither of a thread nor of the host. -/
theorem Event.quiet_of_instruction {events : List Event}
    (told : ∀ event ∈ events, event.ofInstruction = true) : Event.Quiet events := by
  intro event mem
  have instruction := told event mem
  cases event with
  | engineStarted | engineStopped => cases instruction
  | _ => rfl

namespace Machine

theorem told_present (m : Machine) (request : Display.Request) :
    ∀ event ∈ (m.present request).events, event.ofInstruction = true := by
  cases request with
  | clear | draw => exact List.forall_mem_singleton.mpr rfl
  | selectMode mode => exact m.display.told_selectMode mode

theorem told_execute (m : Machine) (op : Fetched) :
    ∀ event ∈ (m.execute op).events, event.ofInstruction = true := by
  cases decoded : op.word.decode with
  | clear | selectMode =>
    simp only [execute, decoded]
    exact told_present m _
  | combine operation x y =>
    simp only [execute, decoded, combine, fallThrough]
    split
    · exact List.forall_mem_singleton.mpr rfl
    · exact List.forall_mem_nil _
  | draw x y rows =>
    simp only [execute, decoded, draw]
    split
    · exact List.forall_mem_nil _
    · exact told_present m _
  | storeDigits | store =>
    simp only [execute, decoded, writeBlock]
    split <;> exact List.forall_mem_nil _
  | ret | call | restore | skipIf =>
    simp only [execute, decoded]
    split <;> exact List.forall_mem_nil _
  | awaitKey x =>
    simp only [execute, decoded, awaitKey]
    split <;> exact List.forall_mem_singleton.mpr rfl
  | jump | skipWord =>
    simp only [execute, decoded]
    exact List.forall_mem_singleton.mpr rfl
  | _ =>
    simp only [execute, decoded]
    exact List.forall_mem_nil _

theorem events_conclude (op : Fetched) (done : Outcome) :
    (conclude op done).events = done.events := by
  rw [conclude]
  split <;> rfl

theorem quiet_complete (m : Machine) (op : Fetched) : Event.Quiet (m.complete op).events := by
  rw [complete, events_conclude]
  exact Event.quiet_of_instruction (m.told_execute op)

theorem quiet_step (m : Machine) : Event.Quiet m.step.events := by
  rw [step]
  split
  · exact Event.quiet_nil
  · exact quiet_complete _ _

end Machine

namespace Console

theorem quiet_complete (c : Console) (op : Fetched) : Event.Quiet (c.complete op).events :=
  c.machine.quiet_complete op

theorem quiet_present (c : Console) (op : Fetched) (request : Display.Request) :
    Event.Quiet (c.present op request).events := by
  change Event.Quiet (Machine.conclude op (c.machine.present request)).events
  rw [Machine.events_conclude]
  exact Event.quiet_of_instruction (c.machine.told_present request)

/-- A reset tells of the display, as an instruction does that selects its mode. -/
theorem told_reset (c : Console) : ∀ event ∈ c.reset.events, event.ofInstruction = true :=
  c.machine.display.told_selectMode .small

theorem quiet_reset (c : Console) : Event.Quiet c.reset.events :=
  Event.quiet_of_instruction c.told_reset

theorem quiet_load (c : Console) (program : List UInt8) :
    Event.Quiet (c.load program).events := by
  rw [load]
  split
  · exact Event.quiet_nil
  · exact (quiet_reset _).append (Event.quiet_singleton rfl)

/-- What a host does with a console is never about a thread. -/
theorem quiet_act (c : Console) (action : Action) : Event.Quiet (c.act action).events := by
  cases action with
  | step => exact c.machine.quiet_step
  | update elapsed =>
    simp only [act, update]
    split
    · exact Event.quiet_nil
    · dsimp only
      split
      · exact Event.quiet_singleton rfl
      · exact Event.quiet_nil
  | setKey key pressed =>
    simp only [act]
    split <;> exact Event.quiet_nil

end Console

namespace Engine

variable {e next : Engine} {op : Fetched}

/-! ## One thread at a time -/

/-- A thread is alive from its beginning until it has ended. -/
def alive (e : Engine) : Bool := e.activity ≠ .ended

theorem alive_eq_true_iff : e.alive = true ↔ e.activity ≠ .ended := decide_eq_true_iff

theorem alive_eq_false_iff : e.alive = false ↔ e.activity = .ended := by
  rw [alive, decide_eq_false_iff_not, Decidable.not_not]

/-- The journal of an engine tells of one thread at a time, and whether it is alive now. -/
def Alternates (e : Engine) : Prop := Event.Alternates e.journal.toList e.alive

namespace Alternates

/-- Nothing that is told in between is about a thread. -/
theorem tell (h : e.Alternates) {events : List Event} (quiet : Event.Quiet events)
    (journal : next.journal = e.journal ++ events) (alive : next.alive = e.alive) :
    next.Alternates := by
  rw [Alternates, journal, alive, Array.toList_appendList]
  exact Event.Alternates.append h quiet

theorem finish (h : e.Alternates) (alive : e.activity ≠ .ended) : e.finish.Alternates := by
  have going : e.alive = true := alive_eq_true_iff.mpr alive
  rw [Alternates, going] at h
  have told : e.finish.journal.toList =
      e.journal.toList ++ [.engineStopped e.console.executed] := by
    simp [Engine.finish, Engine.tell]
  rw [Alternates, told]
  exact h.ended

theorem halt (h : e.Alternates) (alive : e.activity ≠ .ended) (fault : Fault) :
    (e.halt fault).Alternates := by
  have recorded : (({ e with console := { e.console with fault := some fault } } : Engine).tell
      [.engineHalted fault]).Alternates := h.tell (Event.quiet_singleton rfl) rfl rfl
  exact recorded.finish alive

theorem conclude (h : e.Alternates) (alive : e.activity ≠ .ended)
    {done : Effect Console (Except Fault Fetched)} (quiet : Event.Quiet done.events) :
    (e.conclude done).Alternates := by
  have going : e.alive = true := alive_eq_true_iff.mpr alive
  rw [Engine.conclude]
  have taken : (({ e with console := done.state, activity := .ready } : Engine).tell
      done.events).Alternates := h.tell quiet rfl going.symm
  split
  · exact taken
  · exact taken.halt Activity.noConfusion _

end Alternates

namespace Alternates

theorem turned (h : e.Alternates) (living : e.activity ≠ .ended) (turned : e.Turned next) :
    next.Alternates := by
  have going : e.alive = true := alive_eq_true_iff.mpr living
  cases turned with
  | ended => exact h.finish living
  | brokenOff =>
    have told : (e.tell [.keyAwaited]).Alternates := h.tell (Event.quiet_singleton rfl) rfl rfl
    exact told.finish living
  | failed fault => exact h.halt living fault
  | paused | awaited | heldUp => exact h.tell Event.quiet_nil (by simp [pass]) going.symm
  | passed =>
    have passed : e.pass.Alternates := h
    exact passed.conclude living (Console.quiet_complete _ _)
  | completed => exact h.conclude living (Console.quiet_complete _ _)
  | presented => exact h.conclude living (Console.quiet_present _ _ _)

theorem start (h : e.Alternates) (ended : e.activity = .ended) : e.begun.Alternates := by
  rw [Alternates, alive_eq_false_iff.mpr ended] at h
  rw [Alternates, begun, Engine.tell, Array.toList_appendList]
  exact h.begun

theorem happens (h : e.Alternates) (coherent : e.Coherent) (step : e.Happens next) :
    next.Alternates := by
  cases step with
  | turn busy => exact h.turned (activity_ne_of_busy busy) (turned_turn busy)
  | wake pausing =>
    have living : e.activity ≠ .ended := by rw [pausing]; exact Activity.noConfusion
    exact h.turned living (turned_beginInstruction e)
  | start _ stopped => exact h.start (coherent.ended_iff.mpr stopped)
  | load => exact h.tell (Console.quiet_load _ _) rfl rfl
  | reset => exact h.tell ((Console.quiet_reset _).append (Event.quiet_singleton rfl)) rfl rfl
  | act => exact h.tell (Console.quiet_act _ _) rfl rfl
  | brokenOff => exact h.tell (Event.quiet_singleton rfl) rfl rfl
  | requestStop | abandon | observe | setDebugMode | holdDisplay | releaseDisplay | addListener => exact h

end Alternates

/-- No thread begins before the one before it has ended, in the course of every history. -/
theorem alternates_run (options : Options) (history : List Operation) :
    ((ofOptions options).run history).Alternates :=
  (run_of_happens (P := fun e => e.Coherent ∧ e.Alternates)
    (fun h step => ⟨h.1.happens step, h.2.happens h.1 step⟩)
    ⟨coherent_ofOptions options, .nil⟩ history).2

/-! ## Why a thread is suspended -/

/-- A thread waits for a key in an instruction that is a wait for a key and still stands where it
was fetched from, and it pauses for a time that ends. -/
structure Suspended (e : Engine) : Prop where
  awaited : ∀ op, e.activity = .awaitingKey op →
    waitsForKey op = true ∧ e.console.machine.memory.fetch op.addr = .ok op.word
  paused : e.activity = .paused → e.console.options.debugDelay.wait = .ends

/-- A word that was fetched stands at its address. -/
theorem stands_of_fetch {m : Machine} (fetched : m.fetch = .ok op) :
    m.memory.fetch op.addr = .ok op.word := by
  rw [Machine.fetch] at fetched
  split at fetched
  · cases fetched
  · next word read =>
    cases fetched
    exact read

namespace Suspended

/-- A thread that is not suspended needs no reason. -/
theorem of_free (unawaited : ∀ op, e.activity ≠ .awaitingKey op) (unpaused : e.activity ≠ .paused) :
    e.Suspended where
  awaited := fun op doing => absurd doing (unawaited op)
  paused := fun doing => absurd doing unpaused

theorem of_conclude (e : Engine) (done : Effect Console (Except Fault Fetched)) :
    (e.conclude done).Suspended :=
  of_free (fun _ => activity_conclude_ne e done Activity.noConfusion Activity.noConfusion)
    (activity_conclude_ne e done Activity.noConfusion Activity.noConfusion)

theorem wait_of_pause (unbounded : e.pause = .ends) :
    e.console.options.debugDelay.wait = .ends := by
  rw [pause] at unbounded
  split at unbounded
  · exact unbounded
  · cases unbounded

theorem of_turned (turned : e.Turned next) : next.Suspended := by
  cases turned with
  | ended | brokenOff | failed => exact of_free (fun _ => Activity.noConfusion) Activity.noConfusion
  | heldUp => exact of_free (fun _ => Activity.noConfusion) Activity.noConfusion
  | passed | completed | presented => exact of_conclude _ _
  | paused unbounded => exact ⟨fun _ => Activity.noConfusion, fun _ => wait_of_pause unbounded⟩
  | awaited fetched waiting =>
    refine ⟨?_, Activity.noConfusion⟩
    intro op doing
    cases doing
    have stands := stands_of_fetch fetched
    exact ⟨waiting, stands⟩

theorem turn (busy : e.atRest = false) : e.turn.Suspended := of_turned (turned_turn busy)

/-- A console in which the wait still stands may take the place of the one before. -/
theorem setConsole (h : e.Suspended) {c : Console} (options : c.options = e.console.options)
    (memory : ∀ op, e.activity = .awaitingKey op → c.machine.memory = e.console.machine.memory)
    (events : List Event) : (({ e with console := c } : Engine).tell events).Suspended where
  awaited := fun op doing => by
    obtain ⟨waiting, stands⟩ := h.awaited op doing
    exact ⟨waiting, (congrArg (Memory.fetch · op.addr) (memory op doing)).trans stands⟩
  paused := fun doing => (congrArg (·.debugDelay.wait) options).trans (h.paused doing)

theorem act (h : e.Suspended) {action : Console.Action} (free : e.withholds action = false) :
    (({ e with console := (e.console.act action).state } : Engine).tell
      (e.console.act action).events).Suspended := by
  refine h.setConsole (Console.options_act e.console action) (fun op doing => ?_) _
  cases action with
  | step => simp [withholds, doing] at free
  | update elapsed =>
    show (e.console.update elapsed).state.machine.memory = _
    rw [Console.machine_update]
  | setKey key pressed =>
    simp only [Console.act]
    split
    · rfl
    · next set => rw [Console.setKey_eq set]

theorem happens (h : e.Suspended) (step : e.Happens next) : next.Suspended := by
  cases step with
  | turn busy => exact turn busy
  | wake => exact of_turned (turned_beginInstruction e)
  | @load program _ settled _ =>
    have kept := h.setConsole (Console.options_load e.console program)
      (fun op doing => absurd doing (settled op)) (e.console.load program).events
    exact ⟨kept.awaited, kept.paused⟩
  | reset settled =>
    have unawaited : ∀ op, e.activity = .awaitingKey op →
        e.console.reset.state.machine.memory = e.console.machine.memory :=
      fun op doing => absurd doing (settled op)
    exact h.setConsole (c := e.console.reset.state) rfl unawaited _
  | start => exact of_free (fun _ => Activity.noConfusion) Activity.noConfusion
  | act free => exact h.act free
  | brokenOff ended =>
    have alive : ∀ op, e.activity = .awaitingKey op →
        e.pass.console.machine.memory = e.console.machine.memory := fun _ _ => rfl
    exact h.setConsole (c := e.pass.console) rfl alive _
  | requestStop | abandon | observe | setDebugMode | holdDisplay | releaseDisplay | addListener =>
    exact ⟨h.awaited, h.paused⟩

end Suspended

theorem Suspended.perform (h : e.Suspended) (operation : Operation) :
    (e.perform operation).Suspended :=
  of_happened Suspended.happens h (happened_perform e operation)

/-- What the turns of a thread keep that was asked to end is kept while it goes on. -/
theorem Suspended.of_settle {P : Engine → Prop} (h : e.Suspended) (asked : e.cancelled = true)
    (kept : ∀ {next : Engine}, next.Suspended → next.cancelled = true → P next → P next.turn)
    (initial : P e) (turns : Nat) : P (e.settle turns) := by
  refine (Engine.of_settle (P := fun next => P next ∧ next.Suspended ∧ next.cancelled = true)
    ?_ ⟨initial, h, asked⟩ turns).1
  rintro next busy ⟨earlier, suspended, asked⟩
  exact ⟨kept suspended asked earlier, .turn busy, (Continues.turn next).cancelled.trans asked⟩

/-- After every history a suspended thread has its reason. -/
theorem suspended_run (options : Options) (history : List Operation) :
    ((ofOptions options).run history).Suspended :=
  run_of_happens Suspended.happens
    (.of_free (fun _ => Activity.noConfusion) Activity.noConfusion) history

end Engine

end ChipEight
