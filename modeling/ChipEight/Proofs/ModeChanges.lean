import ChipEight.Proofs.HeldDisplay
import ChipEight.Proofs.Notices

/-!
# Changes of mode

An operation on an engine changes the mode of its display at most once, and then the listeners are
told: the instruction that a turn completes may select a mode, and so does a load or a restart, for
which the thread has to end first without another instruction (`Engine.Announces.perform`).

A listener that is registered once is therefore told once for each operation that changed the mode,
and what it was told leads to the present mode (`Engine.modesTold_run`). This leaves out a host that
holds the display, since a thread that is held up there completes its instruction when it is asked to
end.
-/

namespace ChipEight

/-- From the first display to the second the listeners stay, and these events tell them of the mode
exactly if it is another one. -/
structure Display.Announces (d next : Display) (events : List Event) : Prop where
  listeners : next.listeners = d.listeners
  told : events.filter Event.isGeometry = if next.mode = d.mode then [] else d.modeEvents next.mode

namespace Display.Announces

variable {d next : Display} {events : List Event}

theorem refl (plain : events.filter Event.isGeometry = []) : d.Announces d events :=
  ⟨rfl, by rw [plain, if_pos rfl]⟩

theorem selectMode (d : Display) (mode : Mode) :
    d.Announces (d.selectMode mode).state (d.selectMode mode).events where
  listeners := d.listeners_selectMode mode
  told := by
    have all : (d.modeEvents mode).filter Event.isGeometry = d.modeEvents mode := by
      apply List.filter_eq_self.mpr
      exact List.forall_mem_cons.mpr ⟨rfl, List.forall_mem_map.mpr fun _ _ => rfl⟩
    rw [mode_selectMode]
    show (d.setMode mode).events.filter _ = _
    rw [events_setMode]
    split
    · rfl
    · exact all

theorem append (h : d.Announces next events) {more : List Event}
    (plain : more.filter Event.isGeometry = []) : d.Announces next (events ++ more) :=
  ⟨h.listeners, by rw [List.filter_append, plain, List.append_nil, h.told]⟩

end Display.Announces

namespace Machine

variable {m : Machine} {op : Fetched}

theorem announces_present (m : Machine) (request : Display.Request) :
    m.display.Announces (m.present request).state.display (m.present request).events := by
  cases request with
  | clear => exact ⟨rfl, (if_pos rfl).symm⟩
  | selectMode mode => exact .selectMode m.display mode
  | draw column row sprite =>
    have mode : (m.display.draw column.toNat row.toNat sprite).1.mode = m.display.mode :=
      m.display.mode_draw _ _ _
    exact ⟨rfl, (if_pos mode).symm⟩

/-- An instruction tells of the display what it changes there. -/
theorem announces_execute (m : Machine) (op : Fetched) :
    m.display.Announces (m.execute op).state.display (m.execute op).events := by
  cases asked : m.request? op with
  | some request =>
    rw [execute_of_request? asked]
    exact m.announces_present request
  | none =>
    obtain ⟨same, plain⟩ := display_execute asked
    rw [same]
    exact .refl plain

end Machine

namespace Engine

variable {e next last : Engine} {op : Fetched} {name : Text}

def mode (e : Engine) : Mode := e.console.machine.display.mode

def listeners (e : Engine) : List Text := e.console.machine.display.listeners

/-- From the first engine to the second the listeners stay, and they are told of the mode exactly if
it is another one. -/
structure Announces (e next : Engine) : Prop where
  listeners : next.listeners = e.listeners
  geometry : next.geometry =
    e.geometry ++ if next.mode = e.mode then [] else e.console.machine.display.modeEvents next.mode

namespace Announces

/-- Nothing is told of a mode that stays. -/
theorem of_mode (listeners : next.listeners = e.listeners) (mode : next.mode = e.mode)
    (geometry : next.geometry = e.geometry) : e.Announces next :=
  ⟨listeners, by rw [geometry, if_pos mode, List.append_nil]⟩

theorem of_samePicture (same : e.SamePicture next) (listeners : next.listeners = e.listeners) :
    e.Announces next :=
  of_mode listeners (congrArg Surface.mode same.surface) same.geometry

theorem refl (e : Engine) : e.Announces e := of_mode rfl rfl rfl

/-- What is told in two parts is told exactly as long as the mode changes in one of them only. -/
theorem trans (h : e.Announces next) (h' : next.Announces last)
    (once : next.mode = e.mode ∨ last.mode = next.mode) : e.Announces last := by
  refine ⟨h'.listeners.trans h.listeners, ?_⟩
  have same : next.console.machine.display.modeEvents last.mode =
      e.console.machine.display.modeEvents last.mode :=
    congrArg (fun names : List Text => Event.modeChanged last.mode ::
      names.map fun name => Event.listenerTold name last.mode) h.listeners
  rw [h'.geometry, h.geometry, same]
  rcases once with still | still
  · rw [if_pos still, still, List.append_nil]
  · rw [if_pos still, still, List.append_nil]

theorem tell (h : e.Announces next) {events : List Event}
    (plain : events.filter Event.isGeometry = []) : e.Announces (next.tell events) :=
  ⟨h.listeners, by rw [geometry_tell, plain, List.append_nil]; exact h.geometry⟩

theorem finish (e : Engine) : e.Announces e.finish := of_samePicture (.finish e) rfl

theorem halt (e : Engine) (fault : Fault) : e.Announces (e.halt fault) :=
  of_samePicture (.halt e fault) rfl

/-- The engine takes over a console and tells what was told of it. -/
theorem take (e : Engine) {c : Console} {events : List Event}
    (announced : e.console.machine.display.Announces c.machine.display events) :
    e.Announces ({ e with console := c }.tell events) :=
  ⟨announced.listeners, by rw [geometry_tell, announced.told]; rfl⟩

theorem conclude (e : Engine) {done : Effect Console (Except Fault Fetched)}
    (announced : e.console.machine.display.Announces done.state.machine.display done.events) :
    e.Announces (e.conclude done) := by
  have taken : e.Announces (({ e with console := done.state, activity := .ready } : Engine).tell
      done.events) :=
    ⟨announced.listeners, by rw [geometry_tell, announced.told]; rfl⟩
  rw [Engine.conclude]
  split
  · exact taken
  · exact taken.trans (halt _ _) (.inr rfl)

theorem complete (e : Engine) (op : Fetched) : e.Announces (e.complete op) := by
  apply conclude
  show e.console.machine.display.Announces (Machine.conclude op _).state.display
    (Machine.conclude op _).events
  rw [Machine.display_conclude, Machine.events_conclude]
  exact e.console.machine.announces_execute op

theorem present (e : Engine) (op : Fetched) (request : Display.Request) :
    e.Announces (e.present op request) := by
  apply conclude
  show e.console.machine.display.Announces (Machine.conclude op _).state.display
    (Machine.conclude op _).events
  rw [Machine.display_conclude, Machine.events_conclude]
  exact e.console.machine.announces_present request

theorem turned (h : e.Turned next) : e.Announces next := by
  cases h with
  | ended => exact finish e
  | brokenOff => exact ((refl e).tell rfl).trans (finish _) (.inr rfl)
  | failed fault => exact halt e fault
  | paused | awaited | heldUp => exact of_mode rfl rfl rfl
  | @passed op =>
    have completed := complete e.pass op
    exact ⟨completed.listeners, completed.geometry⟩
  | completed => exact complete e _
  | presented => exact present e _ _

/-- A turn executes one instruction at most. -/
theorem turn (e : Engine) : e.Announces e.turn := by
  cases resting : e.atRest with
  | true =>
    rw [turn_of_atRest resting]
    exact refl e
  | false => exact turned (turned_turn resting)

end Announces

theorem listeners_settle (e : Engine) (turns : Nat) : (e.settle turns).listeners = e.listeners :=
  of_settle (P := fun next => next.listeners = e.listeners)
    (fun _ same => (Announces.turn _).listeners.trans same) rfl turns

/-! ## Operations -/

/-- The thread of an unhindered engine that was asked to end does so without another look at the
display. -/
theorem Unhindered.samePicture_settle (h : e.Unhindered) (suspended : e.Suspended)
    (turns : Nat) : e.SamePicture (e.requestStop.settle turns) := by
  have reason : e.holdDisplay.Suspended := suspended.happens .holdDisplay
  have same := SamePicture.settle_requestStop (e := e.holdDisplay) rfl reason turns
  have settled : e.holdDisplay.requestStop.settle turns =
      (e.requestStop.settle turns).holdDisplay :=
    h.requestStop.settle_holdDisplay_of_cancelled rfl turns
  rw [settled] at same
  exact ⟨same.surface, same.geometry, (Continues.settle e.requestStop turns).displayHeld⟩

theorem Unhindered.mode_stop (h : e.Unhindered) (suspended : e.Suspended) :
    e.stop.mode = e.mode :=
  congrArg Surface.mode (h.samePicture_settle suspended 2).surface

namespace Announces

theorem settle_requestStop (h : e.Unhindered) (suspended : e.Suspended) (turns : Nat) :
    e.Announces (e.requestStop.settle turns) :=
  of_samePicture (h.samePicture_settle suspended turns) (listeners_settle e.requestStop turns)

theorem stop (h : e.Unhindered) (suspended : e.Suspended) : e.Announces e.stop :=
  settle_requestStop h suspended 2

theorem stopAndWait (h : e.Unhindered) (suspended : e.Suspended) (turns : Nat) :
    e.Announces (e.stopAndWait turns).1 := by
  rcases stopAndWait_eq e turns with ⟨taken, same⟩ | same
  · rw [same]
    exact settle_requestStop h suspended taken
  · rw [same]
    have stopped := stop h suspended
    exact ⟨stopped.listeners, stopped.geometry⟩

theorem start (e : Engine) : e.Announces e.start.1 := by
  apply of_samePicture (.start e)
  apply of_start (P := fun next => next.listeners = e.listeners) rfl
  intro _ _
  rfl

theorem supplied {program : List UInt8} (e : Engine)
    (loaded : (e.console.load program).result = .ok ()) : e.Announces (e.supplied program) := by
  have announced : e.console.machine.display.Announces
      (e.console.load program).state.machine.display (e.console.load program).events := by
    rw [Console.load] at loaded ⊢
    split at loaded
    · cases loaded
    · exact (Display.Announces.selectMode e.console.machine.display .small).append rfl
  have taken := take e announced
  exact ⟨taken.listeners, taken.geometry⟩

theorem renewed (e : Engine) : e.Announces e.renewed :=
  take e ((Display.Announces.selectMode e.console.machine.display .small).append rfl)

theorem load (h : e.Unhindered) (suspended : e.Suspended) (program : List UInt8)
    (turns : Nat) : e.Announces (e.load program turns).1 := by
  apply of_load (stopAndWait h suspended turns)
  intro _ loaded
  exact (stop h suspended).trans (supplied e.stop loaded) (.inl (h.mode_stop suspended))

theorem restart (h : e.Unhindered) (suspended : e.Suspended) (turns : Nat) :
    e.Announces (e.restart turns).1 := by
  apply of_restart (refl e) (stopAndWait h suspended turns)
  intro _
  have again : e.stop.renewed.start.1.mode = e.stop.renewed.mode :=
    congrArg Surface.mode (SamePicture.start e.stop.renewed).surface
  have reset := (stop h suspended).trans (renewed e.stop) (.inl (h.mode_stop suspended))
  exact reset.trans (start e.stop.renewed) (.inr again)

theorem step (e : Engine) : e.Announces (e.act .step).1 := by
  refine of_act (refl e) (fun _ _ => ?_) fun _ => ?_
  · exact of_samePicture ((SamePicture.pass e).tell rfl) rfl
  · apply take
    show e.console.machine.display.Announces e.console.machine.step.state.display
      e.console.machine.step.events
    rw [Machine.step]
    split
    · exact .refl rfl
    · rw [Machine.complete, Machine.display_conclude, Machine.events_conclude]
      exact e.console.machine.advance.announces_execute _

theorem act (e : Engine) (action : Console.Action) : e.Announces (e.act action).1 := by
  cases action with
  | step => exact step e
  | update elapsed =>
    rw [act_update]
    apply of_samePicture (.update e elapsed)
    show (e.console.update elapsed).state.machine.display.listeners = _
    rw [Console.machine_update]
    rfl
  | setKey key pressed =>
    rw [act_setKey]
    apply of_samePicture (.setKey e key pressed)
    rw [setKey]
    cases set : e.console.setKey key pressed with
    | error refusal => rfl
    | ok console =>
      show console.machine.display.listeners = _
      rw [Console.setKey_eq set]
      rfl

end Announces

/-- A load that succeeds leaves the small mode. -/
theorem mode_load {program : List UInt8} {turns : Nat}
    (succeeded : (e.load program turns).2 = .ok ()) :
    (e.load program turns).1.mode = .small := by
  rcases load_cases e program turns with ⟨_, -, same⟩ | ⟨-, ⟨_, -, same⟩ | ⟨loaded, same⟩⟩
  · rw [same] at succeeded
    cases succeeded
  · rw [same] at succeeded
    cases succeeded
  · rw [same]
    show (e.stop.console.load program).state.machine.display.mode = .small
    rw [Console.load] at loaded ⊢
    split at loaded
    · cases loaded
    · exact Display.mode_selectMode _ .small

/-- The operations in which the host neither takes hold of the display nor adds a listener. -/
def Operation.hosted : Operation → Bool
  | .holdDisplay => false
  | .addListener _ => false
  | _ => true

theorem Unhindered.perform (h : e.Unhindered) {operation : Operation}
    (hosted : operation.hosted = true) : (e.perform operation).Unhindered := by
  cases operation with
  | load program turns => exact h.load program turns
  | start => exact h.start
  | requestStop => exact h.requestStop
  | stopAndWait turns => exact h.stopAndWait turns
  | restart turns => exact h.restart turns
  | act action => exact of_act h (fun _ _ => ⟨h.free, h.away⟩) fun _ => ⟨h.free, h.away⟩
  | observe | setDebugMode => exact ⟨h.free, h.away⟩
  | releaseDisplay => exact ⟨rfl, h.away⟩
  | turn => exact h.turn
  | wake => exact h.wake
  | holdDisplay | addListener => cases hosted

/-- An operation changes the mode once or not at all, and tells of it. -/
theorem Announces.perform (h : e.Unhindered) (suspended : e.Suspended) {operation : Operation}
    (hosted : operation.hosted = true) : e.Announces (e.perform operation) := by
  cases operation with
  | load program turns => exact load h suspended program turns
  | start => exact start e
  | stopAndWait turns => exact stopAndWait h suspended turns
  | restart turns => exact restart h suspended turns
  | act action => exact act e action
  | turn => exact turn e
  | wake =>
    rw [Engine.perform, Engine.wake]
    split
    · exact turned (turned_beginInstruction e)
    · exact refl e
  | requestStop | observe | setDebugMode | releaseDisplay => exact of_mode rfl rfl rfl
  | holdDisplay | addListener => cases hosted

/-! ## What a listener was told -/

theorem modesTold_eq_geometry (e : Engine) (name : Text) :
    e.modesTold name = Event.modesTold name e.geometry := by
  rw [geometry, Event.modesTold, List.filterMap_filter]
  apply congrArg (fun read => e.journal.toList.filterMap read)
  funext event
  cases event <;> rfl

theorem Announces.modesTold (h : e.Announces next) (once : e.listeners.count name = 1) :
    next.modesTold name = e.modesTold name ++ if next.mode = e.mode then [] else [next.mode] := by
  rw [modesTold_eq_geometry, h.geometry, Event.modesTold_append, modesTold_eq_geometry]
  split
  · rfl
  · have told := e.console.machine.display.modesTold_modeEvents next.mode name
    rw [told, show e.console.machine.display.listeners.count name = 1 from once]
    rfl

/-- The operation changes the mode. -/
def switches (e : Engine) (operation : Operation) : Bool := (e.perform operation).mode ≠ e.mode

/-- What a history tells a listener that is registered once leads from the mode before it to the mode
after it, with one notice for each operation that changed the mode. -/
theorem modesTold_run (h : e.Unhindered) (suspended : e.Suspended)
    (once : e.listeners.count name = 1) {history : List Operation}
    (hosted : ∀ operation ∈ history, operation.hosted = true) :
    ∃ told, (e.run history).modesTold name = e.modesTold name ++ told ∧
      told.length = e.tally switches history ∧ e.mode.Leads told (e.run history).mode := by
  induction history generalizing e with
  | nil => exact ⟨[], (List.append_nil _).symm, rfl, .nil _⟩
  | cons operation rest ih =>
    obtain ⟨first, others⟩ := List.forall_mem_cons.mp hosted
    have announced := Announces.perform h suspended first
    have listening : (e.perform operation).listeners.count name = 1 := by
      rw [announced.listeners]
      exact once
    obtain ⟨told, later, length, leads⟩ :=
      ih (h.perform first) (suspended.perform operation) listening others
    rw [run_cons, later, announced.modesTold once, tally, switches]
    by_cases same : (e.perform operation).mode = e.mode
    · refine ⟨told, ?_, ?_, ?_⟩
      · rw [if_pos same, List.append_nil]
      · rw [length, decide_eq_false (not_not_intro same), Bool.toNat_false, Nat.zero_add]
      · rw [← same]
        exact leads
    · refine ⟨(e.perform operation).mode :: told, ?_, ?_, .cons (Ne.symm same) leads⟩
      · rw [if_neg same, List.append_assoc]
        rfl
      · rw [List.length_cons, length, decide_eq_true same, Bool.toNat_true, Nat.add_comm]

end Engine

end ChipEight
