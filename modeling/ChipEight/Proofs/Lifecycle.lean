import ChipEight.Proofs.Turns
import Mathlib.Logic.Relation

/-!
# The lifecycle of an engine

Host operations are made of few steps. A turn of the thread is one of them, a request to stop is
another, and a load or a restart consists of a request to stop, the turns it takes to end the
thread, and what is then done with the console. `Engine.Happens` says what the steps are and when
each can be taken. What one step keeps is kept by every operation and every history
(`Engine.run_of_happens`), so nothing that follows looks into the operations again.

The first thing that is kept is the lifecycle itself: the phase that hosts are shown agrees with the
thread and with what was asked of it (`Engine.Coherent`, `Engine.coherent_run`).
-/

namespace ChipEight

/-! ## What is kept of a console -/

namespace Console

/-- What a host does with a console changes the machine, the clock, the meter and the number of
instructions at most. -/
theorem act_eq (c : Console) (action : Action) :
    (c.act action).state =
      { c with
        machine := (c.act action).state.machine
        clock := (c.act action).state.clock
        meter := (c.act action).state.meter
        executed := (c.act action).state.executed } := by
  cases action with
  | step => rfl
  | update elapsed =>
    simp only [act, update]
    split <;> rfl
  | setKey key pressed =>
    simp only [act]
    split
    · rfl
    · next set =>
      rw [setKey_eq set]

theorem loaded_act (c : Console) (action : Action) : (c.act action).state.loaded = c.loaded :=
  congrArg (fun c => c.loaded) (c.act_eq action)

theorem options_act (c : Console) (action : Action) :
    (c.act action).state.options = c.options :=
  congrArg (fun c => c.options) (c.act_eq action)

theorem fault_act (c : Console) (action : Action) : (c.act action).state.fault = c.fault :=
  congrArg (fun c => c.fault) (c.act_eq action)

end Console

namespace Engine

variable {e next : Engine} {op : Fetched} {turns : Nat}

/-! ## What a turn may be -/

/-- What the turn of a thread that is not at rest comes to. -/
inductive Turned (e : Engine) : Engine → Prop where
  | ended : Turned e e.finish
  | brokenOff : Turned e (e.tell [.keyAwaited]).finish
  | failed (fault : Fault) : Turned e (e.halt fault)
  | paused (unbounded : e.pause = .ends) : Turned e { e with activity := .paused }
  | awaited {op : Fetched} (fetched : e.console.machine.fetch = .ok op)
      (waiting : waitsForKey op = true) : Turned e { e.pass with activity := .awaitingKey op }
  | heldUp {op : Fetched} {request : Display.Request} :
      Turned e { e.pass with activity := .atDisplay op request }
  | passed {op : Fetched} : Turned e (e.pass.complete op)
  | completed {op : Fetched} : Turned e (e.complete op)
  | presented {op : Fetched} {request : Display.Request} : Turned e (e.present op request)

theorem turned_beginInstruction (e : Engine) : e.Turned e.beginInstruction := by
  cases fetched : e.console.machine.fetch with
  | error fault =>
    rw [beginInstruction, fetched]
    exact .failed fault
  | ok op =>
    rw [beginInstruction_of_fetch fetched]
    split
    · next waiting => exact .awaited fetched (Bool.and_eq_true_iff.mp waiting).1
    · split
      · exact .heldUp
      · exact .passed

theorem turned_turn (busy : e.atRest = false) : e.Turned e.turn := by
  cases doing : e.activity with
  | ended => simp [atRest, doing] at busy
  | ready =>
    simp only [turn, doing, proceed]
    split
    · exact .ended
    · split
      · next unbounded => exact .paused unbounded
      · exact .ended
      · exact turned_beginInstruction e
      · exact turned_beginInstruction e
  | paused =>
    simp only [turn, doing]
    split
    · exact .ended
    · next going => simp [atRest, doing, going] at busy
  | awaitingKey op =>
    simp only [turn, doing]
    split
    · exact .completed
    · next waiting =>
      split
      · exact .brokenOff
      · next patient => simp_all [atRest]
  | atDisplay op request =>
    simp only [turn, doing]
    split
    · next held => simp [atRest, doing, held] at busy
    · exact .presented

/-- A thread that is not at rest is alive. -/
theorem activity_ne_of_busy (busy : e.atRest = false) : e.activity ≠ .ended := by
  intro ended
  rw [atRest, ended] at busy
  cases busy

/-! ## What happens to an engine -/

/-- The engine with a new thread in front of its first instruction. -/
def begun (e : Engine) : Engine :=
  ({ e with
    cancelled := false, phase := .running, activity := .ready, abandoned := false
    endSeen := false, hasRun := true } : Engine).tell [.engineStarted]

/-- The engine with its console reset, about to begin again. -/
def renewed (e : Engine) : Engine :=
  ({ e with console := e.console.reset.state } : Engine).tell
    (e.console.reset.events ++ [.engineRestarting])

/-- The engine with a program on its console that has not been started. -/
def supplied (e : Engine) (program : List UInt8) : Engine :=
  ({ e with console := (e.console.load program).state, hasRun := false } : Engine).tell
    (e.console.load program).events

/-- What may happen to an engine at one time, and when it may. -/
inductive Happens (e : Engine) : Engine → Prop where
  | turn (busy : e.atRest = false) : Happens e e.turn
  | wake (pausing : e.activity = .paused) (going : e.cancelled = false) :
      Happens e e.beginInstruction
  | requestStop : Happens e e.requestStop
  | abandon (asked : e.cancelled = true)
      (unmeasurable : e.console.options.stopTimeout.isMeasurable = false) : Happens e e.abandon
  | load {program : List UInt8} (joined : e.join = true)
      (settled : ∀ op, e.activity ≠ .awaitingKey op)
      (loaded : (e.console.load program).result = .ok ()) : Happens e (e.supplied program)
  | reset (settled : ∀ op, e.activity ≠ .awaitingKey op) : Happens e e.renewed
  | start (loaded : e.console.loaded = true) (stopped : e.phase = .stopped) : Happens e e.begun
  | act {action : Console.Action} (free : e.withholds action = false) :
      Happens e (({ e with console := (e.console.act action).state } : Engine).tell
        (e.console.act action).events)
  | brokenOff (ended : e.activity = .ended) (waits : e.waits = true) :
      Happens e (e.pass.tell [.keyAwaited])
  | observe : Happens e e.observe
  | setDebugMode (enabled : Bool) : Happens e (e.setDebugMode enabled)
  | holdDisplay : Happens e e.holdDisplay
  | releaseDisplay : Happens e e.releaseDisplay
  | addListener (name : Text) : Happens e (e.addListener name)

/-- What may happen to an engine in the course of time. -/
abbrev Happened : Engine → Engine → Prop := Relation.ReflTransGen Happens

theorem happened_settle (e : Engine) (turns : Nat) : e.Happened (e.settle turns) :=
  of_settle (fun busy earlier => .tail earlier (.turn busy)) .refl turns

theorem happened_stop (e : Engine) : e.Happened e.stop :=
  .head .requestStop (happened_settle e.requestStop 2)

theorem join_of_ended (ended : e.activity = .ended) : e.join = true := by
  simp only [join, ended, decide_true, Bool.or_true]

/-- A thread that need not be waited for is not found alive after it was asked to end. -/
theorem join_stop_of_dismissed (dismissed : e.dismissed = true) : e.stop.join = true := by
  simp only [Engine.dismissed, Bool.or_eq_true, Bool.and_eq_true, decide_eq_true_eq] at dismissed
  rcases dismissed with abandoned | ⟨-, ended⟩
  · have kept : e.stop.abandoned = true :=
      (Continues.settle e.requestStop 2).abandoned.trans abandoned
    simp only [join, kept, Bool.true_or]
  · have asked : e.requestStop.activity = .ended := ended
    have same : e.stop = e.requestStop := settle_of_atRest (atRest_of_ended asked) 2
    rw [same]
    exact join_of_ended ended

/-- Insisting on the end of a thread succeeds if the thread has ended by then or was given up
on. It fails with a fault if the time to wait is over before, or with an error if that time has no
measure and the end of the thread has not been seen. -/
theorem stopAndWait_cases (e : Engine) (turns : Nat) :
    e.stop.join = true ∧ e.stopAndWait turns = (e.stop, .ok ()) ∨
      (e.dismissed = false ∧ e.console.options.stopTimeout.isMeasurable = true ∧
        let later := e.requestStop.settle (e.turnsAwaited turns)
        later.activity ≠ .ended ∧
          e.stopAndWait turns = (later, .error (.fault later.stuckFault))) ∨
      e.dismissed = false ∧ e.console.options.stopTimeout.isMeasurable = false ∧
        e.stopAndWait turns =
          (if e.activity = .ended then e.stop else e.stop.abandon,
            .error (.unmeasurable e.console.options.stopTimeout)) := by
  cases dismissed : e.dismissed with
  | true => exact .inl ⟨join_stop_of_dismissed dismissed, if_pos dismissed⟩
  | false =>
    have waited : ¬ e.dismissed = true := by rw [dismissed]; exact Bool.false_ne_true
    cases measured : e.console.options.stopTimeout.isMeasurable with
    | true =>
      by_cases ended : (e.requestStop.settle (e.turnsAwaited turns)).activity = .ended
      · have same := settle_requestStop (atRest_of_ended ended)
        rw [same] at ended
        refine .inl ⟨join_of_ended ended, ?_⟩
        simp only [stopAndWait, if_neg waited, measured, if_true, same, ended]
      · refine .inr (.inl ⟨rfl, rfl, ended, ?_⟩)
        simp only [stopAndWait, if_neg waited, measured, if_true, if_neg ended]
    | false =>
      refine .inr (.inr ⟨rfl, rfl, ?_⟩)
      simp only [stopAndWait, if_neg waited, measured, Bool.false_eq_true, if_false]

theorem cancelled_stop (e : Engine) : e.stop.cancelled = true :=
  (Continues.settle e.requestStop 2).cancelled

theorem options_stop (e : Engine) : e.stop.console.options = e.console.options :=
  (Continues.settle e.requestStop 2).options

theorem happened_stopAndWait (e : Engine) (turns : Nat) :
    e.Happened (e.stopAndWait turns).1 := by
  have stopped := happened_stop e
  rcases stopAndWait_cases e turns with ⟨-, same⟩ | ⟨-, -, -, same⟩ | ⟨-, unmeasurable, same⟩
  · rw [same]
    exact stopped
  · rw [same]
    exact .head .requestStop (happened_settle e.requestStop _)
  · rw [same]
    dsimp only
    split
    · exact stopped
    · refine .tail stopped (.abandon (cancelled_stop e) ?_)
      rw [options_stop]
      exact unmeasurable

theorem join_of_stopAndWait (succeeded : e.stopAndWait turns = (e.stop, .ok ())) :
    e.stop.join = true := by
  have answer : (e.stopAndWait turns).2 = .ok () := congrArg Prod.snd succeeded
  rcases stopAndWait_cases e turns with ⟨joined, -⟩ | ⟨-, -, -, same⟩ | ⟨-, -, same⟩
  · exact joined
  · rw [same] at answer
    cases answer
  · rw [same] at answer
    cases answer

/-- A load is refused with the failure to end the thread, or is refused for the program and has
ended the thread all the same, or succeeds. -/
theorem load_cases (e : Engine) (program : List UInt8) (turns : Nat) :
    (∃ failure, (e.stopAndWait turns).2 = .error failure ∧
        e.load program turns = ((e.stopAndWait turns).1, .error failure)) ∨
      e.stopAndWait turns = (e.stop, .ok ()) ∧
        ((∃ fault, (e.stop.console.load program).result = .error fault ∧
            e.load program turns = (e.stop, .error (.fault fault))) ∨
          (e.stop.console.load program).result = .ok () ∧
            e.load program turns = (e.stop.supplied program, .ok ())) := by
  rcases waited : e.stopAndWait turns with ⟨stopped, failure | ended⟩
  · refine .inl ⟨failure, rfl, ?_⟩
    rw [load, waited]
  · cases stopAndWait_eq_ok waited
    refine .inr ⟨rfl, ?_⟩
    cases result : (e.stop.console.load program).result with
    | error fault =>
      refine .inl ⟨fault, rfl, ?_⟩
      simp only [load, waited, result]
    | ok =>
      refine .inr ⟨rfl, ?_⟩
      simp only [load, waited, result, supplied]

/-- A restart does nothing for an engine that has not been started, is refused with the failure to
end the thread, or starts anew. -/
theorem restart_cases (e : Engine) (turns : Nat) :
    e.hasRun = false ∧ e.restart turns = (e, .ok false) ∨
      e.hasRun = true ∧
        ((∃ failure, (e.stopAndWait turns).2 = .error failure ∧
            e.restart turns = ((e.stopAndWait turns).1, .error failure)) ∨
          e.stopAndWait turns = (e.stop, .ok ()) ∧
            e.restart turns =
              (e.stop.renewed.start.1, e.stop.renewed.start.2.mapError .fault)) := by
  cases begun : e.hasRun with
  | false => exact .inl ⟨rfl, by simp only [restart, begun, Bool.not_false, if_true]⟩
  | true =>
    refine .inr ⟨rfl, ?_⟩
    rcases waited : e.stopAndWait turns with ⟨stopped, failure | ended⟩
    · refine .inl ⟨failure, rfl, ?_⟩
      simp only [restart, begun, waited, Bool.not_true, Bool.false_eq_true, if_false]
    · cases stopAndWait_eq_ok waited
      refine .inr ⟨rfl, ?_⟩
      simp only [restart, begun, waited, Bool.not_true, Bool.false_eq_true, if_false]
      rfl

/-- A start is refused if nothing is loaded, and does nothing if a thread is active. -/
theorem start_cases (e : Engine) :
    e.console.loaded = false ∧ e.start = (e, .error { cause := .nothingLoaded, addr := 0 }) ∨
      e.console.loaded = true ∧
        ((e.phase ≠ .stopped ∨ e.join = false) ∧ e.start = (e, .ok false) ∨
          (e.phase = .stopped ∧ e.join = true) ∧ e.start = (e.begun, .ok true)) := by
  cases loaded : e.console.loaded with
  | false => exact .inl ⟨rfl, by simp only [start, loaded, Bool.not_false, if_true]⟩
  | true =>
    refine .inr ⟨rfl, ?_⟩
    by_cases free : e.phase = .stopped ∧ e.join = true
    · exact .inr ⟨free, start_eq_ok_true_iff.mpr ⟨⟨loaded, free⟩, rfl⟩⟩
    · have busy : e.phase ≠ .stopped ∨ e.join = false := by
        rw [← Bool.not_eq_true]
        exact Decidable.not_and_iff_or_not.mp free
      refine .inl ⟨busy, ?_⟩
      have active : (decide (e.phase ≠ .stopped) || !e.join) = true := by simpa using busy
      simp only [start, loaded, active, Bool.not_true, Bool.false_eq_true, if_false, if_true]

section

variable {P : Engine → Prop}

/-- What holds after insisting on the end of the thread holds after a load, if it holds with the
program on the console too. -/
theorem of_load {program : List UInt8} (waited : P (e.stopAndWait turns).1)
    (supplied : e.stop.join = true → (e.stop.console.load program).result = .ok () →
      P (e.stop.supplied program)) : P (e.load program turns).1 := by
  rcases load_cases e program turns with ⟨_, -, same⟩ | ⟨ended, ⟨_, -, same⟩ | ⟨loaded, same⟩⟩
  · rw [same]
    exact waited
  · rw [same]
    rw [ended] at waited
    exact waited
  · rw [same]
    exact supplied (join_of_stopAndWait ended) loaded

theorem of_start (kept : P e)
    (begun : e.console.loaded = true → e.phase = .stopped → P e.begun) : P e.start.1 := by
  rcases start_cases e with ⟨-, same⟩ | ⟨loaded, ⟨-, same⟩ | ⟨⟨stopped, -⟩, same⟩⟩
  · rw [same]
    exact kept
  · rw [same]
    exact kept
  · rw [same]
    exact begun loaded stopped

/-- What holds after insisting on the end of the thread holds after a restart, if it holds after
the new start too. -/
theorem of_restart (kept : P e) (waited : P (e.stopAndWait turns).1)
    (restarted : e.stop.join = true → P e.stop.renewed.start.1) : P (e.restart turns).1 := by
  rcases restart_cases e turns with ⟨-, same⟩ | ⟨-, ⟨_, -, same⟩ | ⟨ended, same⟩⟩
  · rw [same]
    exact kept
  · rw [same]
    exact waited
  · rw [same]
    exact restarted (join_of_stopAndWait ended)

end

theorem happened_load (e : Engine) (program : List UInt8) (turns : Nat) :
    e.Happened (e.load program turns).1 := by
  apply of_load (happened_stopAndWait e turns)
  intro joined loaded
  exact .tail (happened_stop e) (.load joined (activity_stop_ne e) loaded)

theorem happened_start (e : Engine) : e.Happened e.start.1 := by
  apply of_start .refl
  intro loaded stopped
  exact .single (.start loaded stopped)

theorem happened_restart (e : Engine) (turns : Nat) : e.Happened (e.restart turns).1 := by
  apply of_restart .refl (happened_stopAndWait e turns)
  intro _
  exact ((happened_stop e).tail (.reset (activity_stop_ne e))).trans (happened_start _)

theorem happened_act (e : Engine) (action : Console.Action) : e.Happened (e.act action).1 :=
  of_act .refl (fun ended waits => .single (.brokenOff ended waits)) fun free => .single (.act free)

theorem happened_turn (e : Engine) : e.Happened e.turn := by
  cases resting : e.atRest with
  | true =>
    rw [turn_of_atRest resting]
  | false => exact .single (.turn resting)

theorem happened_wake (e : Engine) : e.Happened e.wake := by
  rw [wake]
  split
  · next pausing => exact .single (.wake pausing.1 pausing.2)
  · exact .refl

/-- Every operation is made of what happens to engines. -/
theorem happened_perform (e : Engine) (operation : Operation) :
    e.Happened (e.perform operation) := by
  cases operation with
  | load program turns => exact happened_load e program turns
  | start => exact happened_start e
  | requestStop => exact .single .requestStop
  | stopAndWait turns => exact happened_stopAndWait e turns
  | restart turns => exact happened_restart e turns
  | observe => exact .single .observe
  | act action => exact happened_act e action
  | setDebugMode enabled => exact .single (.setDebugMode enabled)
  | holdDisplay => exact .single .holdDisplay
  | releaseDisplay => exact .single .releaseDisplay
  | addListener name => exact .single (.addListener name)
  | turn => exact happened_turn e
  | wake => exact happened_wake e

theorem of_happened {P : Engine → Prop} (kept : ∀ {e next}, P e → e.Happens next → P next)
    (initial : P e) (happened : e.Happened next) : P next := by
  induction happened with
  | refl => exact initial
  | tail _ last ih => exact kept ih last

/-- What holds initially and is kept by whatever happens holds after every history. -/
theorem run_of_happens {P : Engine → Prop} (kept : ∀ {e next}, P e → e.Happens next → P next)
    (initial : P e) (history : List Operation) : P (e.run history) :=
  run_induction (fun e operation h => of_happened kept h (happened_perform e operation)) initial
    history

/-! ## Phase and thread -/

/-- The phase that hosts are shown, the thread, and what was asked of it agree. A program that
runs has been loaded and started, and only a host whose patience has no measure gives up. -/
structure Coherent (e : Engine) : Prop where
  ended_iff : e.activity = .ended ↔ e.phase = .stopped
  running : e.phase = .running → e.cancelled = false ∧ e.abandoned = false
  stopping : e.phase = .stopping → e.cancelled = true
  begun : e.phase ≠ .stopped → e.abandoned = false → e.hasRun = true
  unseen : e.phase ≠ .stopped → e.endSeen = false
  loaded : e.phase ≠ .stopped ∨ e.hasRun = true → e.console.loaded = true
  patience : e.abandoned = true → e.console.options.stopTimeout.isMeasurable = false

/-- A completed instruction ends the thread and the run, or leaves both going. -/
theorem phase_conclude (e : Engine) (done : Effect Console (Except Fault Fetched)) :
    (e.conclude done).activity = .ended ∧ (e.conclude done).phase = .stopped ∨
      (e.conclude done).activity ≠ .ended ∧ (e.conclude done).phase = e.phase := by
  rw [conclude]
  split
  · exact .inr ⟨Activity.noConfusion, rfl⟩
  · exact .inl ⟨rfl, rfl⟩

theorem Turned.phase (h : e.Turned next) :
    next.activity = .ended ∧ next.phase = .stopped ∨
      next.activity ≠ .ended ∧ next.phase = e.phase := by
  cases h with
  | ended | brokenOff | failed => exact .inl ⟨rfl, rfl⟩
  | paused | awaited | heldUp => exact .inr ⟨Activity.noConfusion, rfl⟩
  | passed => exact phase_conclude e.pass _
  | completed | presented => exact phase_conclude e _

namespace Coherent

/-- What a thread does by itself leaves the lifecycle as it is, or ends it. -/
theorem goOn (h : e.Coherent) (kept : e.Continues next)
    (ended_iff : next.activity = .ended ↔ next.phase = .stopped)
    (phase : next.phase = e.phase ∨ next.phase = .stopped) : next.Coherent where
  ended_iff := ended_iff
  running := by
    rw [kept.cancelled, kept.abandoned]
    rcases phase with same | stopped
    · rw [same]
      exact h.running
    · rw [stopped]
      exact Phase.noConfusion
  stopping := by
    rw [kept.cancelled]
    rcases phase with same | stopped
    · rw [same]
      exact h.stopping
    · rw [stopped]
      exact Phase.noConfusion
  begun := by
    rw [kept.abandoned, kept.hasRun]
    rcases phase with same | stopped
    · rw [same]
      exact h.begun
    · exact fun alive => absurd stopped alive
  unseen := by
    rw [kept.endSeen]
    rcases phase with same | stopped
    · rw [same]
      exact h.unseen
    · exact fun alive => absurd stopped alive
  loaded := by
    rw [kept.loaded, kept.hasRun]
    rcases phase with same | stopped
    · rw [same]
      exact h.loaded
    · exact fun busy => h.loaded (.inr (busy.resolve_left fun alive => alive stopped))
  patience := by
    rw [kept.abandoned, kept.options]
    exact h.patience

theorem turned (h : e.Coherent) (alive : e.activity ≠ .ended) (kept : e.Continues next)
    (turned : e.Turned next) : next.Coherent := by
  have going : e.phase ≠ .stopped := fun stopped => alive (h.ended_iff.mpr stopped)
  rcases turned.phase with ⟨ended, stopped⟩ | ⟨busy, same⟩
  · exact h.goOn kept (iff_of_true ended stopped) (.inr stopped)
  · exact h.goOn kept (iff_of_false busy (same ▸ going)) (.inl same)

theorem requestStop (h : e.Coherent) : e.requestStop.Coherent := by
  cases phase : e.phase with
  | stopped =>
    have same : e.requestStop.phase = .stopped := by simp [Engine.requestStop, phase]
    refine { h with
      ended_iff := ?_, running := ?_, stopping := ?_, begun := ?_, unseen := ?_, loaded := ?_ }
    · exact iff_of_true (h.ended_iff.mpr phase) same
    · rw [same]
      exact Phase.noConfusion
    · exact fun _ => rfl
    · exact fun alive => absurd same alive
    · exact fun alive => absurd same alive
    · exact fun busy => h.loaded (.inr (busy.resolve_left fun alive => alive same))
  | running | stopping =>
    have same : e.requestStop.phase = .stopping := by simp [Engine.requestStop, phase]
    have alive : e.phase ≠ .stopped := by rw [phase]; exact Phase.noConfusion
    refine { h with
      ended_iff := ?_, running := ?_, stopping := ?_, begun := ?_, unseen := ?_, loaded := ?_ }
    · refine iff_of_false (fun ended => alive (h.ended_iff.mp ended)) ?_
      rw [same]
      exact Phase.noConfusion
    · rw [same]
      exact Phase.noConfusion
    · exact fun _ => rfl
    · exact fun _ => h.begun alive
    · exact fun _ => h.unseen alive
    · exact fun _ => h.loaded (.inl alive)

theorem load (h : e.Coherent) {program : List UInt8} (joined : e.join = true)
    (loaded : (e.console.load program).result = .ok ()) : (e.supplied program).Coherent := by
  refine { h with begun := ?_, loaded := ?_, patience := ?_ }
  · intro alive waited
    have ended : e.activity = .ended := by
      have unabandoned : e.abandoned = false := waited
      simpa [join, unabandoned] using joined
    exact absurd (h.ended_iff.mp ended) alive
  · exact fun _ => (Console.loaded_load loaded).1
  · intro abandoned
    have same := Console.options_load e.console program
    exact (congrArg (·.stopTimeout.isMeasurable) same).trans (h.patience abandoned)

theorem start (loaded : e.console.loaded = true) : e.begun.Coherent where
  ended_iff := iff_of_false Activity.noConfusion Phase.noConfusion
  running := fun _ => ⟨rfl, rfl⟩
  stopping := Phase.noConfusion
  begun := fun _ _ => rfl
  unseen := fun _ => rfl
  loaded := fun _ => loaded
  patience := Bool.noConfusion

/-- The phase and the thread have nothing to do with what is on the console. -/
theorem setConsole (h : e.Coherent) {c : Console} (loaded : c.loaded = e.console.loaded)
    (options : c.options = e.console.options) (events : List Event) :
    (({ e with console := c } : Engine).tell events).Coherent := by
  refine { h with loaded := ?_, patience := ?_ }
  · exact fun busy => loaded.trans (h.loaded busy)
  · intro abandoned
    exact (congrArg (·.stopTimeout.isMeasurable) options).trans (h.patience abandoned)

theorem happens (h : e.Coherent) (step : e.Happens next) : next.Coherent := by
  cases step with
  | turn busy => exact h.turned (activity_ne_of_busy busy) (.turn e) (turned_turn busy)
  | wake pausing =>
    have alive : e.activity ≠ .ended := by rw [pausing]; exact Activity.noConfusion
    exact h.turned alive (.beginInstruction e) (turned_beginInstruction e)
  | requestStop => exact h.requestStop
  | abandon asked unmeasurable =>
    refine { h with running := ?_, begun := ?_, patience := fun _ => unmeasurable }
    · intro running
      rw [(h.running running).1] at asked
      cases asked
    · exact fun _ => Bool.noConfusion
  | load joined _ loaded => exact h.load joined loaded
  | reset => exact h.setConsole (c := e.console.reset.state) rfl rfl _
  | start loaded => exact start loaded
  | @act action =>
    have loaded := Console.loaded_act e.console action
    exact h.setConsole loaded (Console.options_act e.console action) _
  | brokenOff => exact h.setConsole (c := e.pass.console) rfl rfl _
  | observe =>
    refine { h with unseen := fun alive => ?_ }
    have busy : e.activity ≠ .ended := fun ended => alive (h.ended_iff.mp ended)
    rw [Engine.observe, decide_eq_false busy, Bool.or_false]
    exact h.unseen alive
  | setDebugMode | holdDisplay | releaseDisplay | addListener => exact { h with }

end Coherent

theorem coherent_ofOptions (options : Options) : (ofOptions options).Coherent where
  ended_iff := iff_of_true rfl rfl
  running := Phase.noConfusion
  stopping := Phase.noConfusion
  begun := fun alive => absurd rfl alive
  unseen := fun alive => absurd rfl alive
  loaded := fun busy => busy.elim (absurd rfl) Bool.noConfusion
  patience := Bool.noConfusion

/-- The lifecycle of an engine is coherent after every history. -/
theorem coherent_run (options : Options) (history : List Operation) :
    ((ofOptions options).run history).Coherent :=
  run_of_happens Coherent.happens (coherent_ofOptions options) history

end Engine

end ChipEight
