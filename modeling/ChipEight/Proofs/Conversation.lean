import ChipEight.Proofs.Threads

/-!
# Conversations

A host makes requests of an engine and is answered, and after each request the thread goes on until
it has ended or nothing but the host can make it go on. Such a conversation tells how the engine
stands: whether a program was loaded, and whether it has been started since, can be read off what
was asked and answered (`Engine.everLoaded`, `Engine.startedSinceLoad`), and decides what the next
request is answered. The main statement is `Engine.lifecycle_of_conversation`.

While a host insists on the end of a thread, the thread takes the two turns that it needs at most,
unless the host does not wait at all. Then any thread that is alive outlasts the wait; otherwise only
one that is held up at the display does (`Engine.outlasts`).

One assumption is made, that a clock can measure the time the host is ready to wait. Otherwise the
host meets another error, whether the thread is held up or not (`Engine.timeout_without_wait`).
-/

namespace ChipEight

namespace Engine

/-! ## Requests and answers -/

/-- What a host asks of an engine. -/
inductive Request where
  | load (program : List UInt8)
  | start
  /-- A stop, on which the host may insist. -/
  | stop (insistent : Bool)
  | restart
  | join
  | setKey (key : Int) (pressed : Bool)
  | update (elapsed : Int)
  | setDebugMode (enabled : Bool)
  | holdDisplay
  | releaseDisplay

/-- What a host is answered. -/
inductive Answer where
  | done
  | said (yes : Bool)
  | failed (failure : Failure)
  | keyRefused (refusal : Keypad.OutOfRange)
  | timeRefused (failure : Console.UpdateFailure)
deriving DecidableEq

/-- The kind of fault that was answered, if it was one. -/
def Answer.kind? : Answer → Option Fault.Kind
  | .failed (.fault fault) => some fault.cause.kind
  | _ => none

@[simp] theorem Answer.kind?_done : Answer.done.kind? = none := rfl

@[simp] theorem Answer.kind?_said (yes : Bool) : (Answer.said yes).kind? = none := rfl

/-- The answer to what may fail and has no result. -/
def Answer.ofEnded : Except Failure Unit → Answer
  | .ok () => .done
  | .error failure => .failed failure

/-- The answer to what may fail, and may be done or not be done. -/
def Answer.ofSaid : Except Failure Bool → Answer
  | .ok yes => .said yes
  | .error failure => .failed failure

/-- Does what is asked, except that the thread has not gone on yet. -/
def ask (e : Engine) : Request → Engine × Answer
  | .load program => ((e.load program).1, .ofEnded (e.load program).2)
  | .start => (e.start.1, .ofSaid (e.start.2.mapError .fault))
  | .stop false => (e.requestStop, .done)
  | .stop true => (e.stopAndWait.1, .ofEnded e.stopAndWait.2)
  | .restart => (e.restart.1, .ofSaid e.restart.2)
  | .join => (e.observe, .said e.join)
  | .setKey key pressed =>
    match e.setKey key pressed with
    | (next, .ok ()) => (next, .done)
    | (next, .error refusal) => (next, .keyRefused refusal)
  | .update elapsed =>
    match e.update elapsed with
    | (next, .ok ()) => (next, .done)
    | (next, .error failure) => (next, .timeRefused failure)
  | .setDebugMode enabled => (e.setDebugMode enabled, .done)
  | .holdDisplay => (e.holdDisplay, .done)
  | .releaseDisplay => (e.releaseDisplay, .done)

/-- The requests that insist on the end of the thread. -/
def Request.insists : Request → Bool
  | .load _ => true
  | .stop insistent => insistent
  | .restart => true
  | _ => false

/-- A request and its answer. -/
abbrev Exchange := Request × Answer

/-- A program was loaded. -/
def Exchange.loads : Exchange → Bool
  | (.load _, .done) => true
  | _ => false

/-- A thread was started. -/
def Exchange.starts : Exchange → Bool
  | (.start, .said true) => true
  | (.restart, .said true) => true
  | _ => false

/-- Whether a program was ever loaded, in a conversation that is told backwards. -/
def everLoaded (past : List Exchange) : Bool := past.any Exchange.loads

/-- Whether a thread was started since a program was last loaded, in a conversation that is told
backwards. -/
def startedSinceLoad : List Exchange → Bool
  | [] => false
  | last :: past => if last.loads then false else last.starts || startedSinceLoad past

/-- The engine is what a conversation made of a new one, and rests. The last exchange is told
first. -/
inductive Conversation (options : Options) : List Exchange → Engine → Prop where
  | silence : Conversation options [] (ofOptions options)
  | exchange {past : List Exchange} {e : Engine} (earlier : Conversation options past e)
      (request : Request) (turns : Nat)
      (rests : ((e.ask request).1.settle turns).atRest = true) :
      Conversation options ((request, (e.ask request).2) :: past)
        ((e.ask request).1.settle turns)

variable {options : Options} {past : List Exchange} {e next : Engine}

/-! ## Conversations are histories -/

/-- Turns that come to nothing do no harm, so that settling is taking turns. -/
theorem settle_eq_run (e : Engine) (turns : Nat) :
    e.settle turns = e.run (List.replicate turns .turn) := by
  induction turns generalizing e with
  | zero => rfl
  | succ turns ih =>
    rw [List.replicate_succ, run_cons, perform, ← ih e.turn]
    cases resting : e.atRest with
    | true => rw [turn_of_atRest resting, settle_of_atRest resting, settle_of_atRest resting]
    | false => rw [settle_succ resting]

/-- A request is an operation, or none. -/
theorem ask_eq_run (e : Engine) (request : Request) :
    ∃ history, (e.ask request).1 = e.run history := by
  cases request with
  | load program => exact ⟨[.load program], rfl⟩
  | start => exact ⟨[.start], rfl⟩
  | stop insistent =>
    cases insistent with
    | false => exact ⟨[.requestStop], rfl⟩
    | true => exact ⟨[.stopAndWait], rfl⟩
  | restart => exact ⟨[.restart], rfl⟩
  | join => exact ⟨[.observe], rfl⟩
  | setKey key pressed =>
    refine ⟨[.act (.setKey key pressed)], ?_⟩
    rw [run_cons, perform, act_setKey, ask]
    split <;> next same => exact (congrArg Prod.fst same).symm
  | update elapsed =>
    refine ⟨[.act (.update elapsed)], ?_⟩
    rw [run_cons, perform, act_update, ask]
    split <;> next same => exact (congrArg Prod.fst same).symm
  | setDebugMode enabled => exact ⟨[.setDebugMode enabled], rfl⟩
  | holdDisplay => exact ⟨[.holdDisplay], rfl⟩
  | releaseDisplay => exact ⟨[.releaseDisplay], rfl⟩

/-- A request and some turns are a history. -/
theorem settle_ask_eq_run (e : Engine) (request : Request) (turns : Nat) :
    ∃ history, (e.ask request).1.settle turns = e.run history := by
  obtain ⟨history, asked⟩ := ask_eq_run e request
  refine ⟨history ++ List.replicate turns .turn, ?_⟩
  rw [run_append, ← asked, settle_eq_run]

/-- What holds after every history holds after every conversation. -/
theorem Conversation.eq_run (h : Conversation options past e) :
    ∃ history, e = (ofOptions options).run history := by
  induction h with
  | silence => exact ⟨[], rfl⟩
  | exchange _ request turns _ ih =>
    obtain ⟨history, rfl⟩ := ih
    obtain ⟨later, asked⟩ := settle_ask_eq_run ((ofOptions options).run history) request turns
    exact ⟨history ++ later, by rw [asked, run_append]⟩

theorem Conversation.atRest (h : Conversation options past e) : e.atRest = true := by
  cases h with
  | silence => rfl
  | exchange _ _ _ rests => exact rests

/-! ## Engines that are waited for -/

/-- A thread that is held up is held up after a request to stop as well. -/
theorem atRest_requestStop_of_stuck (stuck : e.stuck = true) : e.requestStop.atRest = true := by
  rw [Engine.stuck] at stuck
  split at stuck
  · next op request doing =>
    rw [Engine.atRest, activity_requestStop, doing]
    exact stuck
  · cases stuck

theorem stuck_of_free (free : e.displayHeld = false) : e.stuck = false := by
  rw [Engine.stuck, free]
  split <;> rfl

theorem atDisplay_of_stuck (stuck : e.stuck = true) :
    ∃ op request, e.activity = .atDisplay op request := by
  rw [Engine.stuck] at stuck
  split at stuck
  · next op request doing => exact ⟨op, request, doing⟩
  · cases stuck

theorem activity_of_stuck (stuck : e.stuck = true) : e.activity ≠ .ended := by
  obtain ⟨op, request, doing⟩ := atDisplay_of_stuck stuck
  rw [doing]
  exact Activity.noConfusion

/-- The host has not given up on the thread, and would not. -/
structure Patient (e : Engine) : Prop where
  unabandoned : e.abandoned = false
  measured : e.console.options.stopTimeout.isMeasurable = true

theorem patient_run {options : Options} (measured : options.stopTimeout.isMeasurable = true)
    (history : List Operation) : ((ofOptions options).run history).Patient := by
  have same := (wellFormed_run options history).options_eq
  have patience := (coherent_run options history).patience
  rw [same, measured] at patience
  exact ⟨Bool.eq_false_iff.mpr fun abandoned => Bool.noConfusion (patience abandoned),
    by rw [same]; exact measured⟩

/-- The thread is alive when the host has waited for it: it is held up, or the host does not wait. -/
def outlasts (e : Engine) : Bool :=
  e.stuck || e.alive && e.console.options.stopTimeout.wait = .nothing

theorem alive_of_outlasts (outlasts : e.outlasts = true) : e.alive = true := by
  simp only [Engine.outlasts, Bool.or_eq_true, Bool.and_eq_true] at outlasts
  rcases outlasts with stuck | ⟨alive, -⟩
  · exact alive_eq_true_iff.mpr (activity_of_stuck stuck)
  · exact alive

/-- The turns of a thread that outlasts the wait come to nothing, or there are none. -/
theorem settle_of_outlasts (outlasts : e.outlasts = true) (turns : Nat) :
    e.requestStop.settle (e.turnsAwaited turns) = e.requestStop := by
  simp only [Engine.outlasts, Bool.or_eq_true, Bool.and_eq_true, decide_eq_true_eq] at outlasts
  rcases outlasts with stuck | ⟨-, nothing⟩
  · exact settle_of_atRest (atRest_requestStop_of_stuck stuck) _
  · rw [turnsAwaited, nothing, if_neg Number.Wait.noConfusion, settle]

/-- The end of a thread that has ended is waited for with success, however short the time. -/
theorem stopAndWait_of_ended (measured : e.console.options.stopTimeout.isMeasurable = true)
    (ended : e.activity = .ended) (turns : Nat) : e.stopAndWait turns = (e.stop, .ok ()) := by
  have asked : e.requestStop.activity = .ended := ended
  have later := settle_of_atRest (atRest_of_ended asked) (e.turnsAwaited turns)
  rcases stopAndWait_cases e turns with ⟨-, same⟩ | ⟨-, -, busy, -⟩ | ⟨-, unmeasurable, -⟩
  · exact same
  · rw [later] at busy
    exact absurd ended busy
  · rw [measured] at unmeasurable
    cases unmeasurable

namespace Patient

/-- Insisting on the end of a thread fails for one that outlasts the wait, and for no other. -/
theorem stopAndWait_eq (h : e.Patient) :
    e.stopAndWait =
      if e.outlasts then (e.requestStop, .error (.fault e.stuckFault)) else (e.stop, .ok ()) := by
  cases outlasts : e.outlasts with
  | true =>
    have living := alive_eq_true_iff.mp (alive_of_outlasts outlasts)
    have waited : e.dismissed = false := by
      rw [dismissed, h.unabandoned, decide_eq_false living, Bool.and_false, Bool.or_false]
    simp only [stopAndWait, waited, h.measured, settle_of_outlasts outlasts, activity_requestStop,
      if_neg living, Bool.false_eq_true, if_false, if_true]
    rfl
  | false =>
    simp only [Engine.outlasts, Bool.or_eq_false_iff] at outlasts
    obtain ⟨free, short⟩ := outlasts
    cases living : e.alive with
    | false => exact stopAndWait_of_ended h.measured (alive_eq_false_iff.mp living) 2
    | true =>
      have ends : e.console.options.stopTimeout.wait = .ends := by
        have measured := h.measured
        rw [living, Bool.true_and, decide_eq_false_iff_not] at short
        rw [Number.isMeasurable] at measured
        split at measured
        · next nothing => exact absurd nothing short
        · next ends => exact ends
        · cases measured
        · cases measured
      exact stopAndWait_of_not_stuck free (.inr ⟨ends, Nat.le_refl 2⟩)

theorem join_eq (h : e.Patient) : e.join = !e.alive := by
  cases living : e.alive with
  | true => simp [join, h.unabandoned, alive_eq_true_iff.mp living]
  | false => simp [join, alive_eq_false_iff.mp living]

end Patient

/-! ## Answers -/

theorem kind_of_load {c : Console} {program : List UInt8} {fault : Fault}
    (refused : (c.load program).result = .error fault) : fault.cause.kind = .programTooLarge := by
  rw [Console.load, Memory.load] at refused
  split at refused
  · next first =>
    split at first
    · cases first
    · cases first
      cases refused
      rfl
  · cases refused

namespace Coherent

/-- A start of an engine that has a program succeeds if and only if nothing is running. -/
theorem start_eq (h : e.Coherent) (loaded : e.console.loaded = true) :
    e.start = if e.phase = .stopped then (e.begun, .ok true) else (e, .ok false) := by
  rcases start_cases e with ⟨unloaded, -⟩ | ⟨-, ⟨busy, same⟩ | ⟨⟨stopped, -⟩, same⟩⟩
  · rw [loaded] at unloaded
    cases unloaded
  · have active : e.phase ≠ .stopped := by
      refine busy.elim id fun unjoined stopped => ?_
      rw [join, decide_eq_true (h.ended_iff.mpr stopped), Bool.or_true] at unjoined
      cases unjoined
    rw [if_neg active, same]
  · rw [if_pos stopped, same]

end Coherent

/-- A stop leaves alone what was loaded and whether it was started. -/
theorem kept_stop (e : Engine) :
    e.stop.console.loaded = e.console.loaded ∧ e.stop.hasRun = e.hasRun :=
  have kept := Continues.settle e.requestStop 2
  ⟨kept.loaded, kept.hasRun⟩

theorem kept_stopAndWait (e : Engine) :
    e.stopAndWait.1.console.loaded = e.console.loaded ∧ e.stopAndWait.1.hasRun = e.hasRun := by
  rcases stopAndWait_eq e 2 with ⟨taken, same⟩ | same
  · rw [same]
    have kept := Continues.settle e.requestStop taken
    exact ⟨kept.loaded, kept.hasRun⟩
  · rw [same]
    exact kept_stop e

/-- What an exchange says about the program is what is noted about it. -/
structure Noted (e next : Engine) (exchange : Exchange) : Prop where
  loaded : next.console.loaded = (exchange.loads || e.console.loaded)
  hasRun : next.hasRun = if exchange.loads then false else exchange.starts || e.hasRun

/-- Nothing was loaded or started. -/
theorem Noted.of_kept {exchange : Exchange} (kept : next.console.loaded = e.console.loaded ∧
    next.hasRun = e.hasRun) (unloaded : exchange.loads = false)
    (unstarted : exchange.starts = false) : e.Noted next exchange where
  loaded := by rw [unloaded, kept.1, Bool.false_or]
  hasRun := by rw [unloaded, unstarted, kept.2, Bool.false_or, if_neg Bool.false_ne_true]

theorem noted_load (e : Engine) (program : List UInt8) :
    e.Noted (e.ask (.load program)).1 (.load program, (e.ask (.load program)).2) := by
  rcases load_cases e program 2 with ⟨failure, -, same⟩ | ⟨-, ⟨fault, -, same⟩ | ⟨loaded, same⟩⟩
  · simp only [ask, same]
    exact .of_kept (kept_stopAndWait e) rfl rfl
  · simp only [ask, same]
    exact .of_kept (kept_stop e) rfl rfl
  · simp only [ask, same]
    exact ⟨(Console.loaded_load loaded).1, rfl⟩

theorem noted_start (e : Engine) :
    e.Noted (e.ask .start).1 (.start, (e.ask .start).2) := by
  rcases start_cases e with ⟨-, same⟩ | ⟨-, ⟨-, same⟩ | ⟨-, same⟩⟩
  · simp only [ask, same]
    exact .of_kept ⟨rfl, rfl⟩ rfl rfl
  · simp only [ask, same]
    exact .of_kept ⟨rfl, rfl⟩ rfl rfl
  · simp only [ask, same]
    exact ⟨rfl, rfl⟩

theorem noted_restart (e : Engine) :
    e.Noted (e.ask .restart).1 (.restart, (e.ask .restart).2) := by
  rcases restart_cases e 2 with ⟨-, same⟩ | ⟨-, ⟨failure, -, same⟩ | ⟨-, same⟩⟩
  · simp only [ask, same]
    exact .of_kept ⟨rfl, rfl⟩ rfl rfl
  · simp only [ask, same]
    exact .of_kept (kept_stopAndWait e) rfl rfl
  · simp only [ask, same]
    rcases start_cases e.stop.renewed with ⟨-, began⟩ | ⟨-, ⟨-, began⟩ | ⟨-, began⟩⟩
    · rw [began]
      exact .of_kept (kept_stop e) rfl rfl
    · rw [began]
      exact .of_kept (kept_stop e) rfl rfl
    · rw [began]
      exact ⟨(kept_stop e).1, rfl⟩

theorem noted_ask (e : Engine) (request : Request) :
    e.Noted (e.ask request).1 (request, (e.ask request).2) := by
  cases request with
  | load program => exact noted_load e program
  | start => exact noted_start e
  | stop insistent =>
    cases insistent with
    | false => exact .of_kept ⟨rfl, rfl⟩ rfl rfl
    | true => exact .of_kept (kept_stopAndWait e) rfl rfl
  | restart => exact noted_restart e
  | setKey key pressed =>
    simp only [ask, setKey]
    cases set : e.console.setKey key pressed with
    | error refusal => exact .of_kept ⟨rfl, rfl⟩ rfl rfl
    | ok next =>
      refine .of_kept ⟨?_, rfl⟩ rfl rfl
      rw [Console.setKey_eq set]
  | update elapsed =>
    have kept : (e.update elapsed).1.console.loaded = e.console.loaded :=
      Console.loaded_act e.console (.update elapsed)
    refine .of_kept ⟨?_, ?_⟩ rfl rfl
    · simp only [ask]
      split <;> next same => rw [← kept, same]
    · simp only [ask]
      split <;> next same => exact congrArg (hasRun ∘ Prod.fst) same.symm
  | join | setDebugMode | holdDisplay | releaseDisplay => exact .of_kept ⟨rfl, rfl⟩ rfl rfl

namespace Conversation

/-- What was loaded and whether it was started can be read off a conversation. -/
theorem noted (h : Conversation options past e) :
    e.console.loaded = everLoaded past ∧ e.hasRun = startedSinceLoad past := by
  induction h with
  | silence => exact ⟨rfl, rfl⟩
  | @exchange past e _ request turns _ ih =>
    obtain ⟨loaded, begun⟩ := ih
    have asked := noted_ask e request
    have kept := Continues.settle (e.ask request).1 turns
    rw [kept.loaded, asked.loaded, kept.hasRun, asked.hasRun, loaded, begun]
    exact ⟨rfl, rfl⟩

end Conversation

/-! ## What is answered -/

/-- A thread at rest that was asked to end is held up at the display. -/
theorem stuck_of_cancelled (resting : e.atRest = true) (asked : e.cancelled = true)
    (living : e.activity ≠ .ended) : e.stuck = true := by
  cases doing : e.activity with
  | ended => exact absurd doing living
  | ready => simp [atRest, doing] at resting
  | paused => simp [atRest, doing, asked] at resting
  | awaitingKey => simp [atRest, doing, asked] at resting
  | atDisplay => simpa [stuck, atRest, doing] using resting

namespace Patient

theorem kind_ask_stop (h : e.Patient) :
    (e.ask (.stop true)).2.kind? = some .engineTimeout ↔ e.outlasts = true := by
  rw [ask, h.stopAndWait_eq]
  cases e.outlasts with
  | true => exact iff_of_true rfl rfl
  | false => exact iff_of_false (by simp [Answer.ofEnded]) Bool.false_ne_true

/-- A load ends the thread first, and is refused for the program only then. -/
theorem kind_ask_load (h : e.Patient) (program : List UInt8) :
    (e.ask (.load program)).2.kind? = some .engineTimeout ↔ e.outlasts = true := by
  have waited := h.stopAndWait_eq
  rw [ask]
  cases outlasts : e.outlasts with
  | true =>
    rw [outlasts, if_pos rfl] at waited
    rw [Engine.load, waited]
    exact iff_of_true rfl rfl
  | false =>
    rw [outlasts, if_neg Bool.false_ne_true] at waited
    refine iff_of_false ?_ Bool.false_ne_true
    rcases load_cases e program 2 with ⟨failure, failed, -⟩ | ⟨-, ⟨fault, refused, same⟩ | ⟨-, same⟩⟩
    · rw [waited] at failed
      cases failed
    · rw [same]
      intro timeout
      have large := kind_of_load refused
      simp [Answer.ofEnded, Answer.kind?, large] at timeout
    · rw [same]
      simp [Answer.ofEnded]

end Patient

namespace Coherent

theorem phase_stop_of_not_stuck (h : e.Coherent) (free : e.stuck = false) :
    e.stop.phase = .stopped := by
  have coherent : e.stop.Coherent := of_happened Coherent.happens h (happened_stop e)
  exact coherent.ended_iff.mp (activity_stop_of_not_stuck free)

/-- The phase is decided by the thread and by what was asked of it. -/
theorem phase_iff (h : e.Coherent) :
    (e.phase = .stopped ↔ e.alive = false) ∧
      (e.phase = .running ↔ e.alive = true ∧ e.cancelled = false) ∧
      (e.phase = .stopping ↔ e.alive = true ∧ e.cancelled = true) := by
  have ended_iff := h.ended_iff
  rw [← alive_eq_false_iff] at ended_iff
  cases phase : e.phase with
  | stopped => simp [ended_iff.mpr phase]
  | running =>
    have going : e.alive = true := by
      rw [← Bool.not_eq_false, ended_iff, phase]
      exact Phase.noConfusion
    simp [going, (h.running phase).1]
  | stopping =>
    have going : e.alive = true := by
      rw [← Bool.not_eq_false, ended_iff, phase]
      exact Phase.noConfusion
    simp [going, h.stopping phase]

theorem ask_start (h : e.Coherent) :
    (e.ask .start).2 =
      if e.console.loaded then .said (e.phase = .stopped)
      else .failed (.fault { cause := .nothingLoaded, addr := 0 }) := by
  cases loaded : e.console.loaded with
  | false =>
    rcases start_cases e with ⟨-, same⟩ | ⟨was, -⟩
    · rw [ask, same]
      rfl
    · rw [loaded] at was
      cases was
  | true =>
    rw [ask, h.start_eq loaded, if_pos rfl]
    split
    · next stopped =>
      rw [decide_eq_true stopped]
      rfl
    · next busy =>
      rw [decide_eq_false busy]
      rfl

/-- A restart fails for a thread that outlasts the wait, and otherwise succeeds if the program was
started before. -/
theorem ask_restart (h : e.Coherent) (patient : e.Patient) :
    (e.ask .restart).2 =
      if e.hasRun then
        if e.outlasts then .failed (.fault e.stuckFault) else .said true
      else .said false := by
  rcases restart_cases e 2 with ⟨unbegun, same⟩ | ⟨begun, ⟨failure, failed, same⟩ | ⟨ended, same⟩⟩
  · rw [ask, same, unbegun]
    rfl
  · rw [ask, same, begun, if_pos rfl]
    rw [patient.stopAndWait_eq] at failed
    split at failed
    · next outlasts =>
      cases failed
      rw [if_pos outlasts]
      rfl
    · cases failed
  · have ends : e.outlasts = false := by
      rw [patient.stopAndWait_eq] at ended
      cases outlasts : e.outlasts with
      | false => rfl
      | true =>
        rw [outlasts, if_pos rfl] at ended
        cases congrArg Prod.snd ended
    have free : e.stuck = false := (Bool.or_eq_false_iff.mp ends).1
    have coherent : e.stop.renewed.Coherent :=
      of_happened Coherent.happens h ((happened_stop e).tail (.reset (activity_stop_ne e)))
    have loaded : e.stop.renewed.console.loaded = true :=
      (kept_stop e).1.trans (h.loaded (.inr begun))
    have stopped : e.stop.renewed.phase = .stopped := h.phase_stop_of_not_stuck free
    rw [ask, same, coherent.start_eq loaded, if_pos stopped, begun, if_pos rfl, ends]
    rfl

/-- A running program that was started cannot be restarted while its thread outlasts the wait. -/
theorem kind_ask_restart (h : e.Coherent) (patient : e.Patient) :
    (e.ask .restart).2.kind? = some .engineTimeout ↔ e.outlasts = true := by
  rw [h.ask_restart patient]
  cases outlasts : e.outlasts with
  | true =>
    have living : e.phase ≠ .stopped := fun stopped =>
      alive_eq_true_iff.mp (alive_of_outlasts outlasts) (h.ended_iff.mpr stopped)
    rw [h.begun living patient.unabandoned, if_pos rfl, if_pos rfl]
    exact iff_of_true rfl rfl
  | false =>
    refine iff_of_false ?_ Bool.false_ne_true
    rw [if_neg Bool.false_ne_true]
    split <;> simp

/-- Who insists on the end of a thread meets a fault for a thread that outlasts the wait, and for no
other. -/
theorem kind_ask_of_insists (h : e.Coherent) (patient : e.Patient) {request : Request}
    (insistent : request.insists = true) :
    (e.ask request).2.kind? = some .engineTimeout ↔ e.outlasts = true := by
  cases request with
  | load program => exact patient.kind_ask_load program
  | stop insists =>
    cases insistent
    exact patient.kind_ask_stop
  | restart => exact h.kind_ask_restart patient
  | start | join | setKey | update | setDebugMode | holdDisplay | releaseDisplay =>
    cases insistent

/-- While the display is free, a stop takes effect within two turns, insisted on or not. -/
theorem ask_stop_of_free (h : e.Coherent) (patient : e.Patient) (free : e.displayHeld = false)
    (insistent : Bool) :
    (e.ask (.stop insistent)).1.settle 2 = e.stop ∧ e.stop.phase = .stopped := by
  refine ⟨?_, h.phase_stop_of_not_stuck (stuck_of_free free)⟩
  cases insistent with
  | false => rfl
  | true =>
    rw [ask, patient.stopAndWait_eq]
    split
    · rfl
    · exact settle_of_atRest (atRest_stop e) 2

end Coherent

/-- The lifecycle of an engine in a conversation with a host whose patience can be measured.

The phase tells whether a thread is alive and whether it was asked to end; it is alive and was
asked to end only if it is held up at the display. Threads begin and end by turns. What a start and
a restart are answered depends on what was loaded and started before. A request that insists on
the end of the thread meets a fault if and only if the thread is held up, or is alive and the time
to wait for it is not positive. At any moment at which the display is free, in the middle of a run
as well, a stop takes effect. -/
theorem lifecycle_of_conversation (options : Options)
    (measured : options.stopTimeout.isMeasurable = true) (past : List Exchange) (e : Engine)
    (reached : Conversation options past e) :
    ((e.phase = .stopped ↔ e.alive = false) ∧
        (e.phase = .running ↔ e.alive = true ∧ e.cancelled = false) ∧
        (e.phase = .stopping ↔ e.alive = true ∧ e.cancelled = true) ∧
        (e.phase = .stopping → e.stuck = true)) ∧
      (Event.Alternates e.journal.toList e.alive ∧ (e.ask .join).2 = .said !e.alive) ∧
      ((e.ask .start).2 =
          if everLoaded past then .said (e.phase = .stopped)
          else .failed (.fault { cause := .nothingLoaded, addr := 0 })) ∧
      ((e.ask .restart).2 = .said false ↔ startedSinceLoad past = false) ∧
      (∀ request : Request, request.insists = true →
        ((e.ask request).2.kind? = some .engineTimeout ↔
          e.stuck = true ∨ e.alive = true ∧ options.stopTimeout.wait = .nothing)) ∧
      ∀ (request : Request) (turns : Nat), let busy := (e.ask request).1.settle turns
        busy.displayHeld = false → ∀ insistent,
          (busy.ask (.stop insistent)).2 =
              (if insistent && busy.outlasts then .failed (.fault busy.stuckFault) else .done) ∧
            ((busy.ask (.stop insistent)).1.settle 2).phase = .stopped := by
  obtain ⟨history, rfl⟩ := reached.eq_run
  obtain ⟨loaded, begun⟩ := reached.noted
  have coherent := coherent_run options history
  have patient := patient_run measured history
  have chosen := (wellFormed_run options history).options_eq
  obtain ⟨stopped_iff, running_iff, stopping_iff⟩ := coherent.phase_iff
  refine ⟨⟨stopped_iff, running_iff, stopping_iff, fun stopping => ?_⟩,
    ⟨alternates_run options history, ?_⟩, ?_, ?_, ?_, ?_⟩
  · obtain ⟨living, asked⟩ := stopping_iff.mp stopping
    exact stuck_of_cancelled reached.atRest asked (alive_eq_true_iff.mp living)
  · rw [ask, patient.join_eq]
  · rw [coherent.ask_start, loaded]
  · rw [coherent.ask_restart patient, ← begun]
    split
    · next was =>
      refine iff_of_false ?_ (by rw [was]; exact Bool.noConfusion)
      split
      · exact Answer.noConfusion
      · intro same
        cases same
    · next was => exact iff_of_true rfl (Bool.not_eq_true _ ▸ was)
  · intro request insistent
    rw [coherent.kind_ask_of_insists patient insistent, outlasts, chosen, Bool.or_eq_true,
      Bool.and_eq_true, decide_eq_true_eq]
  · intro request turns busy free insistent
    obtain ⟨later, asked⟩ :=
      settle_ask_eq_run ((ofOptions options).run history) request turns
    have same : busy = (ofOptions options).run (history ++ later) := by
      rw [run_append, ← asked]
    have going : busy.Coherent := by
      rw [same]
      exact coherent_run options _
    have waiting : busy.Patient := by
      rw [same]
      exact patient_run measured _
    obtain ⟨settled, stopped⟩ := going.ask_stop_of_free waiting free insistent
    refine ⟨?_, by rw [settled]; exact stopped⟩
    cases insistent with
    | false => rfl
    | true =>
      rw [ask, waiting.stopAndWait_eq, Bool.true_and]
      split <;> rfl

/-- A program that clears the display while the host holds it cannot be replaced. -/
theorem timeout_of_held_display :
    ∃ e, Conversation {}
        [(.start, .said true), (.holdDisplay, .done), (.load [0x00, 0xE0], .done)] e ∧
      e.phase = .running ∧ (e.ask (.load [0x12, 0x00])).2.kind? = some .engineTimeout := by
  have reached : Conversation {} _ _ :=
    .exchange (.exchange (.exchange .silence (.load [0x00, 0xE0]) 0 (by decide +kernel))
      .holdDisplay 0 (by decide +kernel)) .start 2 (by decide +kernel)
  obtain ⟨⟨-, running_iff, -⟩, -, -, -, timeout_iff, -⟩ :=
    lifecycle_of_conversation {} (by decide +kernel) _ _ reached
  refine ⟨_, reached, running_iff.mpr ⟨by decide +kernel, by decide +kernel⟩, ?_⟩
  exact (timeout_iff (.load [0x12, 0x00]) rfl).mpr (.inl (by decide +kernel))

/-- A host that does not wait meets the fault for a thread that merely waits for a key. One that would
wait for longer than clocks can count does not meet it for a thread that is held up. -/
theorem timeout_without_wait :
    (∃ e, Conversation { stopTimeout := .whole 0 }
        [(.start, .said true), (.load [0xF0, 0x0A], .done)] e ∧
      e.stuck = false ∧ (e.ask (.stop true)).2.kind? = some .engineTimeout) ∧
    ∃ e, Conversation { stopTimeout := .whole 9223372037 }
        [(.start, .said true), (.holdDisplay, .done), (.load [0x00, 0xE0, 0xF0, 0x0A], .done)] e ∧
      e.stuck = true ∧
        (e.ask (.load [0x12, 0x34])).2 = .failed (.unmeasurable (.whole 9223372037)) := by
  have waiting : Conversation { stopTimeout := .whole 0 } _ _ :=
    .exchange (.exchange .silence (.load [0xF0, 0x0A]) 0 (by decide +kernel))
      .start 2 (by decide +kernel)
  have heldUp : Conversation { stopTimeout := .whole 9223372037 } _ _ :=
    .exchange (.exchange (.exchange .silence (.load [0x00, 0xE0, 0xF0, 0x0A]) 0 (by decide +kernel))
      .holdDisplay 0 (by decide +kernel)) .start 2 (by decide +kernel)
  exact ⟨⟨_, waiting, by decide +kernel, by decide +kernel⟩,
    _, heldUp, by decide +kernel, by decide +kernel⟩

end Engine

end ChipEight
