import ChipEight.Proofs.Conversation

/-!
# The display in the hands of the host

While the host holds the display, an instruction that asks something of it stops short. What is
lost is only time. The thread of an engine whose display is held goes the way of one whose
display is free, turn by turn, up to the instruction that is held up; and the first turn after the
display is released makes up for the one in which it was (`Engine.turn_holdDisplay`). So whatever
the host asks in between, the two engines meet (`Engine.settle_releaseDisplay`).

Until then nothing is seen of it: no pixel, no mode and no listener has to do with anything that
happens while the display is held, except that the host itself loads, restarts or steps
(`Engine.SamePicture.run`).
-/

namespace ChipEight

/-- An event that tells of the shape of the display. -/
def Event.isGeometry : Event → Bool
  | .modeChanged _ => true
  | .listenerTold _ _ => true
  | _ => false

/-- The words that ask something of the display. -/
def Word.AsksDisplay (w : Word) : Prop := w.toNat ∈ [0x00E0, 0x00FE, 0x00FF] ∨ w.family = 0xD

namespace Machine

variable {m : Machine} {op : Fetched}

theorem asksDisplay_of_request? {request : Display.Request} (asked : m.request? op = some request) :
    op.word.AsksDisplay := by
  unfold request? at asked
  split at asked
  · next decoded =>
    cases Word.decode_eq_iff.mp decoded with
    | clear h => exact .inl (by rw [h]; decide)
  · next decoded =>
    cases Word.decode_eq_iff.mp decoded with
    | small h | big h => exact .inl (by rw [h]; decide)
  · next decoded =>
    cases Word.decode_eq_iff.mp decoded with
    | draw h => exact .inr h
  · cases asked

/-- A word that asks nothing of the display neither changes it nor tells of it. -/
theorem display_execute (unasked : m.request? op = none) :
    (m.execute op).state.display = m.display ∧
      (m.execute op).events.filter Event.isGeometry = [] := by
  cases decoded : op.word.decode with
  | clear | selectMode =>
    simp only [request?, decoded] at unasked
    cases unasked
  | draw x y rows =>
    simp only [request?, decoded] at unasked
    simp only [execute, decoded, draw]
    cases read : m.memory.readBlock m.index rows with
    | error fault => exact ⟨rfl, rfl⟩
    | ok sprite =>
      rw [read] at unasked
      cases unasked
  | combine operation x y =>
    simp only [execute, decoded, combine]
    generalize operation.apply m.reversed (m.v x) (m.v y) = computed
    obtain ⟨result, flag⟩ := computed
    refine ⟨?_, ?_⟩
    · cases flag <;> rfl
    · simp only [fallThrough]
      split <;> rfl
  | storeDigits | store =>
    simp only [execute, decoded, writeBlock]
    split <;> exact ⟨rfl, rfl⟩
  | ret | call | skipIf =>
    simp only [execute, decoded]
    split <;> exact ⟨rfl, rfl⟩
  | restore x =>
    simp only [execute, decoded]
    split
    · exact ⟨rfl, rfl⟩
    · next values _ =>
      generalize m.processor.setLow values = p
      exact ⟨rfl, rfl⟩
  | awaitKey x =>
    simp only [execute, decoded, awaitKey]
    split <;> exact ⟨rfl, rfl⟩
  | _ =>
    simp only [execute, decoded]
    exact ⟨rfl, rfl⟩

theorem display_conclude (op : Fetched) (done : Outcome) :
    (conclude op done).state.display = done.state.display := by
  rw [conclude]
  split <;> rfl

theorem request?_of_waitsForKey (waiting : Engine.waitsForKey op = true) :
    m.request? op = none := by
  obtain ⟨x, decoded⟩ := Engine.waitsForKey_iff.mp waiting
  simp only [request?, decoded]

end Machine

namespace Engine

variable {e next : Engine} {op : Fetched} {request : Display.Request}

/-! ## Reaching the display -/

/-- The thread has passed the next instruction, and is held up at the display. -/
def stopShort (e : Engine) (op : Fetched) (request : Display.Request) : Engine :=
  { e.pass with activity := .atDisplay op request }

/-- A thread that comes to the display begins an instruction there: it has fetched and passed it,
and has done nothing else. -/
theorem beginInstruction_of_atDisplay
    (doing : e.beginInstruction.activity = .atDisplay op request) :
    e.displayHeld = true ∧ e.console.machine.fetch = .ok op ∧
      e.pass.console.machine.request? op = some request ∧
      e.beginInstruction = e.stopShort op request := by
  cases fetched : e.console.machine.fetch with
  | error fault =>
    rw [beginInstruction, fetched] at doing
    cases doing
  | ok other =>
    rw [beginInstruction_of_fetch fetched] at doing ⊢
    by_cases waiting : (waitsForKey other && !e.keyHeld) = true
    · rw [if_pos waiting] at doing
      cases doing
    · rw [if_neg waiting] at doing ⊢
      cases asked : e.pass.heldUp? other with
      | none =>
        rw [asked] at doing
        exact absurd doing
          (activity_conclude_ne e.pass _ Activity.noConfusion Activity.noConfusion)
      | some other =>
        rw [asked] at doing
        cases doing
        rw [heldUp?] at asked
        split at asked
        · next held => exact ⟨held, rfl, asked, rfl⟩
        · cases asked

/-- Between two instructions a thread comes to the display only by beginning the next one. -/
theorem turn_eq_beginInstruction_of_atDisplay (ready : e.activity = .ready)
    (doing : e.turn.activity = .atDisplay op request) : e.turn = e.beginInstruction := by
  simp only [turn, ready, proceed] at doing ⊢
  split
  · next asked =>
    rw [if_pos asked] at doing
    cases doing
  · next going =>
    rw [if_neg going] at doing
    split at doing
    · cases doing
    · cases doing
    · rfl
    · rfl

/-- The same for a thread whose pause is over. -/
theorem wake_eq_beginInstruction_of_atDisplay (pausing : e.activity = .paused)
    (doing : e.wake.activity = .atDisplay op request) : e.wake = e.beginInstruction := by
  rw [wake] at doing ⊢
  split
  · rfl
  · next calm =>
    rw [if_neg calm, pausing] at doing
    cases doing

/-- A thread is at the display after a turn only if it was there already, or was between two
instructions. -/
theorem activity_of_turn_atDisplay (doing : e.turn.activity = .atDisplay op request) :
    e.activity = .ready ∨ e.activity = .atDisplay op request ∧ e.displayHeld = true := by
  have concluded : ∀ done, (e.conclude done).activity ≠ .atDisplay op request :=
    fun done => activity_conclude_ne e done Activity.noConfusion Activity.noConfusion
  cases before : e.activity with
  | ended =>
    simp only [turn, before] at doing
    cases doing
  | ready => exact .inl rfl
  | paused =>
    simp only [turn, before] at doing
    split at doing
    · cases doing
    · rw [before] at doing
      cases doing
  | awaitingKey other =>
    simp only [turn, before] at doing
    split at doing
    · exact absurd doing (concluded _)
    · split at doing
      · cases doing
      · rw [before] at doing
        cases doing
  | atDisplay other asked =>
    simp only [turn, before] at doing
    split at doing
    · next held => exact .inr ⟨before.symm.trans doing, held⟩
    · exact absurd doing (concluded _)

/-! ## Taking the display -/

/-- The host does not hold the display, and the thread does not want it. -/
structure Unhindered (e : Engine) : Prop where
  free : e.displayHeld = false
  away : ∀ op request, e.activity ≠ .atDisplay op request

theorem unhindered_of_atRest (resting : e.atRest = true) (free : e.displayHeld = false) :
    e.Unhindered where
  free := free
  away := by
    intro op request doing
    rw [atRest, doing] at resting
    rw [free] at resting
    cases resting

@[simp] theorem activity_holdDisplay (e : Engine) : e.holdDisplay.activity = e.activity := rfl

@[simp] theorem cancelled_holdDisplay (e : Engine) : e.holdDisplay.cancelled = e.cancelled := rfl

@[simp] theorem keyHeld_holdDisplay (e : Engine) : e.holdDisplay.keyHeld = e.keyHeld := rfl

@[simp] theorem pause_holdDisplay (e : Engine) : e.holdDisplay.pause = e.pause := rfl

@[simp] theorem breaksOff_holdDisplay (e : Engine) : e.holdDisplay.breaksOff = e.breaksOff := rfl

theorem conclude_holdDisplay (e : Engine) (done : Effect Console (Except Fault Fetched)) :
    e.holdDisplay.conclude done = (e.conclude done).holdDisplay := by
  simp only [conclude]
  split <;> rfl

namespace Unhindered

theorem releaseDisplay_holdDisplay (h : e.Unhindered) : e.holdDisplay.releaseDisplay = e := by
  cases e
  cases h.free
  rfl

theorem atRest_holdDisplay (h : e.Unhindered) : e.holdDisplay.atRest = e.atRest := by
  cases doing : e.activity with
  | atDisplay op request => exact absurd doing (h.away op request)
  | ended | ready | paused | awaitingKey =>
    simp only [atRest, activity_holdDisplay, cancelled_holdDisplay, keyHeld_holdDisplay,
      breaksOff_holdDisplay, doing]

theorem beginInstruction (h : e.Unhindered) : e.beginInstruction.Unhindered where
  free := (Continues.beginInstruction e).displayHeld.trans h.free
  away := by
    intro op request doing
    have held := (beginInstruction_of_atDisplay doing).1
    rw [h.free] at held
    cases held

theorem turn (h : e.Unhindered) : e.turn.Unhindered where
  free := (Continues.turn e).displayHeld.trans h.free
  away := by
    intro op request doing
    rcases activity_of_turn_atDisplay doing with ready | ⟨held, -⟩
    · rw [turn_eq_beginInstruction_of_atDisplay ready doing] at doing
      exact h.beginInstruction.away op request doing
    · exact h.away op request held

theorem settle (h : e.Unhindered) (turns : Nat) : (e.settle turns).Unhindered :=
  of_settle (fun _ h => h.turn) h turns

theorem wake (h : e.Unhindered) : e.wake.Unhindered := by
  rw [Engine.wake]
  split
  · exact h.beginInstruction
  · exact h

theorem beginInstruction_holdDisplay (h : e.Unhindered) :
    e.holdDisplay.beginInstruction = e.beginInstruction.holdDisplay ∨
      ∃ op request, e.pass.console.machine.request? op = some request ∧
        e.beginInstruction = e.pass.complete op ∧
        e.holdDisplay.beginInstruction =
          (e.stopShort op request).holdDisplay := by
  cases fetched : e.console.machine.fetch with
  | error fault =>
    have fetched' : e.holdDisplay.console.machine.fetch = .error fault := fetched
    refine .inl ?_
    rw [Engine.beginInstruction, fetched', Engine.beginInstruction, fetched]
    rfl
  | ok op =>
    have fetched' : e.holdDisplay.console.machine.fetch = .ok op := fetched
    have unheld : e.pass.heldUp? op = none := heldUp?_of_free h.free op
    have held : e.holdDisplay.pass.heldUp? op = e.pass.console.machine.request? op := if_pos rfl
    rw [beginInstruction_of_fetch fetched', beginInstruction_of_fetch fetched, held, unheld,
      keyHeld_holdDisplay]
    by_cases waiting : (waitsForKey op && !e.keyHeld) = true
    · rw [if_pos waiting, if_pos waiting]
      exact .inl rfl
    · rw [if_neg waiting, if_neg waiting]
      cases asked : e.pass.console.machine.request? op with
      | none => exact .inl (conclude_holdDisplay e.pass _)
      | some request => exact .inr ⟨op, request, asked, rfl, rfl⟩

/-- The turn of a thread is the same whether the host holds the display or not, except in front of
an instruction that asks something of it: then it completes the instruction in the one case and
stops short in the other. -/
theorem turn_holdDisplay (h : e.Unhindered) :
    e.holdDisplay.turn = e.turn.holdDisplay ∨
      ∃ op request, e.pass.console.machine.request? op = some request ∧
        e.turn = e.pass.complete op ∧
        e.holdDisplay.turn =
          (e.stopShort op request).holdDisplay := by
  cases doing : e.activity with
  | ended =>
    refine .inl ?_
    simp only [Engine.turn, activity_holdDisplay, doing]
  | paused =>
    refine .inl ?_
    cases asked : e.cancelled with
    | true =>
      simp only [Engine.turn, activity_holdDisplay, doing, cancelled_holdDisplay, asked, if_true]
      rfl
    | false =>
      simp only [Engine.turn, activity_holdDisplay, doing, cancelled_holdDisplay, asked,
        Bool.false_eq_true, if_false]
  | atDisplay op request => exact absurd doing (h.away op request)
  | awaitingKey op =>
    refine .inl ?_
    have same : e.holdDisplay.complete op = (e.complete op).holdDisplay :=
      conclude_holdDisplay e _
    simp only [Engine.turn, activity_holdDisplay, doing, cancelled_holdDisplay,
      keyHeld_holdDisplay, breaksOff_holdDisplay, same, apply_ite holdDisplay]
    rfl
  | ready =>
    cases asked : e.cancelled with
    | true =>
      simp only [Engine.turn, activity_holdDisplay, doing, proceed, cancelled_holdDisplay, asked,
        if_true]
      exact .inl rfl
    | false =>
      simp only [Engine.turn, activity_holdDisplay, doing, proceed, cancelled_holdDisplay, asked,
        Bool.false_eq_true, if_false, pause_holdDisplay]
      cases e.pause with
      | ends | tooLong => exact .inl rfl
      | nothing | undefined => exact h.beginInstruction_holdDisplay

/-- When the display is released, the instruction that was held up is completed. -/
theorem turn_releaseDisplay (h : e.Unhindered)
    (asked : e.pass.console.machine.request? op = some request) :
    (e.stopShort op request).holdDisplay.releaseDisplay.turn = e.pass.complete op := by
  have presented : (e.stopShort op request).holdDisplay.releaseDisplay.turn =
      (e.stopShort op request).releaseDisplay.present op request := rfl
  have completed : (e.stopShort op request).releaseDisplay.present op request =
      (e.stopShort op request).releaseDisplay.complete op := present_eq_complete asked
  rw [presented, completed]
  cases e
  cases h.free
  rfl

/-- Wherever the thread has got to when the display is released, it goes on along the way that it
would have gone without the host. -/
theorem settle_releaseDisplay (h : e.Unhindered) (turns : Nat) :
    ∃ reached ≤ turns, ∀ count,
      (e.holdDisplay.settle turns).releaseDisplay.settle (count + 1) =
        e.settle (reached + count + 1) := by
  induction turns generalizing e with
  | zero =>
    refine ⟨0, Nat.le_refl 0, ?_⟩
    intro count
    rw [Engine.settle, h.releaseDisplay_holdDisplay, Nat.zero_add]
  | succ turns ih =>
    cases resting : e.atRest with
    | true =>
      refine ⟨0, Nat.zero_le _, ?_⟩
      intro count
      have still : e.holdDisplay.atRest = true := h.atRest_holdDisplay.trans resting
      rw [settle_of_atRest still, h.releaseDisplay_holdDisplay, Nat.zero_add]
    | false =>
      have busy : e.holdDisplay.atRest = false := h.atRest_holdDisplay.trans resting
      rw [settle_succ busy]
      rcases h.turn_holdDisplay with same | ⟨op, request, asked, free, held⟩
      · obtain ⟨reached, le, met⟩ := ih h.turn
        refine ⟨reached + 1, Nat.succ_le_succ le, ?_⟩
        intro count
        rw [same, met count, Nat.succ_add, Nat.succ_add, settle_succ resting]
      · -- the held thread stays here however many turns it is given, and its first turn after the
        -- release is the one that the free thread took
        refine ⟨0, Nat.zero_le _, ?_⟩
        intro count
        have waiting : (e.stopShort op request).holdDisplay.atRest = true := rfl
        have going : (e.stopShort op request).holdDisplay.releaseDisplay.atRest = false := rfl
        rw [held, settle_of_atRest waiting, settle_succ going, h.turn_releaseDisplay asked,
          Nat.zero_add, settle_succ resting, free]

/-! ## Requests in between -/

theorem requestStop (h : e.Unhindered) : e.requestStop.Unhindered := ⟨h.free, h.away⟩

/-- A thread that was asked to end begins no instruction, and so wants nothing of the display. -/
theorem turn_holdDisplay_of_cancelled (h : e.Unhindered) (asked : e.cancelled = true) :
    e.holdDisplay.turn = e.turn.holdDisplay := by
  rcases h.turn_holdDisplay with same | ⟨op, request, -, -, held⟩
  · exact same
  · have doing : e.holdDisplay.turn.activity = .atDisplay op request := by
      rw [held]
      rfl
    exact absurd (activity_turn_of_cancelled (e := e.holdDisplay) asked doing) (h.away op request)

theorem settle_holdDisplay_of_cancelled (h : e.Unhindered) (asked : e.cancelled = true)
    (turns : Nat) : e.holdDisplay.settle turns = (e.settle turns).holdDisplay := by
  induction turns generalizing e with
  | zero => rfl
  | succ turns ih =>
    have still : e.turn.cancelled = true := (Continues.turn e).cancelled.trans asked
    cases resting : e.atRest with
    | true => rw [settle_of_atRest (h.atRest_holdDisplay.trans resting), settle_of_atRest resting]
    | false =>
      rw [settle_succ (h.atRest_holdDisplay.trans resting), settle_succ resting,
        h.turn_holdDisplay_of_cancelled asked, ih h.turn still]

theorem stop_holdDisplay (h : e.Unhindered) : e.holdDisplay.stop = e.stop.holdDisplay :=
  h.requestStop.settle_holdDisplay_of_cancelled rfl 2

theorem stop (h : e.Unhindered) : e.stop.Unhindered := h.requestStop.settle 2

theorem stopAndWait_holdDisplay (h : e.Unhindered) :
    e.holdDisplay.stopAndWait = (e.stopAndWait.1.holdDisplay, e.stopAndWait.2) := by
  have later : e.holdDisplay.requestStop.settle (e.turnsAwaited 2) =
      (e.requestStop.settle (e.turnsAwaited 2)).holdDisplay :=
    h.requestStop.settle_holdDisplay_of_cancelled rfl _
  have dismissed : e.holdDisplay.dismissed = e.dismissed := rfl
  have awaited : e.holdDisplay.turnsAwaited 2 = e.turnsAwaited 2 := rfl
  have same : e.holdDisplay.console = e.console := rfl
  simp only [Engine.stopAndWait, dismissed, awaited, same, later, h.stop_holdDisplay,
    activity_holdDisplay]
  split
  · rfl
  · split
    · split <;> rfl
    · split <;> rfl

theorem stopAndWait (h : e.Unhindered) (turns : Nat) : (e.stopAndWait turns).1.Unhindered := by
  rcases stopAndWait_eq e turns with ⟨taken, same⟩ | same
  · rw [same]
    exact h.requestStop.settle taken
  · rw [same]
    exact ⟨h.stop.free, h.stop.away⟩

theorem load_holdDisplay (h : e.Unhindered) (program : List UInt8) :
    e.holdDisplay.load program = ((e.load program).1.holdDisplay, (e.load program).2) := by
  rw [load, h.stopAndWait_holdDisplay, load]
  rcases e.stopAndWait with ⟨stopped, failure | ended⟩
  · rfl
  · cases result : (stopped.console.load program).result with
    | error fault =>
      have result' : (stopped.holdDisplay.console.load program).result = .error fault := result
      simp only [result, result']
    | ok =>
      have result' : (stopped.holdDisplay.console.load program).result = .ok () := result
      simp only [result, result']
      rfl

end Unhindered

theorem start_holdDisplay (e : Engine) :
    e.holdDisplay.start = (e.start.1.holdDisplay, e.start.2) := by
  rw [start, start]
  show (if !e.console.loaded then _ else if e.phase ≠ .stopped || !e.join then _ else _) = _
  split
  · rfl
  · split <;> rfl

namespace Unhindered

theorem restart_holdDisplay (h : e.Unhindered) :
    e.holdDisplay.restart = (e.restart.1.holdDisplay, e.restart.2) := by
  rw [restart, h.stopAndWait_holdDisplay, restart]
  show (if !e.hasRun then _ else _) = _
  cases e.hasRun with
  | false => rfl
  | true =>
    rcases e.stopAndWait with ⟨stopped, failure | ended⟩
    · rfl
    · have begun : stopped.holdDisplay.renewed.start =
          (stopped.renewed.start.1.holdDisplay, stopped.renewed.start.2) :=
        start_holdDisplay stopped.renewed
      exact congrArg (fun done : Engine × Except Fault Bool =>
        (done.1, done.2.mapError Failure.fault)) begun

/-- What the host asks for is done and answered as if it did not hold the display. -/
theorem ask_holdDisplay (h : e.Unhindered) {request : Request}
    (release : request ≠ .releaseDisplay) :
    e.holdDisplay.ask request = ((e.ask request).1.holdDisplay, (e.ask request).2) := by
  cases request with
  | load program => simp only [ask, h.load_holdDisplay]
  | start => simp only [ask, start_holdDisplay]
  | stop insistent =>
    cases insistent with
    | false => rfl
    | true => simp only [ask, h.stopAndWait_holdDisplay]
  | restart => simp only [ask, h.restart_holdDisplay]
  | setKey key pressed =>
    cases set : e.console.setKey key pressed with
    | error refusal =>
      have set' : e.holdDisplay.console.setKey key pressed = .error refusal := set
      simp only [ask, setKey, set, set']
    | ok console =>
      have set' : e.holdDisplay.console.setKey key pressed = .ok console := set
      simp only [ask, setKey, set, set']
      rfl
  | update elapsed =>
    cases passed : (e.console.update elapsed).result with
    | error refusal =>
      have passed' : (e.holdDisplay.console.update elapsed).result = .error refusal := passed
      simp only [ask, update, passed, passed']
      rfl
    | ok =>
      have passed' : (e.holdDisplay.console.update elapsed).result = .ok () := passed
      simp only [ask, update, passed, passed']
      rfl
  | releaseDisplay => exact absurd rfl release
  | join | setDebugMode | holdDisplay => rfl

theorem load (h : e.Unhindered) (program : List UInt8) (turns : Nat) :
    (e.load program turns).1.Unhindered := by
  apply of_load (h.stopAndWait turns)
  intro _ _
  exact ⟨h.stop.free, h.stop.away⟩

theorem start (h : e.Unhindered) : e.start.1.Unhindered := by
  apply of_start h
  intro _ _
  exact ⟨h.free, fun _ _ => Activity.noConfusion⟩

theorem restart (h : e.Unhindered) (turns : Nat) : (e.restart turns).1.Unhindered := by
  apply of_restart h (h.stopAndWait turns)
  intro _
  have renewed : e.stop.renewed.Unhindered := ⟨h.stop.free, h.stop.away⟩
  exact renewed.start

theorem ask (h : e.Unhindered) {request : Request} (hold : request ≠ .holdDisplay) :
    (e.ask request).1.Unhindered := by
  cases request with
  | load program => exact h.load program 2
  | start => exact h.start
  | stop insistent =>
    cases insistent with
    | false => exact h.requestStop
    | true => exact h.stopAndWait 2
  | restart => exact h.restart 2
  | setKey key pressed =>
    simp only [Engine.ask, setKey]
    cases e.console.setKey key pressed with
    | error refusal => exact h
    | ok console => exact ⟨h.free, h.away⟩
  | update elapsed =>
    simp only [Engine.ask, update]
    cases (e.console.update elapsed).result with
    | error refusal => exact ⟨h.free, h.away⟩
    | ok => exact ⟨h.free, h.away⟩
  | holdDisplay => exact absurd rfl hold
  | releaseDisplay => exact ⟨rfl, h.away⟩
  | join | setDebugMode => exact ⟨h.free, h.away⟩

end Unhindered

/-! ## Where the thread comes to rest -/

/-- Left to itself the engine comes to rest, as `rest`. -/
def ComesToRest (e rest : Engine) : Prop := rest.atRest = true ∧ ∃ turns, e.settle turns = rest

/-- An engine on which the host acted while it held the display, and the engine on which it acted
without, come to rest as the same engine, or neither comes to rest. -/
theorem Unhindered.comesToRest_iff (h : e.Unhindered) (turns : Nat) (rest : Engine) :
    ComesToRest (e.holdDisplay.settle turns).releaseDisplay rest ↔ ComesToRest e rest := by
  obtain ⟨reached, -, met⟩ := h.settle_releaseDisplay turns
  constructor
  · rintro ⟨resting, count, rfl⟩
    refine ⟨resting, reached + count + 1, ?_⟩
    rw [← met count]
    exact settle_of_le resting (Nat.le_succ count)
  · rintro ⟨resting, count, rfl⟩
    refine ⟨resting, count + 1, ?_⟩
    rw [met count]
    exact settle_of_le resting (by omega)

/-! ## What is seen of the display -/

/-- Everything that was told of the shape of the display. -/
def geometry (e : Engine) : List Event := e.journal.toList.filter Event.isGeometry

theorem geometry_tell (e : Engine) (events : List Event) :
    (e.tell events).geometry = e.geometry ++ events.filter Event.isGeometry := by
  rw [geometry, tell, Array.toList_appendList, List.filter_append, geometry]

/-- The display shows the same, nobody has been told anything new of its shape, and the host holds
it or not as before. -/
structure SamePicture (e next : Engine) : Prop where
  surface : next.console.machine.display.surface = e.console.machine.display.surface
  geometry : next.geometry = e.geometry
  held : next.displayHeld = e.displayHeld

namespace SamePicture

variable {last : Engine}

theorem refl (e : Engine) : e.SamePicture e := ⟨rfl, rfl, rfl⟩

theorem trans (h : e.SamePicture next) (h' : next.SamePicture last) : e.SamePicture last :=
  ⟨h'.surface.trans h.surface, h'.geometry.trans h.geometry, h'.held.trans h.held⟩

theorem tell (h : e.SamePicture next) {events : List Event}
    (plain : events.filter Event.isGeometry = []) : e.SamePicture (next.tell events) where
  surface := h.surface
  geometry := by rw [geometry_tell, plain, List.append_nil, h.geometry]
  held := h.held

theorem finish (e : Engine) : e.SamePicture e.finish := by
  have idle : e.SamePicture { e with phase := .stopped, activity := .ended } := ⟨rfl, rfl, rfl⟩
  exact idle.tell rfl

theorem halt (e : Engine) (fault : Fault) : e.SamePicture (e.halt fault) := by
  have recorded : e.SamePicture { e with console := { e.console with fault := some fault } } :=
    ⟨rfl, rfl, rfl⟩
  exact (recorded.tell rfl).trans (finish _)

theorem conclude (e : Engine) {done : Effect Console (Except Fault Fetched)}
    (surface : done.state.machine.display.surface = e.console.machine.display.surface)
    (plain : done.events.filter Event.isGeometry = []) : e.SamePicture (e.conclude done) := by
  have taken : e.SamePicture { e with console := done.state, activity := .ready } :=
    ⟨surface, rfl, rfl⟩
  rw [Engine.conclude]
  split
  · exact taken.tell plain
  · exact (taken.tell plain).trans (halt _ _)

/-- An instruction that asks nothing of the display is completed. -/
theorem complete (e : Engine) (unasked : e.console.machine.request? op = none) :
    e.SamePicture (e.complete op) := by
  obtain ⟨display, plain⟩ := Machine.display_execute unasked
  apply conclude
  · show (Machine.conclude op _).state.display.surface = _
    rw [Machine.display_conclude, display]
  · show (Machine.conclude op _).events.filter Event.isGeometry = []
    rw [Machine.events_conclude]
    exact plain

theorem pass (e : Engine) : e.SamePicture e.pass := ⟨rfl, rfl, rfl⟩

theorem doing (e : Engine) (activity : Activity) : e.SamePicture { e with activity } :=
  ⟨rfl, rfl, rfl⟩

theorem beginInstruction (held : e.displayHeld = true) : e.SamePicture e.beginInstruction := by
  cases fetched : e.console.machine.fetch with
  | error fault =>
    rw [Engine.beginInstruction, fetched]
    exact halt e fault
  | ok op =>
    have asked : e.pass.heldUp? op = e.pass.console.machine.request? op := if_pos held
    rw [beginInstruction_of_fetch fetched, asked]
    split
    · exact (pass e).trans (doing e.pass _)
    · split
      · exact (pass e).trans (doing e.pass _)
      · next unasked => exact (pass e).trans (complete e.pass unasked)

/-- Whatever the thread does while the host holds the display, the display is left alone. -/
theorem turn (held : e.displayHeld = true) (suspended : e.Suspended) : e.SamePicture e.turn := by
  cases doing : e.activity with
  | ended =>
    simp only [Engine.turn, doing]
    exact refl e
  | ready =>
    simp only [Engine.turn, doing, proceed]
    split
    · exact finish e
    · split
      · exact SamePicture.doing e .paused
      · exact finish e
      · exact beginInstruction held
      · exact beginInstruction held
  | paused =>
    simp only [Engine.turn, doing]
    split
    · exact finish e
    · exact refl e
  | awaitingKey op =>
    simp only [Engine.turn, doing]
    split
    · exact complete e (Machine.request?_of_waitsForKey (suspended.awaited op doing).1)
    · split
      · exact ((refl e).tell rfl).trans (finish _)
      · exact refl e
  | atDisplay op request =>
    simp only [Engine.turn, doing, held, if_true]
    exact refl e

theorem settle (held : e.displayHeld = true) (suspended : e.Suspended) (turns : Nat) :
    e.SamePicture (e.settle turns) := by
  refine (of_settle (P := fun next =>
    e.SamePicture next ∧ next.displayHeld = true ∧ next.Suspended) ?_ ⟨refl e, held, suspended⟩
    turns).1
  rintro next busy ⟨same, held, suspended⟩
  have turned := turn held suspended
  exact ⟨same.trans turned, turned.held.trans held, .turn busy⟩

end SamePicture

/-- The operations in which the host itself neither changes the display nor lets go of it. -/
def Operation.sparesDisplay : Operation → Bool
  | .load _ _ => false
  | .restart _ => false
  | .act .step => false
  | .releaseDisplay => false
  | _ => true

namespace SamePicture

theorem settle_requestStop (held : e.displayHeld = true) (suspended : e.Suspended) (turns : Nat) :
    e.SamePicture (e.requestStop.settle turns) := by
  have asked : e.SamePicture e.requestStop := ⟨rfl, rfl, rfl⟩
  have still : e.requestStop.displayHeld = true := held
  have reason : e.requestStop.Suspended := ⟨suspended.awaited, suspended.paused⟩
  exact asked.trans (settle still reason turns)

theorem stopAndWait (held : e.displayHeld = true) (suspended : e.Suspended) (turns : Nat) :
    e.SamePicture (e.stopAndWait turns).1 := by
  rcases stopAndWait_eq e turns with ⟨taken, same⟩ | same
  · rw [same]
    exact settle_requestStop held suspended taken
  · rw [same]
    have stopped := settle_requestStop held suspended 2
    exact ⟨stopped.surface, stopped.geometry, stopped.held⟩

theorem start (e : Engine) : e.SamePicture e.start.1 := by
  apply of_start (refl e)
  intro _ _
  have ready : e.SamePicture { e with
      cancelled := false, phase := .running, activity := .ready, abandoned := false
      endSeen := false, hasRun := true } := ⟨rfl, rfl, rfl⟩
  exact ready.tell rfl

theorem update (e : Engine) (elapsed : Int) : e.SamePicture (e.update elapsed).1 := by
  have surface : (e.console.update elapsed).state.machine.display.surface =
      e.console.machine.display.surface := by
    rw [Console.machine_update]
  have plain : (e.console.update elapsed).events.filter Event.isGeometry = [] := by
    rw [Console.update]
    split
    · rfl
    · dsimp only
      split <;> rfl
  have timed : e.SamePicture { e with console := (e.console.update elapsed).state } :=
    ⟨surface, rfl, rfl⟩
  exact timed.tell plain

theorem setKey (e : Engine) (key : Int) (pressed : Bool) :
    e.SamePicture (e.setKey key pressed).1 := by
  rw [Engine.setKey]
  cases set : e.console.setKey key pressed with
  | error refusal => exact refl e
  | ok console =>
    refine ⟨?_, rfl, rfl⟩
    rw [Console.setKey_eq set]

theorem perform (held : e.displayHeld = true) (suspended : e.Suspended) {operation : Operation}
    (spares : operation.sparesDisplay = true) :
    e.SamePicture (e.perform operation) := by
  cases operation with
  | load | restart | releaseDisplay => cases spares
  | start => exact start e
  | stopAndWait turns => exact stopAndWait held suspended turns
  | act action =>
    cases action with
    | step => cases spares
    | update elapsed =>
      rw [Engine.perform, act_update]
      exact update e elapsed
    | setKey key pressed =>
      rw [Engine.perform, act_setKey]
      exact setKey e key pressed
  | holdDisplay => exact ⟨rfl, rfl, held.symm⟩
  | turn => exact turn held suspended
  | wake =>
    rw [Engine.perform, Engine.wake]
    split
    · exact beginInstruction held
    · exact refl e
  | requestStop | observe | setDebugMode | addListener => exact ⟨rfl, rfl, rfl⟩

/-- However long the host holds the display, and whatever it does meanwhile except to the display
itself, the picture stays. -/
theorem run {options : Options} {history : List Operation}
    (held : ((ofOptions options).run history).displayHeld = true) {later : List Operation}
    (spare : ∀ operation ∈ later, operation.sparesDisplay = true) :
    ((ofOptions options).run history).SamePicture
      (((ofOptions options).run history).run later) := by
  induction later generalizing history with
  | nil => exact refl _
  | cons operation rest ih =>
    obtain ⟨first, others⟩ := List.forall_mem_cons.mp spare
    have same := perform held (suspended_run options history) first
    have extended : (ofOptions options).run (history ++ [operation]) =
        ((ofOptions options).run history).perform operation := run_append _ _ _
    rw [run_cons, ← extended]
    rw [← extended] at same
    exact same.trans (ih (same.held.trans held) others)

end SamePicture

/-! ## The whole of it -/

/-- An instruction that is held up has moved the program counter past its word, and has done
nothing else. -/
theorem WellFormed.stopShort_eq {options : Options} (h : e.WellFormed options)
    (fetched : e.console.machine.fetch = .ok op) (request : Display.Request) :
    e.stopShort op request =
      { e with
        console := { e.console with machine := e.console.machine.goto (e.console.machine.pc + 2) }
        activity := .atDisplay op request } := by
  obtain ⟨fetches, -⟩ := Machine.fetches_of_fetch h.console.machine.memory fetched
  rw [stopShort, pass, Machine.advance_of_fetches fetches]

/-- Holding the display only delays. An engine at rest of which something is asked while the host
holds the display is answered the same as one whose display is free; when the display is released
it goes the same way and comes to rest the same. Until then the picture stays, and an
instruction that is held up has done nothing but move the program counter past its word. -/
theorem held_display_delays (options : Options) (history : List Operation) :
    let e := (ofOptions options).run history
    (e.atRest = true → e.displayHeld = false → ∀ request : Request,
      request ≠ .holdDisplay → request ≠ .releaseDisplay → ∀ before,
        let alone := e.ask request
        let held := (e.holdDisplay.settle before).ask request
        held.2 = alone.2 ∧ ∀ turns,
          (∃ reached ≤ turns, ∀ count,
            (held.1.settle turns).releaseDisplay.settle (count + 1) =
              alone.1.settle (reached + count + 1)) ∧
          ∀ rest, ComesToRest (held.1.settle turns).releaseDisplay rest ↔
            ComesToRest alone.1 rest) ∧
      (e.displayHeld = true → ∀ later : List Operation,
        (∀ operation ∈ later, operation.sparesDisplay = true) →
          (e.run later).console.machine.display.surface = e.console.machine.display.surface ∧
            (e.run later).geometry = e.geometry) ∧
      ∀ op request next,
        (e.atRest = false ∧ next = e.turn ∨ e.activity = .paused ∧ next = e.wake) →
        next.activity = .atDisplay op request →
        e.displayHeld = true ∧ op = e.console.machine.current ∧ op.word.AsksDisplay ∧
          next =
            { e with
              console :=
                { e.console with machine := e.console.machine.goto (e.console.machine.pc + 2) }
              activity := .atDisplay op request } := by
  intro e
  have formed : e.WellFormed options := wellFormed_run options history
  refine ⟨?_, ?_, ?_⟩
  · intro resting free request hold release before
    have unhindered := unhindered_of_atRest resting free
    have still : e.holdDisplay.settle before = e.holdDisplay :=
      settle_of_atRest (unhindered.atRest_holdDisplay.trans resting) before
    have asked := unhindered.ask hold
    dsimp only
    rw [still, unhindered.ask_holdDisplay release]
    exact ⟨rfl, fun turns => ⟨asked.settle_releaseDisplay turns, asked.comesToRest_iff turns⟩⟩
  · intro held later spare
    have same := SamePicture.run held spare
    exact ⟨same.surface, same.geometry⟩
  · intro op request next moved doing
    have begun : next = e.beginInstruction := by
      rcases moved with ⟨busy, rfl⟩ | ⟨pausing, rfl⟩
      · rcases activity_of_turn_atDisplay doing with ready | ⟨waiting, held⟩
        · exact turn_eq_beginInstruction_of_atDisplay ready doing
        · rw [atRest, waiting] at busy
          exact absurd (held.symm.trans busy) Bool.noConfusion
      · exact wake_eq_beginInstruction_of_atDisplay pausing doing
    rw [begun] at doing ⊢
    obtain ⟨held, fetched, asked, stopped⟩ := beginInstruction_of_atDisplay doing
    obtain ⟨-, current⟩ := Machine.fetches_of_fetch formed.console.machine.memory fetched
    refine ⟨held, current, Machine.asksDisplay_of_request? asked, ?_⟩
    rw [stopped, formed.stopShort_eq fetched]

/-- A program that clears the display, started while the host holds it: the thread stops short,
and after the release it comes to rest where it would have come to rest anyhow. -/
theorem held_display_delays_start :
    let e := (ofOptions {}).run [.load [0x00, 0xE0, 0xF0, 0x0A]]
    let held := e.holdDisplay.start.1.settle 2
    held.stuck = true ∧ held.console.executed = 0 ∧
      ComesToRest held.releaseDisplay (e.start.1.settle 2) := by
  obtain ⟨delays, -, -⟩ := held_display_delays {} [.load [0x00, 0xE0, 0xF0, 0x0A]]
  generalize eq : (ofOptions {}).run [.load [0x00, 0xE0, 0xF0, 0x0A]] = e at delays
  have resting : e.atRest = true ∧ e.displayHeld = false := by
    rw [← eq]
    decide +kernel
  have stuck : (e.holdDisplay.start.1.settle 2).stuck = true ∧
      (e.holdDisplay.start.1.settle 2).console.executed = 0 := by
    rw [← eq]
    decide +kernel
  have rests : (e.start.1.settle 2).atRest = true := by
    rw [← eq]
    decide +kernel
  obtain ⟨-, met⟩ := delays resting.1 resting.2 .start Request.noConfusion Request.noConfusion 0
  exact ⟨stuck.1, stuck.2, ((met 2).2 _).mpr ⟨rests, 2, rfl⟩⟩

end Engine

end ChipEight
