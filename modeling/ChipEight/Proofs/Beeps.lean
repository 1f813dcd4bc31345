import ChipEight.Proofs.Footprint
import ChipEight.Proofs.SkippedWords

/-!
# Beeps

A sound begins when a program sets the sound timer while it stands at zero. It ends in one of two
ways: time passes until it has run out, which is the beep, or it is silenced, by a program that sets
the timer back to zero or by a load or a restart. Setting a timer that is running begins nothing and
ends nothing.

So the sounds that began are the ones that have run out, the ones that were silenced, and perhaps
one that is going on. That is what `Engine.beeps_of_history` says of every history, of the thread and
the host alike; what one operation does to the balance is `Engine.sounding_perform`, and which
operations beep is `Engine.beeps_perform`.
-/

namespace ChipEight

/-- The words that set the sound timer. -/
def Word.SetsSound (w : Word) : Prop := w.family = 0xF ∧ w.kk = 0x18

instance (w : Word) : Decidable w.SetsSound := inferInstanceAs (Decidable (_ ∧ _))

namespace Machine

variable {m : Machine} {op : Fetched}

/-- The byte that a word writes to the sound timer, if it writes one. -/
def soundWritten? (m : Machine) (op : Fetched) : Option UInt8 :=
  if op.word.SetsSound then some (m.v op.word.x) else none

theorem soundWritten?_of_decode (other : ∀ x, op.word.decode ≠ .setSound x) :
    m.soundWritten? op = none := by
  apply if_neg
  rintro ⟨family, low⟩
  exact other _ (Word.decode_eq_iff.mpr (.setSound family low))

theorem sound_execute (m : Machine) (op : Fetched) :
    (m.execute op).state.timers.sound =
      ((m.soundWritten? op).map UInt8.toNat).getD m.timers.sound := by
  by_cases sets : op.word.SetsSound
  · have decoded := Word.decode_eq_iff.mpr (.setSound sets.1 sets.2)
    have byte := (m.v op.word.x).toNat_lt
    rw [soundWritten?, if_pos sets]
    simp only [execute, decoded]
    show (((m.v op.word.x).toNat : Int) % 256).toNat = (m.v op.word.x).toNat
    omega
  · rw [soundWritten?, if_neg sets]
    apply m.confined_execute op .sound
    intro writes
    cases writes with
    | sound family low => exact sets ⟨family, low⟩

theorem timers_conclude (op : Fetched) (done : Outcome) :
    (conclude op done).state.timers = done.state.timers := by
  rw [conclude]
  split <;> rfl

theorem sound_complete (m : Machine) (op : Fetched) :
    (m.complete op).state.timers.sound =
      ((m.soundWritten? op).map UInt8.toNat).getD m.timers.sound := by
  rw [complete, timers_conclude]
  exact m.sound_execute op

theorem timers_present (m : Machine) (request : Display.Request) :
    (m.present request).state.timers = m.timers := by
  cases request <;> rfl

/-- What waits for a key or asks something of the display sets no timer. -/
theorem soundWritten?_of_waitsForKey (waiting : Engine.waitsForKey op = true) :
    m.soundWritten? op = none := by
  obtain ⟨x, decoded⟩ := Engine.waitsForKey_iff.mp waiting
  apply soundWritten?_of_decode
  intro y other
  rw [decoded] at other
  cases other

theorem soundWritten?_of_request? {request : Display.Request}
    (asked : m.request? op = some request) : m.soundWritten? op = none := by
  apply soundWritten?_of_decode
  intro x decoded
  simp only [request?, decoded] at asked
  cases asked

end Machine

/-- No instruction beeps. -/
theorem Event.count_beeped_of_instruction {events : List Event}
    (told : ∀ event ∈ events, event.ofInstruction = true) : events.count .beeped = 0 := by
  apply List.count_eq_zero.mpr
  intro mem
  have instruction := told .beeped mem
  cases instruction

/-- The sound runs out exactly if it is there before the time has passed, and gone after it. -/
theorem TickClock.beeped_pass (c : TickClock) (t : Timers) (elapsed : Int) :
    (c.pass t elapsed).beeped =
      (decide (0 < t.sound) && !decide (0 < (c.pass t elapsed).timers.sound)) := by
  have unmoved : false = (decide (0 < t.sound) && !decide (0 < t.sound)) :=
    (Bool.and_not_self _).symm
  rw [pass]
  split
  · exact unmoved
  · dsimp only
    split
    · exact unmoved
    · split
      · exact unmoved
      · simp only [Timers.runsOut, Nat.pos_iff_ne_zero, ne_eq, decide_not, Bool.not_not]

theorem TickClock.timers_of_refused {c : TickClock} {t : Timers} {elapsed : Int} {refusal : Refusal}
    (refused : (c.pass t elapsed).ticks = .error refusal) : (c.pass t elapsed).timers = t := by
  rw [pass] at refused ⊢
  split at refused <;> dsimp only at refused ⊢
  · next backwards => rw [if_pos backwards]
  · next forward =>
    rw [if_neg forward]
    split at refused
    · cases refused
    · next due =>
      rw [if_neg due]
      split at refused
      · next none => rw [if_pos none]
      · cases refused

theorem Console.count_beeped_update (c : Console) (elapsed : Int) :
    (c.update elapsed).events.count .beeped =
      (decide (0 < c.machine.timers.sound) &&
        !decide (0 < (c.update elapsed).state.machine.timers.sound)).toNat := by
  have beeped := c.clock.beeped_pass c.machine.timers elapsed
  rw [update]
  split
  · next refused =>
    show 0 = _
    dsimp only
    rw [TickClock.timers_of_refused refused, Bool.and_not_self]
    rfl
  · dsimp only
    rw [← beeped]
    cases (c.clock.pass c.machine.timers elapsed).beeped <;> rfl

namespace Engine

variable {e next last : Engine} {op : Fetched} {options : Options}

/-- Where the sound timer stands. -/
def sound (e : Engine) : Nat := e.console.machine.timers.sound

def sounding (e : Engine) : Bool := 0 < e.sound

theorem beeps_tell (e : Engine) (events : List Event) :
    (e.tell events).beeps = e.beeps + events.count .beeped := by
  rw [beeps, tell, ← Array.count_toList, Array.toList_appendList, List.count_append,
    Array.count_toList, beeps]

/-- From the first engine to the second no beep was told, and the sound timer stands at the byte
that was written, if one was. -/
structure SetsSound (e : Engine) (written : Option UInt8) (next : Engine) : Prop where
  sound : next.sound = (written.map UInt8.toNat).getD e.sound
  beeps : next.beeps = e.beeps

namespace SetsSound

variable {written : Option UInt8}

theorem refl (e : Engine) : e.SetsSound none e := ⟨rfl, rfl⟩

theorem trans (h : e.SetsSound written next) (h' : next.SetsSound none last) :
    e.SetsSound written last :=
  ⟨h'.sound.trans h.sound, h'.beeps.trans h.beeps⟩

theorem tell (h : e.SetsSound written next) {events : List Event}
    (silent : events.count .beeped = 0) : e.SetsSound written (next.tell events) :=
  ⟨h.sound, by rw [beeps_tell, silent, Nat.add_zero, h.beeps]⟩

theorem doing (e : Engine) (activity : Activity) : e.SetsSound none { e with activity } :=
  ⟨rfl, rfl⟩

theorem pass (e : Engine) : e.SetsSound none e.pass := ⟨rfl, rfl⟩

theorem finish (e : Engine) : e.SetsSound none e.finish := by
  have idle : e.SetsSound none { e with phase := .stopped, activity := .ended } := ⟨rfl, rfl⟩
  exact idle.tell rfl

theorem halt (e : Engine) (fault : Fault) : e.SetsSound none (e.halt fault) := by
  have recorded : e.SetsSound none { e with console := { e.console with fault := some fault } } :=
    ⟨rfl, rfl⟩
  exact (recorded.tell rfl).trans (finish _)

theorem conclude (e : Engine) {done : Effect Console (Except Fault Fetched)}
    (sound : done.state.machine.timers.sound = (written.map UInt8.toNat).getD e.sound)
    (told : ∀ event ∈ done.events, event.ofInstruction = true) :
    e.SetsSound written (e.conclude done) := by
  have silent := Event.count_beeped_of_instruction told
  have taken : e.SetsSound written { e with console := done.state, activity := .ready } :=
    ⟨sound, rfl⟩
  rw [Engine.conclude]
  split
  · exact taken.tell silent
  · exact (taken.tell silent).trans (halt _ _)

theorem complete (e : Engine) (op : Fetched) :
    e.SetsSound (e.console.machine.soundWritten? op) (e.complete op) := by
  apply conclude e (e.console.machine.sound_complete op)
  show ∀ event ∈ (Machine.conclude op _).events, _
  rw [Machine.events_conclude]
  exact e.console.machine.told_execute op

theorem present (e : Engine) (op : Fetched) (request : Display.Request) :
    e.SetsSound none (e.present op request) := by
  apply conclude e
  · show (Machine.conclude op _).state.timers.sound = _
    rw [Machine.timers_conclude, Machine.timers_present]
    rfl
  · show ∀ event ∈ (Machine.conclude op _).events, _
    rw [Machine.events_conclude]
    exact e.console.machine.told_present request

end SetsSound

/-! ## What is written to the timer -/

/-- The byte that is written to the sound timer by the word that an operation has a thread or a host
execute. -/
def soundWritten? (e : Engine) (operation : Operation) : Option UInt8 :=
  (e.fetched? operation).bind e.console.machine.soundWritten?

namespace SetsSound

/-- What has to wait writes nothing. -/
theorem beginInstruction (e : Engine) :
    e.SetsSound (e.console.machine.fetched?.bind e.console.machine.soundWritten?)
      e.beginInstruction := by
  cases fetched : e.console.machine.fetch with
  | error fault =>
    rw [Engine.beginInstruction, Machine.fetched?, fetched]
    exact halt e fault
  | ok op =>
    have passed : e.console.machine.fetched? = some op := by
      rw [Machine.fetched?, fetched]
      rfl
    rw [beginInstruction_of_fetch fetched, passed, Option.bind_some]
    split
    · next waiting =>
      have waits := (Bool.and_eq_true_iff.mp waiting).1
      rw [Machine.soundWritten?_of_waitsForKey waits]
      exact (pass e).trans (doing e.pass _)
    · split
      · next request heldUp =>
        have asked : e.pass.console.machine.request? op = some request :=
          request?_of_heldUp? heldUp
        have unwritten : e.console.machine.soundWritten? op = none :=
          Machine.soundWritten?_of_request? (m := e.pass.console.machine) asked
        rw [unwritten]
        exact (pass e).trans (doing e.pass _)
      · have completed := complete e.pass op
        exact ⟨completed.sound, completed.beeps⟩

/-- A turn that does not begin an instruction at most completes one that had to wait. -/
theorem turn (h : e.Suspended) : e.SetsSound (e.soundWritten? .turn) e.turn := by
  cases doing : e.activity with
  | ready =>
    simp only [Engine.turn, doing, proceed, Engine.soundWritten?, fetched?, begins, decide_true,
      Bool.true_and]
    cases e.cancelled with
    | true => exact finish e
    | false =>
      cases e.pause with
      | ends => exact ⟨rfl, rfl⟩
      | tooLong => exact finish e
      | nothing | undefined => exact beginInstruction e
  | ended =>
    rw [Engine.soundWritten?, fetched?_turn_of_busy (by simp [doing]), Engine.turn, doing]
    exact refl e
  | paused =>
    rw [Engine.soundWritten?, fetched?_turn_of_busy (by simp [doing]), Engine.turn, doing]
    dsimp only
    split
    · exact finish e
    · exact refl e
  | awaitingKey op =>
    rw [Engine.soundWritten?, fetched?_turn_of_busy (by simp [doing]), Engine.turn, doing]
    dsimp only
    split
    · have completed := complete e op
      rw [Machine.soundWritten?_of_waitsForKey (h.awaited op doing).1] at completed
      exact completed
    · split
      · exact ((refl e).tell rfl).trans (finish _)
      · exact refl e
  | atDisplay op request =>
    rw [Engine.soundWritten?, fetched?_turn_of_busy (by simp [doing]), Engine.turn, doing]
    dsimp only
    split
    · exact refl e
    · exact present e op request

/-- A thread that was asked to end begins no instruction. -/
theorem settle (h : e.Suspended) (asked : e.cancelled = true) (turns : Nat) :
    e.SetsSound none (e.settle turns) := by
  refine h.of_settle asked (P := e.SetsSound none) ?_ (refl e) turns
  intro next suspended asked earlier
  have turned := turn suspended
  rw [Engine.soundWritten?, fetched?_turn_of_cancelled asked, Option.bind_none] at turned
  exact earlier.trans turned

theorem wake (e : Engine) : e.SetsSound (e.soundWritten? .wake) e.wake := by
  rw [Engine.soundWritten?, fetched?, Engine.wake]
  split
  · exact beginInstruction e
  · exact refl e

theorem settle_requestStop (h : e.Suspended) (turns : Nat) :
    e.SetsSound none (e.requestStop.settle turns) := by
  have asked : e.SetsSound none e.requestStop := ⟨rfl, rfl⟩
  exact asked.trans (settle (h.happens .requestStop) rfl turns)

theorem stop (h : e.Suspended) : e.SetsSound none e.stop := settle_requestStop h 2

theorem stopAndWait (h : e.Suspended) (turns : Nat) :
    e.SetsSound none (e.stopAndWait turns).1 := by
  rcases stopAndWait_eq e turns with ⟨taken, same⟩ | same
  · rw [same]
    exact settle_requestStop h taken
  · rw [same]
    exact ⟨(stop h).sound, (stop h).beeps⟩

theorem start (e : Engine) : e.SetsSound none e.start.1 := by
  apply of_start (refl e)
  intro _ _
  have ready : e.SetsSound none { e with
      cancelled := false, phase := .running, activity := .ready, abandoned := false
      endSeen := false, hasRun := true } := ⟨rfl, rfl⟩
  exact ready.tell rfl

/-- The host executes an instruction itself. -/
theorem stepped (e : Engine) :
    e.SetsSound (e.console.machine.fetched?.bind e.console.machine.soundWritten?)
      (({ e with console := (e.console.act .step).state } : Engine).tell
        (e.console.act .step).events) := by
  have written : e.SetsSound (e.console.machine.fetched?.bind e.console.machine.soundWritten?)
      { e with console := (e.console.act .step).state } := by
    refine ⟨?_, rfl⟩
    show e.console.machine.step.state.timers.sound = _
    rw [Machine.step, Machine.fetched?]
    cases e.console.machine.fetch with
    | error fault => rfl
    | ok op => exact e.console.machine.advance.sound_complete op
  refine written.tell (Event.count_beeped_of_instruction ?_)
  show ∀ event ∈ e.console.machine.step.events, _
  rw [Machine.step]
  split
  · exact List.forall_mem_nil _
  · rw [Machine.complete, Machine.events_conclude]
    exact Machine.told_execute _ _

theorem step (e : Engine) :
    e.SetsSound (e.soundWritten? (.act .step)) (e.act .step).1 := by
  rw [Engine.soundWritten?, fetched?, act]
  split
  · exact refl e
  · split
    · next breaks =>
      obtain ⟨op, fetched, waiting⟩ := fetch_of_waits (waits_of_breaksOffAt breaks)
      have unwritten : e.console.machine.fetched?.bind e.console.machine.soundWritten? = none := by
        rw [Machine.fetched?, fetched]
        exact Machine.soundWritten?_of_waitsForKey waiting
      rw [unwritten]
      exact (pass e).tell rfl
    · exact stepped e

theorem setKey (e : Engine) (key : Int) (pressed : Bool) :
    e.SetsSound none (e.setKey key pressed).1 := by
  rw [Engine.setKey]
  cases set : e.console.setKey key pressed with
  | error refusal => exact refl e
  | ok console =>
    refine ⟨?_, rfl⟩
    show console.machine.timers.sound = _
    rw [Console.setKey_eq set]
    rfl

theorem after {written : Option UInt8} (h : next.SetsSound written last)
    (kept : e.SetsSound none next) : e.SetsSound written last := by
  refine ⟨?_, h.beeps.trans kept.beeps⟩
  rw [h.sound, kept.sound]
  rfl

/-- Whoever resets the console sets the timer to zero. -/
theorem renewed (e : Engine) : e.SetsSound (some 0) e.renewed := by
  have reset : e.SetsSound (some 0) { e with console := e.console.reset.state } := ⟨rfl, rfl⟩
  apply reset.tell
  rw [List.count_append, Event.count_beeped_of_instruction e.console.told_reset]
  rfl

theorem supplied {program : List UInt8} (e : Engine)
    (loaded : (e.console.load program).result = .ok ()) :
    e.SetsSound (some 0) (e.supplied program) := by
  have taken : e.SetsSound (some 0)
      { e with console := (e.console.load program).state, hasRun := false } := by
    refine ⟨?_, rfl⟩
    show (e.console.load program).state.machine.timers.sound = 0
    rw [Console.load] at loaded ⊢
    split at loaded
    · cases loaded
    · rfl
  apply taken.tell
  rw [Console.load]
  split
  · rfl
  · dsimp only
    rw [List.count_append, Event.count_beeped_of_instruction (Console.told_reset _)]
    rfl

theorem load (h : e.Suspended) (program : List UInt8) (turns : Nat) :
    e.SetsSound (if e.resets (.load program turns) then some 0 else none)
      (e.load program turns).1 := by
  apply of_load_resets (P := fun resets next =>
    e.SetsSound (if resets then some 0 else none) next) (stopAndWait h turns)
  intro loaded
  exact (supplied e.stop loaded).after (stop h)

theorem restart (h : e.Suspended) (turns : Nat) :
    e.SetsSound (if e.resets (.restart turns) then some 0 else none) (e.restart turns).1 := by
  apply of_restart_resets (P := fun resets next =>
    e.SetsSound (if resets then some 0 else none) next) (refl e) (stopAndWait h turns)
  exact ((renewed e.stop).trans (start _)).after (stop h)

end SetsSound

/-! ## Sounds that begin and end -/

/-- A program sets the timer, which stands at zero. -/
def strikes (e : Engine) (operation : Operation) : Bool :=
  !e.sounding && (e.soundWritten? operation).any (· ≠ 0)

/-- A program sets the timer to zero, or a load or a restart does, while it does not stand at
zero. -/
def silences (e : Engine) (operation : Operation) : Bool :=
  e.sounding && (e.soundWritten? operation = some 0 || e.resets operation)

/-- Time passes until the timer, which did not stand at zero, does. -/
def expires (e : Engine) : Operation → Bool
  | .act (.update elapsed) => e.sounding && !(e.update elapsed).1.sounding
  | _ => false

/-- Every operation except the passing of time sets the timer, or leaves it alone. -/
theorem SetsSound.perform (h : e.Suspended) {operation : Operation}
    (untimed : ∀ elapsed, operation ≠ .act (.update elapsed)) :
    e.SetsSound (if e.resets operation then some 0 else e.soundWritten? operation)
      (e.perform operation) := by
  cases operation with
  | load program turns => exact load h program turns
  | restart turns => exact restart h turns
  | start => exact start e
  | stopAndWait turns => exact stopAndWait h turns
  | turn => exact turn h
  | wake => exact wake e
  | act action =>
    cases action with
    | step => exact step e
    | update elapsed => exact absurd rfl (untimed elapsed)
    | setKey key pressed =>
      show e.SetsSound none (e.act (.setKey key pressed)).1
      rw [act_setKey]
      exact setKey e key pressed
  | requestStop | observe | setDebugMode | holdDisplay | releaseDisplay | addListener =>
    exact ⟨rfl, rfl⟩

/-- An operation either lets time pass or is all that `SetsSound.perform` speaks of. -/
theorem timed_or_untimed (operation : Operation) :
    (∃ elapsed, operation = .act (.update elapsed)) ∨
      ∀ elapsed, operation ≠ .act (.update elapsed) :=
  (Classical.em _).imp_right not_exists.mp

theorem expires_of_untimed {operation : Operation}
    (untimed : ∀ elapsed, operation ≠ .act (.update elapsed)) : e.expires operation = false := by
  cases operation with
  | act action =>
    cases action with
    | update elapsed => exact absurd rfl (untimed elapsed)
    | step | setKey => rfl
  | _ => rfl

theorem toNat_expires (e : Engine) (elapsed : Int) :
    (e.expires (.act (.update elapsed))).toNat =
      if e.sound ≠ 0 ∧ (e.update elapsed).1.sound = 0 then 1 else 0 := by
  simp only [expires, sounding, Nat.pos_iff_ne_zero]
  by_cases before : e.sound = 0 <;> by_cases after : (e.update elapsed).1.sound = 0 <;>
    simp [before, after]

/-- A beep is told when the sound has run out, and only then. -/
theorem beeps_perform (h : e.Suspended) (operation : Operation) :
    (e.perform operation).beeps = e.beeps + (e.expires operation).toNat := by
  rcases timed_or_untimed operation with ⟨elapsed, rfl⟩ | untimed
  · show (e.update elapsed).1.beeps = _
    rw [update, beeps_tell, e.console.count_beeped_update]
    rfl
  · rw [expires_of_untimed untimed, (SetsSound.perform h untimed).beeps]
    rfl

/-- A timer that is set sounds from then on, unless it is set to zero. -/
theorem SetsSound.balance {written : Option UInt8} (h : e.SetsSound written next) :
    (e.sounding && written = some 0).toNat + next.sounding.toNat =
      e.sounding.toNat + (!e.sounding && written.any (· ≠ 0)).toNat := by
  have stands := h.sound
  cases written with
  | none =>
    have same : next.sounding = e.sounding := congrArg (fun n => decide (0 < n)) stands
    rw [same]
    cases e.sounding <;> rfl
  | some byte =>
    have set : next.sound = byte.toNat := stands
    have rings : next.sounding = decide (byte ≠ 0) := by
      rw [sounding, set, decide_eq_decide, Nat.pos_iff_ne_zero]
      exact not_congr (UInt8.toNat_inj (b := 0))
    rw [rings]
    by_cases zero : byte = 0
    · subst zero
      cases e.sounding <;> rfl
    · cases e.sounding <;> simp [zero]

/-- Time that passes begins no sound. -/
theorem sound_update_le (h : e.WellFormed options) (elapsed : Int) :
    (e.update elapsed).1.sound ≤ e.sound := by
  show (e.console.update elapsed).state.machine.timers.sound ≤ _
  rw [Console.timers_update]
  by_cases forward : 0 ≤ elapsed
  · exact (h.console.clock.timers_pass_le e.console.machine.timers forward).2
  · rw [TickClock.pass, if_pos (Int.not_le.mp forward)]
    exact Nat.le_refl _

/-- What sounded before an operation or begins with it is silenced, runs out or goes on. -/
theorem sounding_perform (h : e.WellFormed options) (suspended : e.Suspended)
    (operation : Operation) :
    (e.silences operation).toNat + (e.expires operation).toNat +
        (e.perform operation).sounding.toNat =
      e.sounding.toNat + (e.strikes operation).toNat := by
  rcases timed_or_untimed operation with ⟨elapsed, rfl⟩ | untimed
  · have falls : (e.update elapsed).1.sounding = true → e.sounding = true := by
      intro sounds
      apply decide_eq_true
      exact Nat.lt_of_lt_of_le (of_decide_eq_true sounds) (sound_update_le h elapsed)
    have unsilenced : e.silences (.act (.update elapsed)) = false := Bool.and_false _
    have unstruck : e.strikes (.act (.update elapsed)) = false := Bool.and_false _
    rw [unsilenced, unstruck]
    show _ + (e.sounding && !(e.update elapsed).1.sounding).toNat +
      (e.update elapsed).1.sounding.toNat = _
    revert falls
    cases e.sounding <;> cases (e.update elapsed).1.sounding <;> decide
  · have balance := (SetsSound.perform suspended untimed).balance
    rw [expires_of_untimed untimed, silences, strikes]
    cases reset : e.resets operation with
    | false =>
      rw [reset, if_neg Bool.false_ne_true] at balance
      rw [Bool.or_false]
      exact balance
    | true =>
      have unwritten : e.soundWritten? operation = none := by
        cases operation with
        | load | restart => rfl
        | _ => cases reset
      rw [reset, if_pos rfl] at balance
      rw [unwritten]
      simpa using balance

/-! ## Histories -/

/-- As many beeps were told in the course of a history as sounds ran out. -/
theorem beeps_run (h : e.Suspended) (history : List Operation) :
    (e.run history).beeps = e.beeps + e.tally expires history :=
  grown_run (fun _ operation h => h.perform operation)
    (fun _ operation h => beeps_perform h operation) h history

theorem sounding_run (h : e.WellFormed options) (suspended : e.Suspended)
    (history : List Operation) :
    e.tally silences history + e.tally expires history + (e.run history).sounding.toNat =
      e.sounding.toNat + e.tally strikes history := by
  induction history generalizing e with
  | nil => simp [tally, run]
  | cons operation rest ih =>
    have first := sounding_perform h suspended operation
    have others := ih (h.perform operation) (suspended.perform operation)
    rw [run_cons, tally, tally, tally]
    omega

/-- Every sound that began in the course of a history has run out with a beep, or was silenced, or
is going on. A beep is told when time has passed and the timer, which did not stand at zero, does;
after it none is told until a program sets the timer again. -/
theorem beeps_of_history (options : Options) (history : List Operation) :
    let new := ofOptions options
    let e := new.run history
    e.beeps + new.tally silences history + e.sounding.toNat = new.tally strikes history ∧
      (∀ elapsed, (e.update elapsed).1.beeps =
        e.beeps + if e.sound ≠ 0 ∧ (e.update elapsed).1.sound = 0 then 1 else 0) ∧
      (∀ operation, (∀ elapsed, operation ≠ .act (.update elapsed)) →
        (e.perform operation).beeps = e.beeps) ∧
      ∀ elapsed later, (e.update elapsed).1.beeps ≠ e.beeps →
        (e.update elapsed).1.tally strikes later = 0 →
        ((e.update elapsed).1.run later).beeps = (e.update elapsed).1.beeps := by
  intro new e
  have suspended : e.Suspended := suspended_run options history
  have formed : e.WellFormed options := wellFormed_run options history
  have timed (elapsed : Int) :
      (e.update elapsed).1.beeps = e.beeps + (e.expires (.act (.update elapsed))).toNat :=
    beeps_perform suspended (.act (.update elapsed))
  refine ⟨?_, ?_, ?_, ?_⟩
  · have bounded : new.WellFormed options := wellFormed_ofOptions options
    have free : new.Suspended := suspended_run options []
    have told : e.beeps = 0 + new.tally expires history := beeps_run free history
    have balance : _ = 0 + new.tally strikes history := sounding_run bounded free history
    rw [told, Nat.zero_add, Nat.add_comm (new.tally expires history), balance, Nat.zero_add]
  · intro elapsed
    rw [timed, toNat_expires]
  · intro operation untimed
    exact (SetsSound.perform suspended untimed).beeps
  · intro elapsed later beeped unstruck
    have performed : e.perform (.act (.update elapsed)) = (e.update elapsed).1 := rfl
    have ended : (e.update elapsed).1.sounding = false := by
      apply Bool.eq_false_iff.mpr
      intro sounds
      apply beeped
      rw [timed, expires, sounds, Bool.not_true, Bool.and_false]
      rfl
    have formed := formed.perform (.act (.update elapsed))
    have suspended := suspended.perform (.act (.update elapsed))
    rw [performed] at formed suspended
    have balance := sounding_run formed suspended later
    rw [unstruck, ended, Bool.toNat_false] at balance
    have silent : (e.update elapsed).1.tally expires later = 0 := by omega
    rw [beeps_run suspended later, silent, Nat.add_zero]

/-- A sound of one tick runs out with the second half of the tick, and not once more while the
program goes on without setting the timer. -/
theorem beeps_of_one_tick :
    let history : List Operation := [.load [0x60, 0x01, 0xF0, 0x18, 0x12, 0x04], .act .step,
      .act .step, .act (.update 8)]
    let later : List Operation := [.act .step, .act (.update 100)]
    let new := ofOptions {}
    let e := new.run history
    let beeped := (e.update 8).1
    new.tally strikes history = 1 ∧ e.beeps = 0 ∧ beeped.beeps = 1 ∧
      (beeped.run later).beeps = 1 := by
  intro history later new e beeped
  have struck : new.tally strikes history = 1 := by decide +kernel
  have sounds : e.beeps = 0 := by decide +kernel
  have told : beeped.beeps = 1 := by decide +kernel
  have unstruck : beeped.tally strikes later = 0 := by decide +kernel
  refine ⟨struck, sounds, told, ?_⟩
  obtain ⟨-, -, -, once⟩ := beeps_of_history {} history
  refine (once 8 later ?_ unstruck).trans told
  rw [sounds]
  show beeped.beeps ≠ 0
  rw [told]
  exact Nat.one_ne_zero

end Engine

end ChipEight
