import ChipEight.Proofs.Threads

/-!
# Skipped words

A word outside the instruction table stops nothing. It is noted with the reason and passed, and
nothing else of it happens; every other word leaves the notes alone. So the notes can be told from
the words that were executed: they are the latest ones that those words call for, as many of them
as the limit keeps, beginning anew with every load and restart (`Engine.notes_of_history`).

Which words are outside the table is said by `Word.skippedAs?` without a look at the way a word is
decoded, and which words are executed in the course of a history by `Engine.wordsSince`: a word is
executed when a thread or a host fetches it.
-/

namespace ChipEight

namespace Word

variable {w : Word}

/-- The scroll instructions of a larger machine: `00Cn`, `00FB` and `00FC`. -/
def IsScroll (w : Word) : Prop := w.toNat / 16 = 0x00C ∨ w.toNat = 0x00FB ∨ w.toNat = 0x00FC

instance (w : Word) : Decidable w.IsScroll := inferInstanceAs (Decidable (_ ∨ _))

/-- The other words that no line of the instruction table has, family by family. -/
def IsUnlisted (w : Word) : Prop :=
  w.family = 0x0 ∧ (w.x ≠ 0 ∨ ¬ w.IsScroll ∧ w.kk ∉ ([0xE0, 0xEE, 0xFE, 0xFF] : List UInt8)) ∨
  (w.family = 0x5 ∨ w.family = 0x9) ∧ w.n ≠ 0 ∨
  w.family = 0x8 ∧ (0x8 ≤ w.n ∧ w.n ≤ 0xD ∨ w.n = 0xF) ∨
  w.family = 0xB ∨
  w.family = 0xE ∧ w.kk ∉ keyBytes ∨
  w.family = 0xF ∧ w.kk ∉ miscBytes

instance (w : Word) : Decidable w.IsUnlisted := inferInstanceAs (Decidable (_ ∨ _))

/-- Why a word is skipped, if it is. -/
def skippedAs? (w : Word) : Option Diagnostic.Kind :=
  if w.IsScroll then some .unsupported
  else if w.IsUnlisted then some .unknown
  else none

theorem operation?_eq_none_iff : w.operation? = none ↔ 0x8 ≤ w.n ∧ w.n ≤ 0xD ∨ w.n = 0xF := by
  have lt := w.n_lt
  unfold operation?
  split
  case h_10 => grind
  all_goals
    next last =>
      rw [last]
      decide

/-- Among the words that start with two zero nibbles the scroll instructions are told apart by the
third nibble or by the low byte. -/
theorem isScroll_iff_of_system (family : w.family = 0) (x : w.x = 0) :
    w.IsScroll ↔ w.y = 0xC ∨ w.kk = 0xFB ∨ w.kk = 0xFC := by
  have size := w.toNat_lt
  have second : w.x.val = 0 := congrArg Fin.val x
  have third : w.y = 0xC ↔ w.y.val = 0xC := Fin.ext_iff
  have low (byte : UInt8) : w.kk = byte ↔ w.kk.toNat = byte.toNat := UInt8.toNat_inj.symm
  simp only [Word.family, val_x, val_y, toNat_kk] at family second third low
  rw [third, low, low, IsScroll]
  show _ ↔ _ ∨ _ = 0xFB ∨ _ = 0xFC
  omega

theorem isScroll_iff : w.IsScroll ↔ w.Denotes (.skipWord .unsupported) := by
  constructor
  · rintro (down | across)
    · have lt := w.toNat_lt
      refine .scrollDown ?_ (Fin.ext ?_) (Fin.ext ?_)
      · show w.toNat / 4096 = 0
        omega
      · show w.toNat / 256 % 16 = 0
        omega
      · show w.toNat / 16 % 16 = 0xC
        omega
    · exact .scrollAcross across
  · intro word
    cases word with
    | scrollDown family x y => exact (isScroll_iff_of_system family x).mpr (.inl y)
    | scrollAcross h => exact .inr h

theorem isUnlisted_iff : w.IsUnlisted ↔ w.Denotes (.skipWord .unknown) := by
  have system (family : w.family = 0) : (w.x ≠ 0 ∨ w.y ≠ 0xC ∧ w.kk ∉ systemBytes) ↔
      (w.x ≠ 0 ∨ ¬ w.IsScroll ∧ w.kk ∉ ([0xE0, 0xEE, 0xFE, 0xFF] : List UInt8)) := by
    by_cases x : w.x = 0
    · rw [isScroll_iff_of_system family x]
      simp only [systemBytes, List.mem_cons, List.not_mem_nil]
      grind
    · exact iff_of_true (.inl x) (.inl x)
  constructor
  · rintro (⟨family, low⟩ | ⟨family, last⟩ | ⟨family, last⟩ | family | ⟨family, low⟩ |
      ⟨family, low⟩)
    · exact .noSystem family ((system family).mpr low)
    · exact .noTest family last
    · exact .noOperation family (operation?_eq_none_iff.mpr last)
    · exact .noFamily family
    · exact .noKeyTest family low
    · exact .noMisc family low
  · intro word
    cases word with
    | noSystem family low => exact .inl ⟨family, (system family).mp low⟩
    | noTest family last => exact .inr (.inl ⟨family, last⟩)
    | noOperation family last =>
      exact .inr (.inr (.inl ⟨family, operation?_eq_none_iff.mp last⟩))
    | noFamily family => exact .inr (.inr (.inr (.inl family)))
    | noKeyTest family low => exact .inr (.inr (.inr (.inr (.inl ⟨family, low⟩))))
    | noMisc family low => exact .inr (.inr (.inr (.inr (.inr ⟨family, low⟩))))

/-- The words that are decoded to be skipped are those outside the table. -/
theorem decode_eq_skipWord_iff {kind : Diagnostic.Kind} :
    w.decode = .skipWord kind ↔ w.skippedAs? = some kind := by
  have scroll := isScroll_iff.trans (decode_eq_iff (w := w)).symm
  have unlisted := isUnlisted_iff.trans (decode_eq_iff (w := w)).symm
  simp only [skippedAs?, scroll, unlisted]
  constructor
  · intro decoded
    cases kind <;> simp only [decoded, Instruction.skipWord.injEq, reduceCtorEq, if_true, if_false]
  · intro skipped
    split at skipped
    · next decoded =>
      cases skipped
      exact decoded
    · split at skipped
      · next decoded =>
        cases skipped
        exact decoded
      · cases skipped

end Word

/-! ## Notes -/

/-- The note that a word calls for, if it is to be skipped. -/
def Fetched.note? (op : Fetched) : Option Diagnostic :=
  op.word.skippedAs?.map fun kind => { kind, addr := op.addr, word := op.word }

theorem Fetched.note?_of_decode {op : Fetched} {kind : Diagnostic.Kind}
    (decoded : op.word.decode = .skipWord kind) :
    op.note? = some { kind, addr := op.addr, word := op.word } := by
  rw [note?, Word.decode_eq_skipWord_iff.mp decoded, Option.map_some]

/-- A word that is decoded to anything else calls for no note. -/
theorem Fetched.note?_eq_none {op : Fetched}
    (other : ∀ kind, op.word.decode ≠ .skipWord kind) : op.note? = none := by
  rw [note?, Option.map_eq_none_iff, Option.eq_none_iff_forall_not_mem]
  intro kind skipped
  exact other kind (Word.decode_eq_skipWord_iff.mpr skipped)

theorem Fetched.decode_of_note? {op : Fetched} {d : Diagnostic} (note : op.note? = some d) :
    ∃ kind, op.word.decode = .skipWord kind ∧ d = { kind, addr := op.addr, word := op.word } := by
  obtain ⟨kind, skipped, noted⟩ := Option.map_eq_some_iff.mp note
  exact ⟨kind, Word.decode_eq_skipWord_iff.mpr skipped, noted.symm⟩

namespace DiagnosticLog

/-- The last notes of a list, as many as a limit keeps. -/
def lastOf : Option Nat → List Diagnostic → List Diagnostic
  | none, notes => notes
  | some limit, notes => notes.drop (notes.length - limit)

theorem lastOf_nil (limit : Option Nat) : lastOf limit [] = [] := by
  cases limit with
  | none => rfl
  | some limit => exact List.drop_nil

/-- Forgetting early notes beforehand makes no difference to what is kept in the end. -/
theorem lastOf_append_lastOf (limit : Option Nat) (notes : List Diagnostic) (d : Diagnostic) :
    lastOf limit (lastOf limit notes ++ [d]) = lastOf limit (notes ++ [d]) := by
  cases limit with
  | none => rfl
  | some limit =>
    have start : notes.length - limit ≤ notes.length := Nat.sub_le _ _
    simp only [lastOf]
    rw [← List.drop_append_of_le_length start, List.drop_drop, List.length_drop]
    congr 1
    simp only [List.length_append, List.length_singleton]
    omega

theorem toList_push (log : DiagnosticLog) (d : Diagnostic) :
    (log.push d).toList = lastOf log.limit (log.toList ++ [d]) := by
  have newest : log.toList ++ [d] = (d :: log.latest).reverse := List.reverse_cons.symm
  rw [newest]
  show (keep log.limit (d :: log.latest)).reverse = _
  cases log.limit with
  | none => rfl
  | some limit =>
    show (List.take limit _).reverse = List.drop _ _
    rw [List.reverse_take, List.length_reverse]

/-- The log after a word has been executed, if one has. -/
def passing (log : DiagnosticLog) (fetched : Option Fetched) : DiagnosticLog :=
  match fetched.bind Fetched.note? with
  | some d => log.push d
  | none => log

@[simp] theorem passing_none (log : DiagnosticLog) : log.passing none = log := rfl

@[simp] theorem limit_passing (log : DiagnosticLog) (fetched : Option Fetched) :
    (log.passing fetched).limit = log.limit := by
  rw [passing]
  split <;> rfl

theorem passing_of_note? {op : Fetched} (log : DiagnosticLog) (none : op.note? = none) :
    log.passing (some op) = log := by
  rw [passing, Option.bind_some, none]

/-- A log that keeps the last notes of some words keeps those of one word more. -/
theorem toList_passing {log : DiagnosticLog} {words : List Fetched}
    (kept : log.toList = lastOf log.limit (words.filterMap Fetched.note?))
    (fetched : Option Fetched) :
    (log.passing fetched).toList =
      lastOf log.limit ((words ++ fetched.toList).filterMap Fetched.note?) := by
  cases fetched with
  | none => rw [passing_none, Option.toList_none, List.append_nil, kept]
  | some op =>
    rw [Option.toList_some, List.filterMap_append, passing, Option.bind_some]
    cases note : op.note? with
    | none =>
      have unnoted : [op].filterMap Fetched.note? = [] := List.filterMap_cons_none note
      rw [unnoted, List.append_nil]
      exact kept
    | some d =>
      have noted : [op].filterMap Fetched.note? = [d] := List.filterMap_cons_some note
      rw [noted, ← lastOf_append_lastOf, ← kept]
      exact toList_push log d

end DiagnosticLog

namespace Machine

/-! ## One instruction -/

variable {m : Machine} {op : Fetched}

theorem diagnostics_present (m : Machine) (request : Display.Request) :
    (m.present request).state.diagnostics = m.diagnostics := by
  cases request <;> rfl

theorem diagnostics_combine (m : Machine) (op : Fetched) (operation : Operation) (x y : Fin 16) :
    (m.combine op operation x y).state.diagnostics = m.diagnostics := by
  rw [combine]
  generalize operation.apply m.reversed (m.v x) (m.v y) = computed
  obtain ⟨result, flag⟩ := computed
  cases flag <;> rfl

theorem diagnostics_writeBlock (m : Machine) (values : List UInt8) :
    (m.writeBlock values).state.diagnostics = m.diagnostics := by
  rw [state_writeBlock]

/-- An instruction notes nothing, whether it succeeds or not. -/
theorem diagnostics_execute_of_listed (m : Machine)
    (listed : ∀ kind, op.word.decode ≠ .skipWord kind) :
    (m.execute op).state.diagnostics = m.diagnostics := by
  cases decoded : op.word.decode with
  | skipWord kind => exact absurd decoded (listed kind)
  | clear | selectMode =>
    simp only [execute, decoded]
    exact diagnostics_present m _
  | combine operation x y =>
    simp only [execute, decoded]
    exact diagnostics_combine m op operation x y
  | draw x y rows =>
    simp only [execute, decoded, draw]
    split
    · rfl
    · exact diagnostics_present m _
  | storeDigits | store =>
    simp only [execute, decoded]
    exact diagnostics_writeBlock m _
  | ret | call | skipIf =>
    simp only [execute, decoded]
    split <;> rfl
  | restore x =>
    simp only [execute, decoded]
    split
    · rfl
    · next values _ =>
      generalize m.processor.setLow values = restored
      rfl
  | awaitKey x =>
    simp only [execute, decoded, awaitKey]
    split <;> rfl
  | _ =>
    simp only [execute, decoded]
    rfl

/-- A word adds the note it calls for, and nothing else. -/
theorem diagnostics_execute (m : Machine) (op : Fetched) :
    (m.execute op).state.diagnostics = m.diagnostics.passing (some op) := by
  rw [DiagnosticLog.passing, Option.bind_some]
  by_cases listed : ∀ kind, op.word.decode ≠ .skipWord kind
  · rw [Fetched.note?_eq_none listed]
    exact diagnostics_execute_of_listed m listed
  · obtain ⟨kind, decoded⟩ := Classical.not_forall.mp listed
    have decoded := Decidable.not_not.mp decoded
    rw [Fetched.note?_of_decode decoded]
    simp only [execute, decoded]
    rfl

theorem diagnostics_conclude (op : Fetched) (done : Outcome) :
    (conclude op done).state.diagnostics = done.state.diagnostics := by
  rw [conclude]
  split <;> rfl

theorem diagnostics_complete (m : Machine) (op : Fetched) :
    (m.complete op).state.diagnostics = m.diagnostics.passing (some op) :=
  (diagnostics_conclude op _).trans (diagnostics_execute m op)

/-- The word at the program counter, if there is one. -/
def fetched? (m : Machine) : Option Fetched := m.fetch.toOption

theorem diagnostics_step (m : Machine) :
    m.step.state.diagnostics = m.diagnostics.passing m.fetched? := by
  rw [step, fetched?]
  cases m.fetch with
  | error fault => rfl
  | ok op => exact diagnostics_complete m.advance op

/-- A word that calls for a note is passed, and nothing but the note is left of it. -/
theorem step_of_note? (memory : m.memory.Intact) (fetched : m.fetch = .ok op) {d : Diagnostic}
    (note : op.note? = some d) :
    m.step =
      { state := { m with
          processor := m.processor.goto (m.pc + 2)
          diagnostics := m.diagnostics.push d }
        result := .ok op
        events := [.wordSkipped d] } := by
  obtain ⟨fetches, rfl⟩ := fetches_of_fetch memory fetched
  obtain ⟨kind, decoded, rfl⟩ := Fetched.decode_of_note? note
  rw [step_of_fetches memory fetches, advance_of_fetches fetches, complete]
  simp only [execute, decoded]
  rfl

end Machine

theorem Console.diagnostics_load {c : Console} {program : List UInt8}
    (loaded : (c.load program).result = .ok ()) :
    (c.load program).state.machine.diagnostics = c.machine.diagnostics.clear := by
  rw [load] at loaded ⊢
  split at loaded
  · cases loaded
  · rfl

/-! ## Histories -/

namespace Engine

variable {e : Engine} {op : Fetched}

/-- The next turn of the thread begins an instruction. -/
def begins (e : Engine) : Bool :=
  e.activity = .ready && !e.cancelled && (e.pause = .nothing || e.pause = .undefined)

/-- The word that an operation has a thread or a host fetch and execute. -/
def fetched? (e : Engine) : Operation → Option Fetched
  | .turn => if e.begins then e.console.machine.fetched? else none
  | .wake => if e.activity = .paused ∧ e.cancelled = false then e.console.machine.fetched? else none
  | .act .step => if e.withholds .step then none else e.console.machine.fetched?
  | _ => none

/-- The operation brings the console to the state in which a program starts. -/
def resets (e : Engine) : Operation → Bool
  | .load program turns => (e.load program turns).2 = .ok ()
  | .restart turns => e.hasRun && (e.stopAndWait turns).2 = .ok ()
  | _ => false

section

variable {P : Bool → Engine → Prop} {turns : Nat}

/-- What a load leaves, by whether it resets the console. -/
theorem of_load_resets {program : List UInt8} (waited : P false (e.stopAndWait turns).1)
    (supplied : (e.stop.console.load program).result = .ok () → P true (e.stop.supplied program)) :
    P (e.resets (.load program turns)) (e.load program turns).1 := by
  rw [resets]
  rcases load_cases e program turns with ⟨_, -, same⟩ | ⟨ended, ⟨_, -, same⟩ | ⟨loaded, same⟩⟩
  · rw [same]
    exact waited
  · rw [ended] at waited
    rw [same]
    exact waited
  · rw [same, decide_eq_true rfl]
    exact supplied loaded

/-- What a restart leaves, by whether it resets the console. -/
theorem of_restart_resets (kept : P false e) (waited : P false (e.stopAndWait turns).1)
    (restarted : P true e.stop.renewed.start.1) :
    P (e.resets (.restart turns)) (e.restart turns).1 := by
  rw [resets]
  rcases restart_cases e turns with ⟨unbegun, same⟩ | ⟨begun, ⟨_, failed, same⟩ | ⟨ended, same⟩⟩
  · rw [same, unbegun]
    exact kept
  · rw [same, begun, failed]
    exact waited
  · rw [same, begun, ended, decide_eq_true rfl]
    exact restarted

end

/-- The words executed since the last load or restart in the course of a history, after those
executed before it. -/
def wordsSince (e : Engine) (before : List Fetched) : List Operation → List Fetched
  | [] => before
  | operation :: rest =>
    (e.perform operation).wordsSince
      (if e.resets operation then [] else before ++ (e.fetched? operation).toList) rest

/-- The notes on the console. -/
def notes (e : Engine) : DiagnosticLog := e.console.machine.diagnostics

theorem notes_conclude (e : Engine) (done : Effect Console (Except Fault Fetched)) :
    (e.conclude done).notes = done.state.machine.diagnostics := by
  rw [conclude]
  split <;> rfl

theorem notes_complete (e : Engine) (op : Fetched) :
    (e.complete op).notes = e.notes.passing (some op) := by
  rw [complete, notes_conclude]
  exact Machine.diagnostics_complete _ op

/-- A wait for a key is in the table. -/
theorem note?_of_waitsForKey (waiting : waitsForKey op = true) : op.note? = none := by
  obtain ⟨x, decoded⟩ := waitsForKey_iff.mp waiting
  apply Fetched.note?_eq_none
  intro kind skipped
  rw [decoded] at skipped
  cases skipped

/-- So is whatever may be held up at the display. -/
theorem note?_of_heldUp? {request : Display.Request} (heldUp : e.heldUp? op = some request) :
    op.note? = none := by
  apply Fetched.note?_eq_none
  intro kind skipped
  have asked := request?_of_heldUp? heldUp
  simp only [Machine.request?, skipped] at asked
  cases asked

/-- Beginning an instruction adds the note that its word calls for. What has to wait calls for
none. -/
theorem notes_beginInstruction (e : Engine) :
    e.beginInstruction.notes = e.notes.passing e.console.machine.fetched? := by
  cases fetched : e.console.machine.fetch with
  | error fault =>
    rw [beginInstruction, Machine.fetched?, fetched]
    rfl
  | ok op =>
    have passed : e.console.machine.fetched? = some op := by
      rw [Machine.fetched?, fetched]
      rfl
    rw [beginInstruction_of_fetch fetched, passed]
    split
    · next waiting =>
      have waits := (Bool.and_eq_true_iff.mp waiting).1
      exact (DiagnosticLog.passing_of_note? _ (note?_of_waitsForKey waits)).symm
    · split
      · next heldUp => exact (DiagnosticLog.passing_of_note? _ (note?_of_heldUp? heldUp)).symm
      · exact notes_complete e.pass op

theorem begins_of_busy (busy : e.activity ≠ .ready) : e.begins = false := by
  rw [begins, decide_eq_false busy, Bool.false_and, Bool.false_and]

/-- A thread that was asked to end begins no instruction. -/
theorem begins_of_cancelled (asked : e.cancelled = true) : e.begins = false := by
  rw [begins, asked, Bool.not_true, Bool.and_false, Bool.false_and]

theorem fetched?_turn_of_busy (busy : e.activity ≠ .ready) : e.fetched? .turn = none := by
  rw [fetched?, begins_of_busy busy, if_neg Bool.false_ne_true]

theorem fetched?_turn_of_cancelled (asked : e.cancelled = true) : e.fetched? .turn = none := by
  rw [fetched?, begins_of_cancelled asked, if_neg Bool.false_ne_true]

/-- A turn that does not begin an instruction at most completes one that had to wait. -/
theorem notes_turn (h : e.Suspended) : e.turn.notes = e.notes.passing (e.fetched? .turn) := by
  cases doing : e.activity with
  | ready =>
    simp only [turn, doing, proceed, fetched?, begins, decide_true, Bool.true_and]
    cases e.cancelled with
    | true => rfl
    | false =>
      cases e.pause with
      | ends | tooLong => rfl
      | nothing | undefined => exact notes_beginInstruction e
  | ended =>
    rw [fetched?_turn_of_busy (by simp [doing]), turn, doing]
    rfl
  | paused =>
    rw [fetched?_turn_of_busy (by simp [doing]), turn, doing]
    dsimp only
    split <;> rfl
  | awaitingKey op =>
    rw [fetched?_turn_of_busy (by simp [doing]), turn, doing]
    dsimp only
    split
    · rw [notes_complete]
      exact DiagnosticLog.passing_of_note? _ (note?_of_waitsForKey (h.awaited op doing).1)
    · split <;> rfl
  | atDisplay op request =>
    rw [fetched?_turn_of_busy (by simp [doing]), turn, doing]
    dsimp only
    split
    · rfl
    · rw [present, notes_conclude]
      exact (Machine.diagnostics_conclude op _).trans (Machine.diagnostics_present _ request)

theorem notes_wake (e : Engine) : e.wake.notes = e.notes.passing (e.fetched? .wake) := by
  rw [wake, fetched?]
  split
  · exact notes_beginInstruction e
  · rfl

theorem notes_settle (h : e.Suspended) (asked : e.cancelled = true) (turns : Nat) :
    (e.settle turns).notes = e.notes := by
  refine h.of_settle asked (P := fun next => next.notes = e.notes) ?_ rfl turns
  intro next suspended asked same
  rw [notes_turn suspended, fetched?_turn_of_cancelled asked, same]
  rfl

theorem notes_settle_requestStop (h : e.Suspended) (turns : Nat) :
    (e.requestStop.settle turns).notes = e.notes :=
  notes_settle (e := e.requestStop) (h.happens .requestStop) rfl turns

theorem notes_stop (h : e.Suspended) : e.stop.notes = e.notes := notes_settle_requestStop h 2

theorem notes_stopAndWait (h : e.Suspended) (turns : Nat) :
    (e.stopAndWait turns).1.notes = e.notes := by
  rcases stopAndWait_eq e turns with ⟨taken, same⟩ | same
  · rw [same]
    exact notes_settle_requestStop h taken
  · rw [same]
    exact notes_stop h

theorem notes_start (e : Engine) : e.start.1.notes = e.notes := by
  apply of_start (P := fun next => next.notes = e.notes) rfl
  intro _ _
  rfl

theorem notes_load (h : e.Suspended) (program : List UInt8) (turns : Nat) :
    (e.load program turns).1.notes =
      if e.resets (.load program turns) then e.notes.clear else e.notes := by
  apply of_load_resets (P := fun resets next =>
    next.notes = if resets then e.notes.clear else e.notes) (notes_stopAndWait h turns)
  intro loaded
  rw [if_pos rfl, ← notes_stop h]
  exact Console.diagnostics_load loaded

theorem notes_restart (h : e.Suspended) (turns : Nat) :
    (e.restart turns).1.notes = if e.resets (.restart turns) then e.notes.clear else e.notes := by
  apply of_restart_resets (P := fun resets next =>
    next.notes = if resets then e.notes.clear else e.notes) rfl (notes_stopAndWait h turns)
  rw [notes_start, ← notes_stop h]
  rfl

theorem passing_of_waits (waits : e.waits = true) :
    e.notes.passing e.console.machine.fetched? = e.notes := by
  obtain ⟨op, fetched, waiting⟩ := fetch_of_waits waits
  rw [Machine.fetched?, fetched]
  exact DiagnosticLog.passing_of_note? _ (note?_of_waitsForKey waiting)

theorem notes_act (e : Engine) (action : Console.Action) :
    (e.act action).1.notes = e.notes.passing (e.fetched? (.act action)) := by
  cases action with
  | step =>
    rw [fetched?, act]
    split
    · rfl
    · split
      · next breaks => exact (passing_of_waits (waits_of_breaksOffAt breaks)).symm
      · exact e.console.machine.diagnostics_step
  | update elapsed =>
    show (e.console.update elapsed).state.machine.diagnostics = _
    rw [Console.machine_update]
    rfl
  | setKey key pressed =>
    rw [act_setKey, setKey]
    cases set : e.console.setKey key pressed with
    | error refusal => rfl
    | ok next =>
      rw [Console.setKey_eq set]
      rfl

/-- What an operation makes of the notes: it begins anew, or adds the note that the word it
executes calls for. -/
theorem notes_perform (h : e.Suspended) (operation : Operation) :
    (e.perform operation).notes =
      if e.resets operation then e.notes.clear else e.notes.passing (e.fetched? operation) := by
  cases operation with
  | load program turns => exact notes_load h program turns
  | start => exact notes_start e
  | restart turns => exact notes_restart h turns
  | stopAndWait turns => exact notes_stopAndWait h turns
  | act action => exact notes_act e action
  | turn => exact notes_turn h
  | wake => exact notes_wake e
  | requestStop | observe | setDebugMode | holdDisplay | releaseDisplay | addListener => rfl

/-- From a log that keeps the last notes of the words before it, a history makes one that keeps the
last notes of these and its own. -/
theorem notes_run (h : e.Suspended) {before : List Fetched}
    (kept : e.notes.toList = DiagnosticLog.lastOf e.notes.limit (before.filterMap Fetched.note?))
    (history : List Operation) :
    (e.run history).notes.toList =
      DiagnosticLog.lastOf e.notes.limit
        ((e.wordsSince before history).filterMap Fetched.note?) := by
  induction history generalizing e before with
  | nil => exact kept
  | cons operation rest ih =>
    have performed := notes_perform h operation
    have limit : (e.perform operation).notes.limit = e.notes.limit := by
      rw [performed]
      split <;> simp
    rw [run_cons, wordsSince, ← limit]
    apply ih (h.perform operation)
    rw [limit, performed]
    split
    · exact (DiagnosticLog.lastOf_nil _).symm
    · exact DiagnosticLog.toList_passing kept _

/-- The notes are the last ones that the words executed since the last load or restart call for, as
many as the limit keeps. A word that calls for a note is passed without a fault and changes nothing
but the notes and the number of instructions; any other word leaves the notes alone. -/
theorem notes_of_history (options : Options) (history : List Operation) :
    let words := (ofOptions options).wordsSince [] history
    let c := ((ofOptions options).run history).console
    c.machine.diagnostics.toList =
        DiagnosticLog.lastOf options.diagnosticLimit (words.filterMap Fetched.note?) ∧
      (∀ op d, c.machine.fetch = .ok op → op.note? = some d →
        c.step.result = .ok op ∧
        c.step.state =
          { c with
            machine :=
              { c.machine with
                processor := c.machine.processor.goto (c.machine.pc + 2)
                diagnostics := c.machine.diagnostics.push d }
            executed := c.executed + 1 }) ∧
      ((∀ op, c.machine.fetch = .ok op → op.note? = none) →
        c.step.state.machine.diagnostics = c.machine.diagnostics) := by
  intro words c
  have memory : c.machine.memory.Intact := (wellFormed_run options history).console.machine.memory
  refine ⟨?_, ?_, ?_⟩
  · have free : (ofOptions options).Suspended :=
      .of_free (fun _ => Activity.noConfusion) Activity.noConfusion
    have none : (ofOptions options).notes.toList = DiagnosticLog.lastOf options.diagnosticLimit
        (([] : List Fetched).filterMap Fetched.note?) := (DiagnosticLog.lastOf_nil _).symm
    exact notes_run free none history
  · intro op d fetched note
    have stepped := Machine.step_of_note? memory fetched note
    rw [Console.step, Console.afterInstruction, stepped]
    exact ⟨rfl, rfl⟩
  · intro unnoted
    have step := c.machine.diagnostics_step
    rw [Machine.fetched?] at step
    cases fetched : c.machine.fetch with
    | error fault =>
      rw [fetched] at step
      exact step
    | ok op =>
      rw [fetched] at step
      exact step.trans (DiagnosticLog.passing_of_note? _ (unnoted op fetched))

/-- Three words are skipped on either side of an instruction, and a limit of two keeps the last
two notes. -/
theorem notes_of_scroll_and_unlisted :
    let options : Options := { diagnosticLimit := some 2 }
    let history := [.load [0x00, 0xC4, 0xB0, 0x00, 0x60, 0x05, 0x0F, 0xE0], .act .step, .act .step,
      .act .step]
    let c := ((ofOptions options).run history).console
    let last : Fetched := { addr := 0x206, word := Word.ofBytes 0x0F 0xE0 }
    c.machine.diagnostics.toList =
        [{ kind := .unsupported, addr := 0x200, word := Word.ofBytes 0x00 0xC4 },
          { kind := .unknown, addr := 0x202, word := Word.ofBytes 0xB0 0x00 }] ∧
      c.step.result = .ok last ∧
      c.step.state.machine.diagnostics.toList =
        [{ kind := .unknown, addr := 0x202, word := Word.ofBytes 0xB0 0x00 },
          { kind := .unknown, addr := 0x206, word := Word.ofBytes 0x0F 0xE0 }] := by
  intro options history
  have words : DiagnosticLog.lastOf options.diagnosticLimit
      (((ofOptions options).wordsSince [] history).filterMap Fetched.note?) =
        [{ kind := .unsupported, addr := 0x200, word := Word.ofBytes 0x00 0xC4 },
          { kind := .unknown, addr := 0x202, word := Word.ofBytes 0xB0 0x00 }] := by
    decide +kernel
  have limit : ((ofOptions options).run history).console.machine.diagnostics.limit = some 2 := by
    decide +kernel
  have fetched : ((ofOptions options).run history).console.machine.fetch =
      .ok { addr := 0x206, word := Word.ofBytes 0x0F 0xE0 } := by
    decide +kernel
  have spec := notes_of_history options history
  generalize ((ofOptions options).run history).console = c at limit fetched spec ⊢
  intro c last
  obtain ⟨notes, skipped, -⟩ := spec
  obtain ⟨result, state⟩ := skipped last
    { kind := .unknown, addr := 0x206, word := last.word } fetched (by decide)
  refine ⟨notes.trans words, result, ?_⟩
  rw [state]
  show (c.machine.diagnostics.push _).toList = _
  rw [DiagnosticLog.toList_push, notes, words, limit]
  decide

end Engine

end ChipEight
