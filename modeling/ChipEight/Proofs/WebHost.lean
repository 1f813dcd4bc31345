import ChipEight.Proofs.ModeChanges
import ChipEight.Web.Session

/-!
# The web host

A web host keeps, beside its session, two counters. Every engine that it has built calls it back, to
count a beep and to count a change of the display mode, and that includes the engines that have lost
their place to another: their threads are still there, as far as the host knows. The counters begin
anew when a program is loaded (`Web.Host.load`).

A host does little with an engine: what it does for a request is a history in which the display is
never held and no listener is added (`Web.Command.run_eq`). So the thread of its engine ends when it
is asked to, though it need not do so while the host waits. Whatever happens to a host, its engine
has gone through a history, or a new one has taken its place (`Web.Host.Orderly.becomes`).

All of this holds for every framework that keeps its laws.
-/

namespace ChipEight

namespace Engine

variable {e next : Engine}

/-! ## What is told meanwhile -/

/-- What an engine has told since it was another one. -/
def toldSince (next e : Engine) : List Event := next.journal.toList.drop e.journal.size

@[simp] theorem toldSince_self (e : Engine) : e.toldSince e = [] :=
  List.drop_eq_nil_of_le (Nat.le_of_eq Array.length_toList)

theorem journal_prefix_tell (e : Engine) (events : List Event) :
    e.journal.toList <+: (e.tell events).journal.toList :=
  ⟨events, Array.toList_appendList.symm⟩

theorem journal_prefix_conclude (e : Engine) (done : Effect Console (Except Fault Fetched)) :
    e.journal.toList <+: (e.conclude done).journal.toList := by
  have taken := journal_prefix_tell ({ e with console := done.state, activity := .ready })
    done.events
  rw [conclude]
  split
  · exact taken
  · exact taken.trans ((journal_prefix_tell _ _).trans (journal_prefix_tell _ _))

theorem journal_prefix_turned (turned : e.Turned next) :
    e.journal.toList <+: next.journal.toList := by
  cases turned with
  | ended => exact journal_prefix_tell _ _
  | brokenOff | failed => exact (journal_prefix_tell _ _).trans (journal_prefix_tell _ _)
  | paused | awaited | heldUp => exact List.prefix_refl _
  | passed => exact journal_prefix_conclude e.pass _
  | completed | presented => exact journal_prefix_conclude e _

theorem journal_prefix_happens (step : e.Happens next) :
    e.journal.toList <+: next.journal.toList := by
  cases step with
  | turn busy => exact journal_prefix_turned (turned_turn busy)
  | wake => exact journal_prefix_turned (turned_beginInstruction e)
  | start | load | reset | act | brokenOff => exact journal_prefix_tell _ _
  | requestStop | abandon | observe | setDebugMode | holdDisplay | releaseDisplay | addListener =>
    exact List.prefix_refl _

/-- What is told is added to the journal, and nothing is taken from it. -/
theorem journal_run (e : Engine) (history : List Operation) :
    (e.run history).journal.toList = e.journal.toList ++ (e.run history).toldSince e := by
  have longer : e.journal.toList <+: (e.run history).journal.toList :=
    run_of_happens (P := fun next => e.journal.toList <+: next.journal.toList)
      (fun earlier step => earlier.trans (journal_prefix_happens step)) (List.prefix_refl _)
      history
  rw [toldSince, ← Array.length_toList]
  exact (List.prefix_iff_eq_append.mp longer).symm

/-! ## Engines of a host -/

/-- An engine that has come about by a history, that no one holds up at the display, and to which the
session listens. The time that it is given to end passes. -/
structure Hosted (e : Engine) : Prop where
  lived : ∃ options history, e = (ofOptions options).run history
  unhindered : e.Unhindered
  listens : e.listeners = [Web.listener]
  timed : e.console.options.stopTimeout.wait = .ends

namespace Hosted

variable {turns : Nat} {failure : Failure}

theorem wellFormed (h : e.Hosted) : e.WellFormed e.console.options := by
  obtain ⟨options, history, rfl⟩ := h.lived
  have formed := wellFormed_run options history
  rw [formed.options_eq]
  exact formed

theorem suspended (h : e.Hosted) : e.Suspended := by
  obtain ⟨options, history, rfl⟩ := h.lived
  exact suspended_run options history

theorem coherent (h : e.Hosted) : e.Coherent := by
  obtain ⟨options, history, rfl⟩ := h.lived
  exact coherent_run options history

theorem perform (h : e.Hosted) {operation : Operation} (hosted : operation.hosted = true) :
    (e.perform operation).Hosted where
  lived := by
    obtain ⟨options, history, lived⟩ := h.lived
    refine ⟨options, history ++ [operation], ?_⟩
    rw [run_append, ← lived]
    rfl
  unhindered := h.unhindered.perform hosted
  listens := (Announces.perform h.unhindered h.suspended hosted).listeners.trans h.listens
  timed := by
    rw [(h.wellFormed.perform operation).options_eq]
    exact h.timed

theorem run (h : e.Hosted) {history : List Operation}
    (hosted : ∀ operation ∈ history, operation.hosted = true) : (e.run history).Hosted :=
  List.foldlRecOn history Engine.perform h fun _ earlier operation mem =>
    earlier.perform (hosted operation mem)

theorem stuck_eq (h : e.Hosted) : e.stuck = false := stuck_of_free h.unhindered.free

/-- Two turns are time enough. -/
theorem stopAndWait_eq (h : e.Hosted) (enough : 2 ≤ turns) :
    e.stopAndWait turns = (e.stop, .ok ()) :=
  stopAndWait_of_not_stuck h.stuck_eq (.inr ⟨h.timed, enough⟩)

theorem activity_stop (h : e.Hosted) : e.stop.activity = .ended :=
  activity_stop_of_not_stuck h.stuck_eq

/-- With fewer turns the time may be over before the thread ends, and nothing else fails. -/
theorem failure_of_stopAndWait (h : e.Hosted) (failed : (e.stopAndWait turns).2 = .error failure) :
    ∃ fault patience, failure = .fault fault ∧ fault.cause = .engineStuck patience := by
  rcases stopAndWait_cases e turns with ⟨-, same⟩ | ⟨-, -, -, same⟩ | ⟨-, unmeasurable, -⟩
  · rw [same] at failed
    cases failed
  · rw [same] at failed
    cases failed
    exact ⟨_, _, rfl, rfl⟩
  · rw [isMeasurable_of_ends h.timed] at unmeasurable
    cases unmeasurable

/-- A restart fails for the same reason alone. -/
theorem failure_of_restart (h : e.Hosted) (failed : (e.restart turns).2 = .error failure) :
    ∃ fault patience, failure = .fault fault ∧ fault.cause = .engineStuck patience := by
  rcases restart_cases e turns with ⟨-, same⟩ | ⟨begun, ⟨other, waited, same⟩ | ⟨-, same⟩⟩
  · rw [same] at failed
    cases failed
  · rw [same] at failed
    cases failed
    exact h.failure_of_stopAndWait waited
  · have loaded : e.stop.renewed.console.loaded = true :=
      (kept_stop e).1.trans (h.coherent.loaded (.inr begun))
    rw [same] at failed
    rcases start_cases e.stop.renewed with ⟨unloaded, -⟩ | ⟨-, ⟨-, started⟩ | ⟨-, started⟩⟩
    · rw [loaded] at unloaded
      cases unloaded
    · rw [started] at failed
      cases failed
    · rw [started] at failed
      cases failed

end Hosted

/-- A key that there is can be set, and one that there is not changes nothing. -/
theorem setKey_cases (e : Engine) (key : Int) (pressed : Bool) :
    (0 ≤ key ∧ key < 16) ∧ (e.setKey key pressed).2 = .ok () ∨
      ¬ (0 ≤ key ∧ key < 16) ∧ e.setKey key pressed = (e, .error ⟨key⟩) := by
  by_cases range : 0 ≤ key ∧ key < 16
  · refine .inl ⟨range, ?_⟩
    simp only [setKey, Console.setKey, Keypad.set, dif_pos range]
  · refine .inr ⟨range, ?_⟩
    simp only [setKey, Console.setKey, Keypad.set, dif_neg range]

end Engine

namespace Web

variable {e : Engine} {f : Framework}

/-- What is read is carried out, and the result is answered. -/
theorem Session.handle_of_some (lawful : f.Lawful) {s : Session} {turns : Nat} {request : Request}
    {action : Action} (read : f.action? request = some action) :
    s.handle f turns request =
      ((s.act turns action).1, Response.ofResult (s.act turns action).2) :=
  lawful.carriedOut _ s read

theorem Session.handle_of_none (lawful : f.Lawful) {s : Session} {turns : Nat} {request : Request}
    (unread : f.action? request = none) : (s.handle f turns request).1 = s :=
  lawful.turnedAway _ s unread

/-! ## Commands -/

/-- What a command has an engine do, and the turns that it is given then. -/
def Command.operations (e : Engine) (turns : Nat) : Command → List Engine.Operation
  | .start => .start :: List.replicate turns .turn
  | .stop => [.stopAndWait turns]
  | .restart =>
    match (e.restart turns).2 with
    | .error _ => [.restart turns]
    | .ok _ => .restart turns :: List.replicate turns .turn
  | .debug enabled => [.setDebugMode enabled]
  | .key number pressed =>
    if 0 ≤ number ∧ number < 16 then
      .act (.setKey number pressed) :: List.replicate turns .turn
    else []
  | .tick elapsed => [.act (.update elapsed)]
  | .display => []
  | .state => []

theorem hosted_turns (turns : Nat) :
    ∀ operation ∈ List.replicate turns Engine.Operation.turn, operation.hosted = true := by
  intro operation mem
  rw [List.eq_of_mem_replicate mem]
  rfl

/-- No command holds the display or adds a listener. -/
theorem Command.hosted_operations (e : Engine) (command : Command) (turns : Nat) :
    ∀ operation ∈ command.operations e turns, operation.hosted = true := by
  cases command with
  | start => exact List.forall_mem_cons.mpr ⟨rfl, hosted_turns turns⟩
  | restart =>
    rw [operations]
    split
    · exact List.forall_mem_singleton.mpr rfl
    · exact List.forall_mem_cons.mpr ⟨rfl, hosted_turns turns⟩
  | stop | debug | tick => exact List.forall_mem_singleton.mpr rfl
  | display | state => exact List.forall_mem_nil _
  | key number pressed =>
    rw [operations]
    split
    · exact List.forall_mem_cons.mpr ⟨rfl, hosted_turns turns⟩
    · exact List.forall_mem_nil _

/-- A command is a history. -/
theorem Command.run_eq (e : Engine) (command : Command) (turns : Nat) :
    (command.run e turns).1 = e.run (command.operations e turns) := by
  cases command with
  | start => exact e.start.1.settle_eq_run turns
  | stop =>
    show _ = (e.stopAndWait turns).1
    rw [run]
    rcases e.stopAndWait turns with ⟨stopped, failure | ended⟩ <;> rfl
  | restart =>
    rw [run, operations]
    cases done : e.restart turns with
    | mk restarted answer =>
      have performed : e.perform (.restart turns) = restarted := congrArg Prod.fst done
      cases answer with
      | error failure => exact performed.symm
      | ok said =>
        dsimp only
        rw [Engine.run_cons, performed]
        exact restarted.settle_eq_run turns
  | key number pressed =>
    rw [run, operations]
    rcases e.setKey_cases number pressed with ⟨range, set⟩ | ⟨outside, refused⟩
    · have same : e.setKey number pressed = ((e.setKey number pressed).1, .ok ()) :=
        Prod.ext rfl set
      rw [same, if_pos range, Engine.run_cons, Engine.perform, Engine.act_setKey]
      exact Engine.settle_eq_run _ turns
    · rw [refused, if_neg outside]
      rfl
  | tick elapsed =>
    show _ = (e.act (.update elapsed)).1
    rw [run, Engine.act_update]
    rcases e.update elapsed with ⟨timed, failure | passed⟩ <;> rfl
  | debug | display | state => rfl

/-- A command is refused for a key that there is not, and then does nothing; because the thread did
not end in time; or because time could not pass. -/
inductive Command.Refused (e : Engine) (command : Command) (turns : Nat) : Refusal → Prop where
  | key {number : Int} {pressed : Bool} (named : command = .key number pressed)
      (kept : (command.run e turns).1 = e) :
      Refused e command turns (.unacceptable ("Invalid key: " ++ toString number))
  | conflict {fault : Fault} {patience : Number} (stuck : fault.cause = .engineStuck patience) :
      Refused e command turns (.conflict fault)
  | failed (failure : Failure) : Refused e command turns (.failed failure)

theorem Command.refused (hosted : e.Hosted) {command : Command} {turns : Nat} {refusal : Refusal}
    (refused : (command.run e turns).2 = .error refusal) : command.Refused e turns refusal := by
  cases command with
  | stop =>
    rw [run] at refused
    split at refused
    · next waited =>
      cases refused
      obtain ⟨fault, patience, rfl, stuck⟩ :=
        hosted.failure_of_stopAndWait (congrArg Prod.snd waited)
      exact .conflict stuck
    · cases refused
  | restart =>
    rw [run] at refused
    split at refused
    · next waited =>
      cases refused
      obtain ⟨fault, patience, rfl, stuck⟩ := hosted.failure_of_restart (congrArg Prod.snd waited)
      exact .conflict stuck
    · cases refused
  | key number pressed =>
    rcases e.setKey_cases number pressed with ⟨-, set⟩ | ⟨-, unset⟩
    · have same : e.setKey number pressed = ((e.setKey number pressed).1, .ok ()) :=
        Prod.ext rfl set
      rw [run, same] at refused
      cases refused
    · rw [run, unset] at refused
      cases refused
      refine .key rfl ?_
      rw [run, unset]
  | tick elapsed =>
    rw [run] at refused
    split at refused
    · cases refused
      exact .failed _
    · cases refused
  | start | debug | display | state => cases refused

/-- A new engine is built by a load that succeeds. -/
theorem freshEngine_eq_ok {options : Options} {program : List UInt8} {fresh : Engine}
    (built : freshEngine options program = .ok fresh) :
    ((Engine.ofOptions options).load program).2 = .ok () ∧
      fresh = ((Engine.ofOptions options).load program).1.addListener listener := by
  unfold freshEngine at built
  generalize (Engine.ofOptions options).load program = loaded at built ⊢
  obtain ⟨engine, failure | done⟩ := loaded
  · cases failure <;> cases built
  · cases built
    exact ⟨rfl, rfl⟩

theorem hosted_freshEngine {options : Options} (timed : options.stopTimeout.wait = .ends)
    {program : List UInt8} {fresh : Engine} (built : freshEngine options program = .ok fresh) :
    fresh.Hosted := by
  obtain ⟨-, rfl⟩ := freshEngine_eq_ok built
  have new : (Engine.ofOptions options).Unhindered := ⟨rfl, fun _ _ => Engine.Activity.noConfusion⟩
  have loaded := new.load program 2
  have silent := Engine.Announces.load new (Engine.suspended_run options []) program 2
  have kept := ((Engine.wellFormed_ofOptions options).load program 2).options_eq
  refine ⟨⟨options, [.load program, .addListener listener], rfl⟩, ⟨loaded.free, loaded.away⟩, ?_, ?_⟩
  · show ((Engine.ofOptions options).load program).1.listeners ++ [listener] = [listener]
    rw [silent.listeners]
    rfl
  · show ((Engine.ofOptions options).load program).1.console.options.stopTimeout.wait = .ends
    rw [kept]
    exact timed

/-- The engine that a request to load a program builds, before it touches the one that is there. -/
def LoadRequest.build (request : LoadRequest) : Except Refusal Engine :=
  match request.bytes with
  | .error refusal => .error refusal
  | .ok program => freshEngine request.options program

/-- What is done with a new engine before the request is answered. -/
def LoadRequest.operations (request : LoadRequest) (turns : Nat) : List Engine.Operation :=
  if request.autostart then .start :: List.replicate turns .turn else []

theorem LoadRequest.hosted_operations (request : LoadRequest) (turns : Nat) :
    ∀ operation ∈ request.operations turns, operation.hosted = true := by
  rw [operations]
  split
  · exact List.forall_mem_cons.mpr ⟨rfl, hosted_turns turns⟩
  · exact List.forall_mem_nil _

theorem LoadRequest.run_operations (request : LoadRequest) (fresh : Engine) (turns : Nat) :
    fresh.run (request.operations turns) =
      if request.autostart then fresh.start.1.settle turns else fresh := by
  rw [operations]
  split
  · exact (Engine.settle_eq_run _ turns).symm
  · rfl

theorem LoadRequest.hosted_build {request : LoadRequest} (declared : request.Declared)
    {fresh : Engine} (built : request.build = .ok fresh) : fresh.Hosted := by
  obtain ⟨positive, short⟩ := declared.stopTimeout
  rw [build] at built
  split at built
  · cases built
  · exact hosted_freshEngine (Number.wait_of_atMost positive short) built

/-- A new engine is built first, then the previous one is ended, and then the new one takes its
place. -/
theorem Session.load_eq (s : Session) (turns : Nat) (request : LoadRequest) :
    s.load turns request =
      match request.build with
      | .error refusal => (s, .error refusal)
      | .ok fresh =>
        match endPrevious turns s.engine with
        | (previous, .error failure) =>
          ({ engine := previous }, .error (.failed (.engine failure)))
        | (_, .ok ()) =>
          ({ engine := some (fresh.run (request.operations turns)) },
            .ok (fresh.run (request.operations turns)).status) := by
  rw [load, LoadRequest.build]
  cases request.bytes with
  | error refusal => rfl
  | ok program =>
    dsimp only
    cases freshEngine request.options program with
    | error refusal => rfl
    | ok fresh =>
      have same := request.run_operations fresh turns
      dsimp only
      generalize fresh.run (request.operations turns) = next at same ⊢
      subst same
      rfl

/-- A load succeeds if a new engine can be built and the previous one ends. -/
theorem Session.load_eq_ok_iff {s : Session} {turns : Nat} {request : LoadRequest} {body : Value} :
    (s.load turns request).2 = .ok body ↔
      ∃ fresh, request.build = .ok fresh ∧ (endPrevious turns s.engine).2 = .ok () ∧
        (fresh.run (request.operations turns)).status = body := by
  rw [Session.load_eq]
  constructor
  · intro loaded
    split at loaded
    · cases loaded
    · next fresh built =>
      split at loaded
      · cases loaded
      · next waited =>
        cases loaded
        exact ⟨fresh, built, congrArg Prod.snd waited, rfl⟩
  · rintro ⟨fresh, built, ended, rfl⟩
    rw [built]
    dsimp only
    split
    · next waited =>
      rw [waited] at ended
      cases ended
    · rfl

/-! ## The counters -/

/-- The counters of the host. -/
structure Counters where
  beeps : Nat := 0
  geometryVersion : Nat := 0
deriving DecidableEq

/-- Counts the events for which the host is called back. -/
def Counters.hear (c : Counters) (events : List Event) : Counters where
  beeps := c.beeps + events.count .beeped
  geometryVersion := c.geometryVersion + (Event.modesTold listener events).length

/-- The session, the engines that had a place in it before, and the counters. -/
structure Host where
  session : Session := {}
  retired : List Engine := []
  counters : Counters := {}

namespace Host

variable {h : Host} {turns : Nat} {request : Request}

/-- The engine has become another one, and what it told was heard. -/
def follow (h : Host) (e next : Engine) : Host :=
  { h with session := { engine := some next }, counters := h.counters.hear (next.toldSince e) }

/-- A new engine takes the place of the one before it. The counters begin anew, whatever the engine
before has told until it ended. -/
def install (h : Host) (previous : Option Engine) (fresh next : Engine) : Host where
  session := { engine := some next }
  retired := h.retired ++ previous.toList
  counters := ({} : Counters).hear (next.toldSince fresh)

/-- Loads a program into a new engine. -/
def load (h : Host) (turns : Nat) (request : LoadRequest) : Host :=
  match request.build with
  | .error _ => h
  | .ok fresh =>
    let next := if request.autostart then fresh.start.1.settle turns else fresh
    match h.session.engine with
    | none => h.install none fresh next
    | some e =>
      match e.stopAndWait turns with
      | (stopped, .error _) => h.follow e stopped
      | (stopped, .ok ()) => h.install (some stopped) fresh next

/-- Carries out an action. -/
def carryOut (h : Host) (turns : Nat) : Action → Host
  | .load request => h.load turns request
  | .command command =>
    match h.session.engine with
    | none => h
    | some e => h.follow e (command.run e turns).1
  | .manual => h

/-- Carries out an action, with the result that the session has. -/
def act (h : Host) (turns : Nat) (action : Action) : Host × Except Refusal Value :=
  (h.carryOut turns action, (h.session.act turns action).2)

/-- Answers a request. -/
def answer (f : Framework) (h : Host) (turns : Nat) (request : Request) : Host :=
  (f.answer (fun action h => h.act turns action) request h).1

/-- What a thread does by itself. -/
inductive Move where
  | turn
  | wake

/-- A move of a thread as an operation. -/
def Move.operation : Move → Engine.Operation
  | turn => .turn
  | wake => .wake

/-- What happens to a host. -/
inductive Moment where
  /-- A request comes, and the engine is given so many turns wherever the host waits for it. -/
  | request (turns : Nat) (request : Request)
  /-- The thread of the engine does something. -/
  | thread (move : Move)
  /-- The thread of an engine that has lost its place does something. -/
  | late (index : Nat) (move : Move)

/-- What a moment makes of a host. -/
def next (f : Framework) (h : Host) : Moment → Host
  | .request turns request => h.answer f turns request
  | .thread move =>
    match h.session.engine with
    | none => h
    | some e => h.follow e (e.perform move.operation)
  | .late index move =>
    match h.retired[index]? with
    | none => h
    | some e =>
      { h with
        retired := h.retired.set index (e.perform move.operation)
        counters := h.counters.hear ((e.perform move.operation).toldSince e) }

/-- What a host has come to. -/
def after (f : Framework) (moments : List Moment) : Host := moments.foldl (next f) {}

theorem answer_of_some (lawful : f.Lawful) (h : Host) (turns : Nat) {action : Action}
    (read : f.action? request = some action) :
    h.answer f turns request = h.carryOut turns action :=
  congrArg Prod.fst (lawful.carriedOut _ h read)

theorem answer_of_none (lawful : f.Lawful) (h : Host) (turns : Nat)
    (unread : f.action? request = none) : h.answer f turns request = h :=
  lawful.turnedAway _ h unread

theorem session_carryOut (h : Host) (turns : Nat) (action : Action) :
    (h.carryOut turns action).session = (h.session.act turns action).1 := by
  cases action with
  | manual => rfl
  | command command =>
    simp only [carryOut, Session.act, Session.command]
    cases h.session.engine <;> rfl
  | load request =>
    simp only [carryOut, load, Session.act, Session.load_eq]
    cases request.build with
    | error refusal => rfl
    | ok fresh =>
      dsimp only
      rw [LoadRequest.run_operations]
      cases h.session.engine with
      | none => rfl
      | some e =>
        simp only [endPrevious]
        rcases e.stopAndWait turns with ⟨stopped, failure | ended⟩ <;> rfl

/-- The session of a host is the session that answers the requests. -/
theorem session_answer (lawful : f.Lawful) (h : Host) (turns : Nat) (request : Request) :
    (h.answer f turns request).session = (h.session.handle f turns request).1 := by
  cases read : f.action? request with
  | none => rw [answer_of_none lawful h turns read, Session.handle_of_none lawful read]
  | some action =>
    rw [answer_of_some lawful h turns read, Session.handle_of_some lawful read]
    exact session_carryOut h turns action

/-! ## What a moment does -/

/-- The engine of the session is hosted, and the engines before it have ended. -/
structure Orderly (h : Host) : Prop where
  hosted : ∀ e, h.session.engine = some e → e.Hosted
  ended : ∀ e ∈ h.retired, e.activity = .ended

/-- The engine that a moment builds for a host, and what is done with it then. -/
def built? (f : Framework) (h : Host) : Moment → Option (Engine × List Engine.Operation)
  | .request turns request =>
    match f.action? request with
    | some (.load load) =>
      if (endPrevious turns h.session.engine).2 = .ok () then
        load.build.toOption.map fun fresh => (fresh, load.operations turns)
      else none
    | _ => none
  | _ => none

/-- What a moment has the engine of the session do, unless another one takes its place. -/
def Moment.operations (f : Framework) (e : Engine) : Moment → List Engine.Operation
  | .request turns request =>
    match f.action? request with
    | some (.load load) =>
      match load.build with
      | .error _ => []
      | .ok _ => [.stopAndWait turns]
    | some (.command command) => command.operations e turns
    | _ => []
  | .thread move => [move.operation]
  | .late _ _ => []

theorem follow_self {e : Engine} (present : h.session.engine = some e) : h.follow e e = h := by
  obtain ⟨⟨engine⟩, retired, counters⟩ := h
  cases present
  rw [follow, Engine.toldSince_self]
  rfl

/-- A thread that has ended does nothing any more. -/
theorem Move.perform_of_ended (move : Move) (ended : e.activity = .ended) :
    e.perform move.operation = e := by
  cases move with
  | turn =>
    show e.turn = e
    rw [Engine.turn, ended]
  | wake =>
    show e.wake = e
    rw [Engine.wake, ended, if_neg fun pausing => Engine.Activity.noConfusion pausing.1]

/-- An engine that has lost its place has ended, and never tells anything again. -/
theorem Orderly.next_late (orderly : h.Orderly) (index : Nat) (move : Move) :
    h.next f (.late index move) = h := by
  rw [next]
  cases late : h.retired[index]? with
  | none => rfl
  | some e =>
    obtain ⟨bound, there⟩ := List.getElem?_eq_some_iff.mp late
    have ended : e.activity = .ended := orderly.ended e (List.mem_of_getElem? late)
    dsimp only
    rw [move.perform_of_ended ended, Engine.toldSince_self, ← there, List.set_getElem_self]
    rfl

/-- What a moment may make of a host. -/
inductive Becomes (f : Framework) (h : Host) (moment : Moment) : Host → Prop where
  /-- A new engine takes the place of the one before it, which has ended by then. -/
  | installed {fresh : Engine} {operations : List Engine.Operation}
      (built : h.built? f moment = some (fresh, operations)) :
      Becomes f h moment
        (h.install (h.session.engine.map Engine.stop) fresh (fresh.run operations))
  /-- The engine of the session does something. -/
  | followed {e : Engine} (unbuilt : h.built? f moment = none)
      (present : h.session.engine = some e) :
      Becomes f h moment (h.follow e (e.run (moment.operations f e)))
  /-- There is no engine. -/
  | waited (unbuilt : h.built? f moment = none) (absent : h.session.engine = none) :
      Becomes f h moment h

/-- Where there is nothing to be done nothing changes. -/
theorem becomes_self {moment : Moment} (unbuilt : h.built? f moment = none)
    (idle : ∀ e, moment.operations f e = []) : Becomes f h moment h := by
  cases present : h.session.engine with
  | none => exact .waited unbuilt present
  | some e =>
    have followed := Becomes.followed unbuilt present
    rw [idle e, Engine.run, List.foldl_nil, follow_self present] at followed
    exact followed

/-- A load installs a new engine if there is one and the previous engine has ended. Otherwise the
previous engine was at most waited for. -/
theorem becomes_load (h : Host) (turns : Nat) {load : LoadRequest}
    (read : f.action? request = some (.load load)) :
    Becomes f h (.request turns request) (h.load turns load) := by
  have built : h.built? f (.request turns request) =
      if (endPrevious turns h.session.engine).2 = .ok () then
        load.build.toOption.map fun fresh => (fresh, load.operations turns)
      else none := by
    simp only [built?, read]
  have operations : ∀ e, (Moment.request turns request).operations f e =
      match load.build with
      | .error _ => []
      | .ok _ => [.stopAndWait turns] := by
    intro e
    simp only [Moment.operations, read]
  rw [Host.load]
  cases result : load.build with
  | error refusal =>
    rw [result] at built operations
    exact becomes_self (built.trans (ite_self none)) operations
  | ok fresh =>
    rw [result] at built operations
    dsimp only
    rw [← load.run_operations]
    cases present : h.session.engine with
    | none =>
      rw [present] at built
      have installed := Becomes.installed built
      rw [present] at installed
      exact installed
    | some e =>
      rw [present] at built
      have waited : (endPrevious turns (some e)).2 = (e.stopAndWait turns).2 := rfl
      rw [waited] at built
      have performed : e.run ((Moment.request turns request).operations f e) =
          (e.stopAndWait turns).1 := by rw [operations e]; rfl
      cases done : e.stopAndWait turns with
      | mk stopped answer =>
        rw [done] at built performed
        cases answer with
        | error failure =>
          have followed := Becomes.followed (built.trans (if_neg nofun)) present
          rw [performed] at followed
          simp only [done]
          exact followed
        | ok ended =>
          cases Engine.stopAndWait_eq_ok done
          have installed := Becomes.installed (built.trans (if_pos rfl))
          rw [present] at installed
          simp only [done]
          exact installed

theorem Orderly.becomes (lawful : f.Lawful) (orderly : h.Orderly) (moment : Moment) :
    Becomes f h moment (h.next f moment) := by
  cases moment with
  | thread move =>
    rw [next]
    cases present : h.session.engine with
    | none => exact .waited rfl present
    | some e => exact .followed rfl present
  | late index move =>
    rw [orderly.next_late index move]
    exact becomes_self rfl fun _ => rfl
  | request turns request =>
    show Becomes f h _ (h.answer f turns request)
    cases read : f.action? request with
    | none =>
      rw [answer_of_none lawful h turns read]
      refine becomes_self ?_ fun e => ?_
      · simp only [built?, read]
      · simp only [Moment.operations, read]
    | some action =>
      rw [answer_of_some lawful h turns read]
      cases action with
      | load load => exact becomes_load h turns read
      | manual =>
        refine becomes_self ?_ fun e => ?_
        · simp only [built?, read]
        · simp only [Moment.operations, read]
      | command command =>
        have unbuilt : h.built? f (.request turns request) = none := by
          simp only [built?, read]
        rw [carryOut]
        cases present : h.session.engine with
        | none => exact .waited unbuilt present
        | some e =>
          have followed := Becomes.followed unbuilt present
          simp only [Moment.operations, read, ← command.run_eq] at followed
          exact followed

theorem Moment.hosted_operations (f : Framework) (e : Engine) (moment : Moment) :
    ∀ operation ∈ moment.operations f e, operation.hosted = true := by
  cases moment with
  | thread move => cases move <;> exact List.forall_mem_singleton.mpr rfl
  | late => exact List.forall_mem_nil _
  | request turns request =>
    rw [operations]
    split
    · split
      · exact List.forall_mem_nil _
      · exact List.forall_mem_singleton.mpr rfl
    · next command _ => exact command.hosted_operations e turns
    · exact List.forall_mem_nil _

/-- Engines are built by requests to load a program, once the previous engine has ended. -/
theorem built?_eq_some {moment : Moment} {fresh : Engine} {operations : List Engine.Operation}
    (built : h.built? f moment = some (fresh, operations)) :
    ∃ turns request load, moment = .request turns request ∧
      f.action? request = some (.load load) ∧ load.build = .ok fresh ∧
      (endPrevious turns h.session.engine).2 = .ok () ∧ operations = load.operations turns := by
  cases moment with
  | thread | late => cases built
  | request turns request =>
    rw [built?] at built
    split at built
    · next load read =>
      split at built
      · next ended =>
        cases result : load.build with
        | error refusal =>
          rw [result] at built
          cases built
        | ok engine =>
          rw [result] at built
          cases built
          exact ⟨turns, request, load, rfl, read, result, ended, rfl⟩
      · cases built
    · cases built

theorem Orderly.next (lawful : f.Lawful) (orderly : h.Orderly) (moment : Moment) :
    (h.next f moment).Orderly := by
  have becomes := orderly.becomes lawful moment
  generalize h.next f moment = next at becomes
  cases becomes with
  | installed built =>
    obtain ⟨turns, request, load, -, read, result, -, rfl⟩ := built?_eq_some built
    refine ⟨?_, ?_⟩
    · intro e same
      cases same
      have declared : load.Declared := lawful.declared read
      exact (LoadRequest.hosted_build declared result).run (load.hosted_operations turns)
    · intro e mem
      rcases List.mem_append.mp mem with earlier | last
      · exact orderly.ended e earlier
      · obtain ⟨old, there, rfl⟩ := Option.map_eq_some_iff.mp (Option.mem_toList.mp last)
        exact (orderly.hosted old there).activity_stop
  | @followed e unbuilt present =>
    refine ⟨?_, orderly.ended⟩
    intro next same
    cases same
    exact (orderly.hosted e present).run (moment.hosted_operations f e)
  | waited => exact orderly

theorem orderly_new : ({} : Host).Orderly where
  hosted := fun _ => nofun
  ended := List.forall_mem_nil _

theorem orderly_after (lawful : f.Lawful) (moments : List Moment) : (after f moments).Orderly :=
  List.foldlRecOn moments (Host.next f) orderly_new fun _ orderly moment _ =>
    orderly.next lawful moment

end Host

end Web

end ChipEight
