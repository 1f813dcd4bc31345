import ChipEight.Status
import ChipEight.Web.Framework

/-!
# The web session

The web host keeps one engine at a time, that of the program loaded last. Loading builds a
new engine beside the old one and takes its place only when everything else has succeeded,
so a program that is refused leaves the one before it running. Two counters are shown with
the state, the beeps and the changes of the display mode. Both are read off the journal of
the current engine, so no earlier program contributes to them.

Some requests get no response, and the host is told the reason. If the old engine does not
end, loading fails and the old engine keeps its place.

The engine is given turns wherever the host waits for it: for its end, and after an action
before the response is made. How many there are is a matter of clocks.
-/

namespace ChipEight.Web

/-- The engine of the program loaded last. -/
structure Session where
  /-- The engine, once a program has been loaded. -/
  engine : Option Engine := none

/-- The name under which the session listens to the display. -/
def listener : Text := "session"

/-- The number of changes of the display mode since the program was loaded. -/
def geometryVersion (e : Engine) : Nat := (e.modesTold listener).length

/-- The number of beeps as a field of a response. -/
def beepsField (e : Engine) : String × Value := ("beeps", .int e.beeps)

/-- A row of pixels as text. -/
def rowText (row : List Bool) : String :=
  String.ofList (row.map fun lit => if lit then '1' else '0')

/-- The display as a response shows it. -/
def displayBody (e : Engine) : Value :=
  let surface := e.console.machine.display.surface
  .record
    [("width", .int surface.mode.width),
      ("height", .int surface.mode.height),
      ("geometry_version", .int (geometryVersion e)),
      ("rows", .list (surface.rows.map fun row => .str (rowText row)))]

/-- The timers as a response shows them. -/
def tickBody (e : Engine) : Value :=
  .record
    [("delay_timer", .int e.console.machine.timers.delay),
      ("sound_timer", .int e.console.machine.timers.sound),
      beepsField e]

/-- A new engine with a program loaded and the session listening. -/
def freshEngine (options : Options) (program : List UInt8) : Except Refusal Engine :=
  match (Engine.ofOptions options).load program with
  | (engine, .ok ()) => .ok (engine.addListener listener)
  | (_, .error (.fault fault)) => .error (.unacceptable fault.cause.message)
  | (_, .error failure) => .error (.failed (.engine failure))

/-- Ends the engine of the previous program, if there is one. -/
def endPrevious (turns : Nat) : Option Engine → Option Engine × Except Engine.Failure Unit
  | none => (none, .ok ())
  | some engine =>
    let (engine, ended) := engine.stopAndWait turns
    (some engine, ended)

/-- The refusal of a request to end the engine or to restart it, for its failure. -/
def Refusal.ofFailure : Engine.Failure → Refusal
  | .fault fault => .conflict fault
  | failure => .failed (.engine failure)

/-- Carries out a command, and lets the engine take turns where it may have something to do. -/
def Command.run (command : Command) (e : Engine) (turns : Nat) :
    Engine × Except Refusal Value :=
  match command with
  | .start =>
    let engine := e.start.1.settle turns
    (engine, .ok engine.status)
  | .stop =>
    match e.stopAndWait turns with
    | (engine, .error failure) => (engine, .error (.ofFailure failure))
    | (engine, .ok ()) => (engine, .ok engine.status)
  | .restart =>
    match e.restart turns with
    | (engine, .error failure) => (engine, .error (.ofFailure failure))
    | (engine, .ok _) =>
      let engine := engine.settle turns
      (engine, .ok engine.status)
  | .debug enabled =>
    let engine := e.setDebugMode enabled
    (engine, .ok engine.status)
  | .key number pressed =>
    match e.setKey number pressed with
    | (engine, .error refusal) =>
      (engine, .error (.unacceptable ("Invalid key: " ++ toString refusal.key)))
    | (engine, .ok ()) =>
      (engine.settle turns, .ok (.record [("key", .int number), ("pressed", .bool pressed)]))
  | .tick elapsed =>
    match e.update elapsed with
    | (engine, .error failure) => (engine, .error (.failed (.time failure)))
    | (engine, .ok ()) => (engine, .ok (tickBody engine))
  | .display => (e, .ok (displayBody e))
  | .state => (e, .ok (.record (e.statusFields ++ [beepsField e])))

namespace Session

/-- Replaces the engine by that of a new program. An engine that does not end keeps its
place. -/
def load (s : Session) (turns : Nat) (request : LoadRequest) : Session × Except Refusal Value :=
  match request.bytes with
  | .error refusal => (s, .error refusal)
  | .ok program =>
    match freshEngine request.options program with
    | .error refusal => (s, .error refusal)
    | .ok fresh =>
      match endPrevious turns s.engine with
      | (previous, .error failure) => ({ engine := previous }, .error (.failed (.engine failure)))
      | (_, .ok ()) =>
        let engine := if request.autostart then fresh.start.1.settle turns else fresh
        ({ engine := some engine }, .ok engine.status)

/-- Carries out a command, which needs a program. -/
def command (s : Session) (turns : Nat) (command : Command) : Session × Except Refusal Value :=
  match s.engine with
  | none => (s, .error .nothingLoaded)
  | some engine =>
    let (engine, result) := command.run engine turns
    ({ engine := some engine }, result)

/-- Carries out an action. The pages about the host are shown elsewhere. -/
def act (s : Session) (turns : Nat) : Action → Session × Except Refusal Value
  | .load request => s.load turns request
  | .command command => s.command turns command
  | .manual => (s, .ok .null)

/-- Answers a request. -/
def handle (f : Framework) (turns : Nat) (request : Request) (s : Session) :
    Session × Except Failure Response :=
  f.answer (fun action s => s.act turns action) request s

end Session

end ChipEight.Web
