import ChipEight.Engine
import ChipEight.Value

/-!
# Requests

A request to the web host names a method and a path and may carry a body. What it asks for is
an action, and an action that cannot be carried out is refused. Who tells actions from
requests is not the host itself but what it is built on, a `Web.Framework`.

The bounds that the host declares for the numbers in a request are part of what an action is,
since no request beyond them becomes one: `Web.Action.Declared`.
-/

namespace ChipEight.Web

/-- A request to the web host. -/
structure Request where
  method : String
  path : String
  body : Option Value := none

/-- A request to load a program, given as numbers or as hexadecimal text. -/
structure LoadRequest where
  program : Option (List Int) := none
  programHex : Option Text := none
  /-- The choices for the new console. -/
  options : Options := {}
  /-- Whether the program is started at once. -/
  autostart : Bool := false

/-- What a request asks of the engine that is there. -/
inductive Command where
  | start
  | stop
  | restart
  | debug (enabled : Bool)
  | key (key : Int) (pressed : Bool)
  | tick (elapsed : Int)
  | display
  | state

/-- What a request asks for. -/
inductive Action where
  | load (request : LoadRequest)
  | command (command : Command)
  /-- A page about the web host itself. -/
  | manual

/-- The spans of time among the choices are within the bounds that are declared for them. -/
structure LoadRequest.Declared (request : LoadRequest) : Prop where
  debugDelay : request.options.debugDelay.isNonnegative = true ∧
    request.options.debugDelay.atMost 5 = true
  keyPoll : request.options.keyPoll.isPositive = true ∧ request.options.keyPoll.atMost 1 = true
  stopTimeout : request.options.stopTimeout.isPositive = true ∧
    request.options.stopTimeout.atMost 30 = true

/-- The numbers in what is asked for are within the bounds that are declared for them. -/
def Action.Declared : Action → Prop
  | .load request => request.Declared
  | .command (.tick elapsed) => 0 ≤ elapsed ∧ elapsed ≤ 60000
  | _ => True

/-- Why what was asked for got no response. -/
inductive Failure where
  /-- The engine failed. -/
  | engine (failure : Engine.Failure)
  /-- Time did not pass. -/
  | time (failure : Console.UpdateFailure)
  /-- The response would have to quote a number that it cannot show. -/
  | unquotable

/-- Why an action was not carried out. -/
inductive Refusal where
  /-- No program has been loaded yet. -/
  | nothingLoaded
  /-- The engine did not end. -/
  | conflict (fault : Fault)
  /-- The content of the request is not acceptable. -/
  | unacceptable (detail : String)
  /-- Something failed where the host does not expect it. -/
  | failed (failure : Failure)

/-- A response to a request. -/
structure Response where
  /-- The status code. -/
  status : Nat
  body : Value

namespace Response

/-- What was asked for was done. -/
def ok (body : Value) : Response := { status := 200, body }

/-- It was not done, and the body says why. -/
def explained (status : Nat) (detail : String) : Response :=
  { status, body := .record [("detail", .str detail)] }

/-- The response to what came of an action. -/
def ofResult : Except Refusal Value → Except Failure Response
  | .ok body => .ok (.ok body)
  | .error .nothingLoaded => .ok (.explained 409 "No program loaded")
  | .error (.conflict fault) => .ok (.explained 409 fault.cause.message)
  | .error (.unacceptable detail) => .ok (.explained 400 detail)
  | .error (.failed failure) => .error failure

end Response

/-- The bytes of the program a request carries. Numbers decide where they are given, even if
they are no bytes. -/
def LoadRequest.bytes (request : LoadRequest) : Except Refusal (List UInt8) :=
  match request.program, request.programHex with
  | some numbers, _ =>
    if numbers.all fun n => 0 ≤ n ∧ n ≤ 255 then .ok (numbers.map UInt8.ofInt)
    else .error (.unacceptable "Program bytes must be 0-255")
  | none, some text =>
    match Hex.toBytes? text.toString with
    | some bytes => .ok bytes
    | none => .error (.unacceptable "Invalid program hex")
  | none, none => .error (.unacceptable "Either program or program_hex is required")

end ChipEight.Web
