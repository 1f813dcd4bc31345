import ChipEight.Value.Reading
import ChipEight.Web.Framework

/-!
# The router and the validator that are run

`Framework.standard` finds the place that a path names, checks the method and reads the
values in the path and in the body. A request is turned away because its path is unknown,
because the path has another method, or because the path or the body cannot be read. That
order is fixed.

Paths are compared character by character, so nothing in them is an escape or a query. Only
a line break at the end does no harm. A path that becomes a known one without the slashes at
its end is referred to that one, whatever the method.

Fields of a body that are not known are ignored. A request that cannot be read is turned
away with all the values that are to blame. Responses are JSON proper, so one that would
have to quote an infinite or an undefined number cannot be made, and there is none.
-/

namespace ChipEight.Web

/-- Why a request was turned away. -/
inductive Rejection where
  /-- The path is unknown. -/
  | unknownPath
  /-- The path is known without the slashes at its end. -/
  | moved
  /-- The path has another method. -/
  | wrongMethod
  /-- The path or the body cannot be read, for these values in them. -/
  | malformed (values : List Value)

/-- The response to a request that is turned away. -/
def Rejection.response : Rejection → Except Failure Response
  | unknownPath => .ok (.explained 404 "Not Found")
  | moved => .ok { status := 307, body := .null }
  | wrongMethod => .ok (.explained 405 "Method Not Allowed")
  | malformed values =>
    if Value.areFinite values then .ok { status := 422, body := .null } else .error .unquotable

/-- The places of the web host. -/
inductive Endpoint where
  | load
  | start
  | stop
  | restart
  | debug
  /-- One key, as the path names it. -/
  | key (name : String)
  | tick
  | display
  | state
  /-- A page about the web host itself. -/
  | manual

namespace Endpoint

/-- The places whose path is fixed. -/
def fixed : List (String × Endpoint) :=
  [("/api/load", load), ("/api/start", start), ("/api/stop", stop), ("/api/restart", restart),
    ("/api/debug", debug), ("/api/tick", tick), ("/api/display", display),
    ("/api/state", state), ("/openapi.json", manual), ("/docs", manual),
    ("/docs/oauth2-redirect", manual), ("/redoc", manual)]

/-- The directory of the keys. -/
def keys : String := "/api/keys/"

/-- A path without one line break at its end. -/
def dropLineBreak (path : List Char) : List Char :=
  if path.getLast? = some '\n' then path.dropLast else path

/-- What follows the directory of the keys, if it is the name of a single thing. -/
def keyName? (path : List Char) : Option String :=
  let name := path.drop keys.length
  if path.take keys.length = keys.toList && !name.isEmpty && !name.contains '/' then
    some (String.ofList name)
  else none

/-- The place that a path names. -/
def ofPath? (path : List Char) : Option Endpoint :=
  match fixed.lookup (String.ofList (dropLineBreak path)) with
  | some endpoint => some endpoint
  | none => (keyName? path).map key

/-- A path without the slashes at its end. -/
def dropSlashes (path : List Char) : List Char := (path.reverse.dropWhile (· = '/')).reverse

/-- The place that a path names, or why it names none. -/
def ofPath (path : List Char) : Except Rejection Endpoint :=
  match ofPath? path with
  | some endpoint => .ok endpoint
  | none => .error (if (ofPath? (dropSlashes path)).isSome then .moved else .unknownPath)

/-- The methods of a place: what only shows is got, what changes is posted. -/
def methods : Endpoint → List String
  | display => ["GET"]
  | state => ["GET"]
  | manual => ["GET", "HEAD"]
  | _ => ["POST"]

end Endpoint

/-- A span of seconds that meets a condition. -/
def readSeconds (permitted : Binary64 → Bool) : Value → Reading Number :=
  .of fun value => (value.toBinary64?.filter permitted).map .binary

/-- The choices for a new console. -/
def readOptions : Value → Reading Options :=
  .record fun fields =>
    let defaults : Options := {}
    let build := fun debugMode debugDelay keyPoll stopTimeout seed reversed =>
      ({ debugMode, debugDelay, keyPoll, stopTimeout, seed, reversed } : Options)
    build
      <$> .fieldD "debug_mode" defaults.debugMode (.of Value.toBool?) fields
      <*> .fieldD "debug_delay" defaults.debugDelay
          (readSeconds fun x => x.isNonnegative && x.atMost 5) fields
      <*> .fieldD "key_poll_interval" defaults.keyPoll
          (readSeconds fun x => x.isPositive && x.atMost 1) fields
      <*> .fieldD "stop_timeout" defaults.stopTimeout
          (readSeconds fun x => x.isPositive && x.atMost 30) fields
      <*> .fieldD "seed" defaults.seed (.orNull (.of Value.toInt?)) fields
      <*> .fieldD "reverse_subn" defaults.reversed (.of Value.toBool?) fields

/-- The body of a request to load a program. -/
def readLoad : Value → Reading LoadRequest :=
  .record fun fields =>
    let build := fun program programHex (options : Option Options) autostart =>
      ({ program, programHex, options := options.getD {}, autostart } : LoadRequest)
    build
      <$> .fieldD "program" none (.orNull (.list (.of Value.toInt?))) fields
      <*> .fieldD "program_hex" none (.orNull (.of Value.toText?)) fields
      <*> .fieldD "options" none (.orNull readOptions) fields
      <*> .fieldD "autostart" false (.of Value.toBool?) fields

/-- The amount of host time in the body of a request. -/
def readTick : Value → Reading Int :=
  .record (.field "elapsed_ms" (.of fun value =>
    value.toInt?.filter fun elapsed => 0 ≤ elapsed ∧ elapsed ≤ 60000))

/-- A truth value in the body of a request. -/
def readFlag (name : String) : Value → Reading Bool :=
  .record (.field name (.of Value.toBool?))

/-- Reads a body that may not be missing. -/
def readBody {α : Type} (read : Value → Reading α) : Option Value → Reading α
  | some body => read body
  | none => .refused []

/-- The key that a path names. -/
def readKey (name : String) : Reading Int := .of Value.toInt? (.str name)

/-- The action that a request to a place asks for. -/
def Endpoint.action (endpoint : Endpoint) (body : Option Value) : Reading Action :=
  match endpoint with
  | .load => .load <$> readBody readLoad body
  | .start => .found (.command .start)
  | .stop => .found (.command .stop)
  | .restart => .found (.command .restart)
  | .debug => (.command <| .debug ·) <$> readBody (readFlag "enabled") body
  | .key name =>
    (fun key pressed => .command (.key key pressed))
      <$> readKey name <*> readBody (readFlag "pressed") body
  | .tick => (.command <| .tick ·) <$> readBody readTick body
  | .display => .found (.command .display)
  | .state => .found (.command .state)
  | .manual => .found .manual

/-- The action a request asks for, or why it is refused. -/
def Action.ofRequest (request : Request) : Except Rejection Action :=
  match Endpoint.ofPath request.path.toList with
  | .error refusal => .error refusal
  | .ok endpoint =>
    if request.method ∉ endpoint.methods then .error .wrongMethod
    else
      match endpoint.action request.body with
      | .refused values => .error (.malformed values)
      | .found action => .ok action

/-- The framework that is run. -/
def Framework.standard : Framework where
  options? value := (readOptions value).found?
  action? request := (Action.ofRequest request).toOption
  answer host request s :=
    match Action.ofRequest request with
    | .error rejection => (s, rejection.response)
    | .ok action =>
      let (s, result) := host action s
      (s, Response.ofResult result)

end ChipEight.Web
