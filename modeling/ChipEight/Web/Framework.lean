import ChipEight.Web.Request

/-!
# What the web host is built on

The host says what is to be done for an action. That a request becomes an action is the work
of others: of a router, which finds the place that a method and a path name, and of a
validator, which reads the values in the path and in the body. Both are taken here as they
are, as a parameter, and what the host relies on is stated as laws of it
(`Framework.Lawful`). The first law is that a request which is turned away never reaches the
host. The router and the validator cannot look into what the host does either, so an action
is carried out once and answered with what came of it.

Whoever posts a program relies on being understood (`Framework.ReadsLoads`): a list of
integers, a text, choices that are valid and a truth value are read as what they are, and a
field that has a default may be missing.
-/

namespace ChipEight.Web

/-- A router with a validator. -/
structure Framework where
  /-- The choices for a new console that a value stands for, if it is valid. -/
  options? : Value → Option Options
  /-- What a request asks for, unless it is turned away. -/
  action? : Request → Option Action
  /-- Answers a request with the help of a host, which carries out actions on a state. -/
  answer {σ : Type} (host : Action → σ → σ × Except Refusal Value) (request : Request) (s : σ) :
    σ × Except Failure Response

namespace Framework

/-- What a host relies on. -/
structure Lawful (f : Framework) : Prop where
  /-- A request that is turned away never reaches the host. -/
  turnedAway {σ : Type} (host : Action → σ → σ × Except Refusal Value) {request : Request} (s : σ)
    (unread : f.action? request = none) : (f.answer host request s).1 = s
  /-- Any other is carried out, and answered with what came of it. -/
  carriedOut {σ : Type} (host : Action → σ → σ × Except Refusal Value) {request : Request} (s : σ)
    {action : Action} (read : f.action? request = some action) :
    f.answer host request s = ((host action s).1, Response.ofResult (host action s).2)
  /-- Values beyond their bounds are turned away. -/
  declared {request : Request} {action : Action} (read : f.action? request = some action) :
    action.Declared

end Framework

/-- A field has a value. Where there is none it is left out, or null. -/
def Gives (fields : List (String × Value)) (name : String) : Option Value → Prop
  | some value => fields.lookup name = some value
  | none => fields.lookup name = none ∨ fields.lookup name = some .null

/-- A body with these fields asks to load what the request says. Fields that are not known may
stand beside the others. -/
structure LoadRequest.Posted (f : Framework) (request : LoadRequest)
    (fields : List (String × Value)) : Prop where
  program : Gives fields "program" (request.program.map fun numbers => .list (numbers.map .int))
  programHex : Gives fields "program_hex" (request.programHex.map .str)
  options : Gives fields "options" none ∧ request.options = {} ∨
    ∃ value, fields.lookup "options" = some value ∧ f.options? value = some request.options
  autostart : fields.lookup "autostart" = none ∧ request.autostart = false ∨
    fields.lookup "autostart" = some (.bool request.autostart)

/-- The request to load with a body of these fields. -/
def post (fields : List (String × Value)) : Request :=
  { method := "POST", path := "/api/load", body := some (.record fields) }

/-- Programs that are posted are read. -/
def Framework.ReadsLoads (f : Framework) : Prop :=
  ∀ {request : LoadRequest} {fields : List (String × Value)}, request.Posted f fields →
    f.action? (post fields) = some (.load request)

end ChipEight.Web
