import ChipEight.Proofs.StandardFramework
import ChipEight.Proofs.WebHost

/-!
# Requests that are refused

Most requests that are refused never come to the engine: they are turned away before the host sees
them, or there is no engine. Of the others, one for a key that there is not is refused by the engine
itself, which then does nothing, and one to load a program is refused because no new engine can be
built from it; at that point the engine that is there has not been touched. So the host stays as it
was, with its engine, the engines before it and its counters (`Web.Host.refused_request_keeps`).

A stop or a restart whose time is over before the thread ends is answered with a conflict as well. It
is told by its text, and it does not belong here, since the thread has been asked to end by then.
-/

namespace ChipEight.Web

variable {f : Framework} {h : Host} {turns : Nat} {request : Request}

/-- The response turns a request down before anything is done. -/
def Response.TurnsDown (response : Response) : Prop :=
  response.status ∈ [400, 404, 405, 422] ∨ response = .explained 409 "No program loaded"

theorem Response.not_turnsDown_ok (body : Value) : ¬ (Response.ok body).TurnsDown := by
  rintro (code | same)
  · have other : 200 ∉ [400, 404, 405, 422] := by decide
    exact other code
  · have code : 200 = 409 := congrArg Response.status same
    cases code

/-- Responses that explain themselves alike give the same reason. -/
theorem Response.detail_eq {status status' : Nat} {detail detail' : String}
    (same : Response.explained status detail = Response.explained status' detail') :
    detail = detail' := by
  injection same with _ body
  injection body with fields
  injection fields with field
  injection field with _ value
  injection value with text
  have back := congrArg Text.toString text
  rw [Text.toString_ofString, Text.toString_ofString] at back
  exact back

/-- That the engine did not end is said in other words than that there is none. -/
theorem message_engineStuck_ne (patience : Number) :
    (Fault.Cause.engineStuck patience).message ≠ "No program loaded" := by
  intro same
  have letters : "Engine did not stop within ".toList =
      'E' :: "ngine did not stop within ".toList := rfl
  have first := congrArg (fun text : String => text.toList.head?) same
  dsimp only [Fault.Cause.message] at first
  rw [String.toList_append, String.toList_append, letters, List.cons_append, List.cons_append,
    List.head?_cons] at first
  revert first
  decide

theorem Response.not_turnsDown_conflict {fault : Fault} {patience : Number}
    (stuck : fault.cause = .engineStuck patience) :
    ¬ (Response.explained 409 fault.cause.message).TurnsDown := by
  rintro (code | same)
  · have other : 409 ∉ [400, 404, 405, 422] := by decide
    exact other code
  · rw [stuck] at same
    exact message_engineStuck_ne patience (Response.detail_eq same)

namespace Host

/-- What is turned down leaves everything as it was. -/
theorem Orderly.carryOut_of_turnsDown (orderly : h.Orderly) {action : Action} {response : Response}
    (answered : Response.ofResult (h.session.act turns action).2 = .ok response)
    (down : response.TurnsDown) : h.carryOut turns action = h := by
  cases action with
  | manual => rfl
  | command command =>
    rw [carryOut]
    cases present : h.session.engine with
    | none => rfl
    | some e =>
      have ran : (h.session.act turns (.command command)).2 = (command.run e turns).2 := by
        simp only [Session.act, Session.command, present]
      rw [ran] at answered
      cases result : (command.run e turns).2 with
      | ok body =>
        rw [result] at answered
        cases answered
        exact absurd down (Response.not_turnsDown_ok body)
      | error refusal =>
        rw [result] at answered
        cases command.refused (orderly.hosted e present) result with
        | key named kept =>
          dsimp only
          rw [kept]
          exact follow_self present
        | conflict stuck =>
          cases answered
          exact absurd down (Response.not_turnsDown_conflict stuck)
        | failed failure => cases answered
  | load load =>
    have loaded : (h.session.act turns (.load load)).2 = (h.session.load turns load).2 := rfl
    rw [loaded, Session.load_eq] at answered
    rw [carryOut, Host.load]
    cases result : load.build with
    | error refusal => rfl
    | ok fresh =>
      -- only the engine that is there can be in the way now, and that is a failure
      rw [result] at answered
      dsimp only at answered
      split at answered
      · cases answered
      · cases answered
        exact absurd down (Response.not_turnsDown_ok _)

theorem Orderly.answer_of_turnsDown (lawful : f.Lawful) (orderly : h.Orderly) {response : Response}
    (answered : (h.session.handle f turns request).2 = .ok response) (down : response.TurnsDown) :
    h.answer f turns request = h := by
  cases read : f.action? request with
  | none => exact answer_of_none lawful h turns read
  | some action =>
    rw [Session.handle_of_some lawful read] at answered
    rw [answer_of_some lawful h turns read]
    exact orderly.carryOut_of_turnsDown answered down

end Host

/-! ## Programs and keys that are not acceptable -/

/-- Bytes that cannot be read are not acceptable. -/
theorem LoadRequest.bytes_refused {request : LoadRequest} {refusal : Refusal}
    (refused : request.bytes = .error refusal) : ∃ detail, refusal = .unacceptable detail := by
  rw [bytes] at refused
  split at refused
  · split at refused
    · cases refused
    · cases refused
      exact ⟨_, rfl⟩
  · split at refused
    · cases refused
    · cases refused
      exact ⟨_, rfl⟩
  · cases refused
    exact ⟨_, rfl⟩

theorem freshEngine_of_overlong (options : Options) {program : List UInt8}
    (long : 3584 < program.length) :
    freshEngine options program =
      .error (.unacceptable (Fault.Cause.programTooLarge program.length 3584).message) := by
  have waited : (Engine.ofOptions options).stopAndWait = ((Engine.ofOptions options).stop, .ok ()) :=
    Engine.stopAndWait_of_not_stuck rfl (.inl rfl)
  have refused := Engine.load_of_overlong (Engine.wellFormed_ofOptions options) waited long
  unfold freshEngine
  rw [refused]

/-- A load that cannot build an engine is answered with the reason. -/
theorem handle_of_unbuilt (lawful : f.Lawful) {load : LoadRequest}
    (read : f.action? request = some (.load load)) {detail : String}
    (unbuilt : load.build = .error (.unacceptable detail)) :
    (h.session.handle f turns request).2 = .ok (.explained 400 detail) := by
  have loaded : (h.session.act turns (.load load)).2 = .error (.unacceptable detail) := by
    rw [Session.act, Session.load_eq, unbuilt]
  rw [Session.handle_of_some lawful read, loaded]
  rfl

/-- A key that there is not is answered as such. -/
theorem handle_of_key (lawful : f.Lawful) {number : Int} {pressed : Bool} {e : Engine}
    (read : f.action? request = some (.command (.key number pressed)))
    (outside : ¬ (0 ≤ number ∧ number ≤ 15)) (present : h.session.engine = some e) :
    (h.session.handle f turns request).2 =
      .ok (.explained 400 ("Invalid key: " ++ toString number)) := by
  rcases e.setKey_cases number pressed with ⟨range, -⟩ | ⟨-, refused⟩
  · exact absurd range (by omega)
  · rw [Session.handle_of_some lawful read]
    simp only [Session.act, Session.command, present, Command.run, refused]
    rfl

namespace Host

/-- Whatever a host has come to, a request that is answered with one of these codes changes nothing of
it: not the engine of the session, nor any before it, nor a counter. A program that cannot be read or
is too long is refused in this way and leaves the engine doing what it was doing, while the engine
itself, if it is asked to load such a program, ends its thread first. So is a key that there is not.
Time outside its bounds never comes to the host. -/
theorem refused_request_keeps (lawful : f.Lawful) (moments : List Moment) (turns : Nat)
    (request : Request) :
    let h := after f moments
    let answer := (h.session.handle f turns request).2
    (∀ response, answer = .ok response →
        response.status ∈ [400, 404, 405, 422] ∨ response = .explained 409 "No program loaded" →
        h.next f (.request turns request) = h ∧
          (h.session.handle f turns request).1 = h.session) ∧
      (∀ load : LoadRequest, f.action? request = some (.load load) →
        (∀ refusal, load.bytes = .error refusal →
          ∃ detail, refusal = .unacceptable detail ∧ answer = .ok (.explained 400 detail)) ∧
        ∀ program, load.bytes = .ok program → 3584 < program.length →
          answer = .ok (.explained 400 (Fault.Cause.programTooLarge program.length 3584).message) ∧
          ∀ e, h.session.engine = some e →
            (e.load program).2 ≠ .ok () ∧ (e.load program).1 = e.stop ∧ e.stop.phase = .stopped) ∧
      (∀ key pressed, f.action? request = some (.command (.key key pressed)) →
        ¬ (0 ≤ key ∧ key ≤ 15) → h.session.engine ≠ none →
          answer = .ok (.explained 400 ("Invalid key: " ++ toString key))) ∧
      ∀ elapsed, f.action? request = some (.command (.tick elapsed)) →
        0 ≤ elapsed ∧ elapsed ≤ 60000 := by
  intro h answer
  have orderly : h.Orderly := orderly_after lawful moments
  refine ⟨?_, ?_, ?_, fun elapsed read => lawful.declared read⟩
  · intro response answered down
    have kept : h.answer f turns request = h := orderly.answer_of_turnsDown lawful answered down
    refine ⟨kept, ?_⟩
    rw [← session_answer lawful, kept]
  · intro load read
    constructor
    · intro refusal refused
      obtain ⟨detail, rfl⟩ := LoadRequest.bytes_refused refused
      refine ⟨detail, rfl, handle_of_unbuilt lawful read ?_⟩
      rw [LoadRequest.build, refused]
    · intro program bytes long
      constructor
      · apply handle_of_unbuilt lawful read
        rw [LoadRequest.build, bytes]
        exact freshEngine_of_overlong load.options long
      · intro e present
        have hosted := orderly.hosted e present
        have waited : e.stopAndWait = (e.stop, .ok ()) := hosted.stopAndWait_eq (Nat.le_refl 2)
        rw [Engine.load_of_overlong hosted.wellFormed waited long]
        refine ⟨?_, rfl, hosted.wellFormed.stop.ended_iff.mp hosted.activity_stop⟩
        intro succeeded
        cases succeeded
  · intro key pressed read outside loaded
    obtain ⟨e, present⟩ := Option.ne_none_iff_exists'.mp loaded
    exact handle_of_key lawful read outside present

/-- A program waits for a key. It goes on waiting when a program of more than 3584 bytes is sent, and
when a number is sent that is no byte. -/
theorem refused_request_keeps_waiting :
    let autostart : Request := post [("program", .list [.int 0xF0, .int 0x0A]),
      ("autostart", .bool true)]
    let load (numbers : List Int) : Request := post [("program", .list (numbers.map .int))]
    let h := after .standard [.request 10 autostart]
    h.session.engine.map (·.activity) = some (.awaitingKey ⟨0x200, Word.ofBytes 0xF0 0x0A⟩) ∧
      h.next .standard (.request 10 (load (List.replicate 3585 0))) = h ∧
      h.next .standard (.request 10 (load [256])) = h := by
  intro autostart load h
  have read (numbers : List Int) : Framework.standard.action? (load numbers) =
      some (.load { program := some numbers }) :=
    Framework.readsLoads_standard
      { program := rfl, programHex := .inl rfl, options := .inl ⟨.inl rfl, rfl⟩
        autostart := .inl ⟨rfl, rfl⟩ }
  have overlong : (List.replicate 3585 (0 : Int)).all (fun n => 0 ≤ n ∧ n ≤ 255) = true := by
    rw [List.all_replicate]
    rfl
  have bytes : ({ program := some (List.replicate 3585 0) } : LoadRequest).bytes =
      .ok (List.replicate 3585 0) := by
    rw [LoadRequest.bytes]
    dsimp only
    rw [if_pos overlong, List.map_replicate]
    rfl
  obtain ⟨kept, long, -, -⟩ := refused_request_keeps Framework.lawful_standard
    [.request 10 autostart] 10 (load (List.replicate 3585 0))
  obtain ⟨kept', malformed, -, -⟩ := refused_request_keeps Framework.lawful_standard
    [.request 10 autostart] 10 (load [256])
  have length : 3584 < (List.replicate 3585 (0 : UInt8)).length := by
    rw [List.length_replicate]
    decide
  obtain ⟨answered, -⟩ := (long _ (read _)).2 _ bytes length
  obtain ⟨detail, -, answered'⟩ := (malformed _ (read _)).1
    (.unacceptable "Program bytes must be 0-255") rfl
  have code : 400 ∈ [400, 404, 405, 422] := List.mem_cons_self
  exact ⟨by decide +kernel, (kept _ answered (.inl code)).1, (kept' _ answered' (.inl code)).1⟩

end Host

end ChipEight.Web
