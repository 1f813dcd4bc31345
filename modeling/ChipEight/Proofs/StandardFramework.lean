import ChipEight.Web.Standard

/-!
# The laws of the standard framework

The framework that is run keeps the laws that a host relies on (`Web.Framework.lawful_standard`). It
turns a request away without a look at the host, and values beyond their bounds are not read. What a
field gives is read as what it is, so that programs which are posted are read
(`Web.Framework.readsLoads_standard`).
-/

namespace ChipEight

namespace Reading

variable {α β : Type} {name : String} {fields : List (String × Value)}

theorem map_eq_found {g : α → β} {r : Reading α} {b : β} :
    g <$> r = .found b ↔ ∃ a, r = .found a ∧ g a = b := by
  constructor
  · intro same
    cases r with
    | found a =>
      cases same
      exact ⟨a, rfl, rfl⟩
    | refused values => cases same
  · rintro ⟨a, rfl, rfl⟩
    rfl

theorem app_eq_found {g : Reading (α → β)} {r : Reading α} {b : β} :
    g <*> r = .found b ↔ ∃ k a, g = .found k ∧ r = .found a ∧ k a = b := by
  constructor
  · intro same
    cases g with
    | found k =>
      cases r with
      | found a =>
        cases same
        exact ⟨k, a, rfl, rfl, rfl⟩
      | refused values => cases same
    | refused values => cases r <;> cases same
  · rintro ⟨k, a, rfl, rfl, rfl⟩
    rfl

theorem of_eq_found {read : Value → Option α} {value : Value} {a : α} :
    of read value = .found a ↔ read value = some a := by
  rw [of]
  cases read value <;> simp

/-- A field that may be missing has its default value, or one that was read. -/
theorem fieldD_eq_found {default a : α} {read : Value → Reading α}
    (same : fieldD name default read fields = .found a) :
    a = default ∨ ∃ value, read value = .found a := by
  rw [fieldD] at same
  split at same
  · next value _ => exact .inr ⟨value, same⟩
  · cases same
    exact .inl rfl

theorem orNull_eq_found {read : Value → Reading α} {value : Value} {a? : Option α}
    (same : orNull read value = .found a?) : a? = none ∨ ∃ a, read value = .found a ∧ a? = some a := by
  rw [orNull.eq_def] at same
  split at same
  · cases same
    exact .inl rfl
  · obtain ⟨a, found, rfl⟩ := map_eq_found.mp same
    exact .inr ⟨a, found, rfl⟩

end Reading

namespace Web

variable {fields : List (String × Value)} {request : LoadRequest} {value : Value}

/-! ## Bounds -/

/-- What holds of the default and of every number that is permitted holds of a span that is read. -/
theorem seconds_of_fieldD {P : Number → Prop} {permitted : Binary64 → Bool} {default n : Number}
    {name : String} (initial : P default) (others : ∀ x, permitted x = true → P (.binary x))
    (found : Reading.fieldD name default (readSeconds permitted) fields = .found n) : P n := by
  rcases Reading.fieldD_eq_found found with rfl | ⟨value, read⟩
  · exact initial
  · have read := Reading.of_eq_found.mp read
    obtain ⟨x, filtered, rfl⟩ := Option.map_eq_some_iff.mp read
    exact others x (Option.filter_eq_some_iff.mp filtered).2

/-- The spans of time among choices are within their bounds. -/
def Bounded (options : Options) : Prop := ({ options } : LoadRequest).Declared

theorem bounded_default : Bounded {} where
  debugDelay := by decide +kernel
  keyPoll := by decide +kernel
  stopTimeout := by decide +kernel

theorem bounded_of_readOptions {options : Options} (found : readOptions value = .found options) :
    Bounded options := by
  rw [readOptions, Reading.record.eq_def] at found
  split at found
  · obtain ⟨build₁, reversed, read₁, -, rfl⟩ := Reading.app_eq_found.mp found
    obtain ⟨build₂, seed, read₂, -, rfl⟩ := Reading.app_eq_found.mp read₁
    obtain ⟨build₃, stopTimeout, read₃, timeout, rfl⟩ := Reading.app_eq_found.mp read₂
    obtain ⟨build₄, keyPoll, read₄, poll, rfl⟩ := Reading.app_eq_found.mp read₃
    obtain ⟨build₅, debugDelay, read₅, delay, rfl⟩ := Reading.app_eq_found.mp read₄
    obtain ⟨debugMode, -, rfl⟩ := Reading.map_eq_found.mp read₅
    constructor
    · exact seconds_of_fieldD (P := fun n => n.isNonnegative = true ∧ n.atMost 5 = true)
        bounded_default.debugDelay (fun x => Bool.and_eq_true_iff.mp) delay
    · exact seconds_of_fieldD (P := fun n => n.isPositive = true ∧ n.atMost 1 = true)
        bounded_default.keyPoll (fun x => Bool.and_eq_true_iff.mp) poll
    · exact seconds_of_fieldD (P := fun n => n.isPositive = true ∧ n.atMost 30 = true)
        bounded_default.stopTimeout (fun x => Bool.and_eq_true_iff.mp) timeout
  · cases found

theorem declared_of_readLoad (found : readLoad value = .found request) : request.Declared := by
  rw [readLoad, Reading.record.eq_def] at found
  split at found
  · obtain ⟨build₁, autostart, read₁, -, rfl⟩ := Reading.app_eq_found.mp found
    obtain ⟨build₂, options, read₂, chosen, rfl⟩ := Reading.app_eq_found.mp read₁
    obtain ⟨build₃, programHex, read₃, -, rfl⟩ := Reading.app_eq_found.mp read₂
    obtain ⟨program, -, rfl⟩ := Reading.map_eq_found.mp read₃
    have bounded : Bounded (options.getD {}) := by
      rcases Reading.fieldD_eq_found chosen with rfl | ⟨value, read⟩
      · exact bounded_default
      · rcases Reading.orNull_eq_found read with rfl | ⟨given, valid, rfl⟩
        · exact bounded_default
        · exact bounded_of_readOptions valid
    exact ⟨bounded.debugDelay, bounded.keyPoll, bounded.stopTimeout⟩
  · cases found

theorem range_of_readTick {elapsed : Int} (found : readTick value = .found elapsed) :
    0 ≤ elapsed ∧ elapsed ≤ 60000 := by
  rw [readTick, Reading.record.eq_def] at found
  split at found
  · rw [Reading.field] at found
    split at found
    · have read := Reading.of_eq_found.mp found
      exact of_decide_eq_true (Option.filter_eq_some_iff.mp read).2
    · cases found
  · cases found

theorem readBody_eq_found {α : Type} {read : Value → Reading α} {body : Option Value} {a : α}
    (found : readBody read body = .found a) : ∃ value, read value = .found a := by
  cases body with
  | none => cases found
  | some value => exact ⟨value, found⟩

theorem Endpoint.declared_action {endpoint : Endpoint} {body : Option Value} {action : Action}
    (found : endpoint.action body = .found action) : action.Declared := by
  cases endpoint with
  | load =>
    obtain ⟨load, read, rfl⟩ := Reading.map_eq_found.mp found
    obtain ⟨value, read⟩ := readBody_eq_found read
    exact declared_of_readLoad read
  | tick =>
    obtain ⟨elapsed, read, rfl⟩ := Reading.map_eq_found.mp found
    obtain ⟨value, read⟩ := readBody_eq_found read
    exact range_of_readTick read
  | debug =>
    obtain ⟨enabled, -, rfl⟩ := Reading.map_eq_found.mp found
    exact True.intro
  | key name =>
    obtain ⟨build, pressed, read, -, rfl⟩ := Reading.app_eq_found.mp found
    obtain ⟨key, -, rfl⟩ := Reading.map_eq_found.mp read
    exact True.intro
  | start | stop | restart | display | state | manual =>
    cases found
    exact True.intro

theorem Action.declared_ofRequest {request : Request} {action : Action}
    (read : Action.ofRequest request = .ok action) : action.Declared := by
  rw [Action.ofRequest] at read
  split at read
  · cases read
  · split at read
    · cases read
    · split at read
      · cases read
      · next found =>
        cases read
        exact Endpoint.declared_action found

theorem ofRequest_of_action? {request : Request} {action : Action}
    (read : Framework.standard.action? request = some action) :
    Action.ofRequest request = .ok action := by
  have read : (Action.ofRequest request).toOption = some action := read
  cases asked : Action.ofRequest request with
  | error rejection =>
    rw [asked] at read
    cases read
  | ok other =>
    rw [asked] at read
    cases read
    rfl

/-- The standard framework keeps the laws of frameworks. -/
theorem Framework.lawful_standard : Framework.standard.Lawful where
  turnedAway {σ} host {request} s unread := by
    have unread : (Action.ofRequest request).toOption = none := unread
    rw [standard]
    dsimp only
    cases asked : Action.ofRequest request with
    | error rejection => rfl
    | ok action =>
      rw [asked] at unread
      cases unread
  carriedOut {σ} host {request} s action read := by
    rw [standard]
    dsimp only
    rw [ofRequest_of_action? read]
  declared read := Action.declared_ofRequest (ofRequest_of_action? read)

/-- More time than a minute is turned away. -/
example :
    let tick : Request :=
      { method := "POST"
        path := "/api/tick"
        body := some (.record [("elapsed_ms", .int 60001)]) }
    let answer := Framework.standard.answer (fun _ count => (count + 1, .ok .null)) tick 0
    answer.1 = 0 ∧ answer.2.toOption.map Response.status = some 422 := by
  decide +kernel

/-! ## Programs that are posted -/

/-- Numbers are read as they are. -/
theorem found_numbers (numbers : List Int) :
    Reading.all (.of Value.toInt?) (numbers.map .int) = .found numbers := by
  induction numbers with
  | nil => rfl
  | cons number rest ih =>
    rw [List.map_cons, Reading.all, ih]
    rfl

/-- A field is read as what it gives. -/
theorem fieldD_of_gives {α : Type} {name : String} {read : Value → Reading α} {write : α → Value}
    {given? : Option α} (gives : Gives fields name (given?.map write))
    (reads : ∀ given, Reading.orNull read (write given) = .found (some given)) :
    Reading.fieldD name none (.orNull read) fields = .found given? := by
  unfold Reading.fieldD
  cases given? with
  | some given =>
    have there : fields.lookup name = some (write given) := gives
    rw [there]
    exact reads given
  | none =>
    rcases gives with absent | null
    · rw [absent]
    · rw [null]
      rfl

namespace LoadRequest.Posted

/-- The choices are read as what they stand for, or are those that nobody made. -/
theorem options_eq (posted : request.Posted .standard fields) : ∃ options,
    Reading.fieldD "options" none (.orNull readOptions) fields = .found options ∧
      options.getD {} = request.options := by
  rcases posted.options with ⟨missing, same⟩ | ⟨value, there, valid⟩
  · refine ⟨none, ?_, same.symm⟩
    unfold Reading.fieldD
    rcases missing with absent | null
    · rw [absent]
    · rw [null]
      rfl
  · have read : readOptions value = .found request.options := by
      have valid : (readOptions value).found? = some request.options := valid
      cases found : readOptions value with
      | found options =>
        rw [found] at valid
        cases valid
        rfl
      | refused values =>
        rw [found] at valid
        cases valid
    refine ⟨some request.options, ?_, rfl⟩
    unfold Reading.fieldD
    rw [there]
    cases value with
    | null => cases read
    | _ => exact congrArg (Reading.map some) read

theorem autostart_eq (posted : request.Posted .standard fields) :
    Reading.fieldD "autostart" false (.of Value.toBool?) fields = .found request.autostart := by
  unfold Reading.fieldD
  rcases posted.autostart with ⟨missing, same⟩ | there
  · rw [missing, same]
  · rw [there]
    rfl

theorem readLoad_eq (posted : request.Posted .standard fields) :
    readLoad (.record fields) = .found request := by
  have program : Reading.fieldD "program" none (.orNull (.list (.of Value.toInt?))) fields =
      .found request.program := by
    apply fieldD_of_gives posted.program
    intro numbers
    have found : Reading.list (.of Value.toInt?) (.list (numbers.map .int)) = .found numbers :=
      found_numbers numbers
    rw [Reading.orNull, found]
    · rfl
    · exact Value.noConfusion
  have programHex : Reading.fieldD "program_hex" none (.orNull (.of Value.toText?)) fields =
      .found request.programHex :=
    fieldD_of_gives posted.programHex fun _ => rfl
  obtain ⟨options, chosen, same⟩ := posted.options_eq
  show (_ <$> Reading.fieldD "program" none (.orNull (.list (.of Value.toInt?))) fields <*>
    Reading.fieldD "program_hex" none (.orNull (.of Value.toText?)) fields <*>
    Reading.fieldD "options" none (.orNull readOptions) fields <*>
    Reading.fieldD "autostart" false (.of Value.toBool?) fields : Reading LoadRequest) = _
  rw [program, programHex, chosen, posted.autostart_eq]
  show Reading.found ({ request with options := options.getD {} } : LoadRequest) = _
  rw [same]

end LoadRequest.Posted

/-- The standard framework reads programs that are posted. -/
theorem Framework.readsLoads_standard : Framework.standard.ReadsLoads := by
  intro request fields posted
  have place : Endpoint.ofPath "/api/load".toList = .ok .load := rfl
  have permitted : "POST" ∈ Endpoint.load.methods := by decide
  have action : Endpoint.load.action (some (.record fields)) = .found (.load request) := by
    rw [Endpoint.action, readBody, posted.readLoad_eq]
    rfl
  have asked : Action.ofRequest (post fields) = .ok (.load request) := by
    rw [Action.ofRequest, post]
    dsimp only
    rw [place]
    dsimp only
    rw [if_neg (not_not_intro permitted), action]
  show (Action.ofRequest (post fields)).toOption = some (.load request)
  rw [asked]
  rfl

end Web

end ChipEight
