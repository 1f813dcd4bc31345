import ChipEight.Proofs.RefusedRequests

/-!
# Programs in requests

A request to load a program gives it as a list of numbers or as hexadecimal text, and it makes no
difference which. The text may be any spelling of the bytes: what is read from a text is exactly what
it spells (`Hex.bytesOfChars?_eq_some_iff`). A text can only spell bytes, while a list may hold any
numbers, so that lists are refused for a reason of their own; and lists decide where both are given.
From the bytes on, a request is carried out in the same way (`Web.LoadRequest.Agrees.answersAlike`).

A program that is acceptable is loaded if the engine that is there ends while the host waits for it
(`Web.Host.load_by_numbers_or_text`). Two turns are enough for that, but a host that gives its engine
hardly any time may find that there were none (`Web.Host.load_out_of_time`).
-/

namespace ChipEight

namespace Hex

/-! ## Spellings -/

/-- The characters that separate bytes. -/
def blanks : List Char := [' ', '\t', '\n', '\x0b', '\x0c', '\r']

/-- The digits that stand for a number, in lower and in upper case. -/
def digitsOf (n : Nat) : List Char := [Nat.digitChar n, (Nat.digitChar n).toUpper]

/-- Characters that spell bytes: two digits for each, and blanks before, between and behind them. -/
inductive Spells : List Char → List UInt8 → Prop where
  | nil : Spells [] []
  | blank {c : Char} {cs : List Char} {bytes : List UInt8} (blank : c ∈ blanks)
      (rest : Spells cs bytes) : Spells (c :: cs) bytes
  | byte {b : UInt8} {high low : Char} {cs : List Char} {bytes : List UInt8}
      (first : high ∈ digitsOf (b.toNat / 16)) (second : low ∈ digitsOf (b.toNat % 16))
      (rest : Spells cs bytes) : Spells (high :: low :: cs) (b :: bytes)

variable {c d : Char} {m n : Nat} {cs : List Char} {bytes : List UInt8}

/-- What is true of all ASCII characters is true of one whose number is small enough. -/
theorem of_ascii {P : Char → Prop} (ascii : c.toNat < 128) (all : ∀ k < 128, P (Char.ofNat k)) :
    P c := by
  rw [← Char.ofNat_toNat c]
  exact all c.toNat ascii

theorem ascii_of_le {bound : Char} (le : c ≤ bound) (ascii : bound.toNat < 128) : c.toNat < 128 :=
  Nat.lt_of_le_of_lt le ascii

theorem isBlank_iff : isBlank c = true ↔ c ∈ blanks := by
  constructor
  · intro blank
    have ascii : c.toNat < 128 := by
      simp only [isBlank, Bool.or_eq_true, Bool.and_eq_true, decide_eq_true_eq] at blank
      rcases blank with rfl | ⟨-, high⟩
      · decide
      · exact ascii_of_le high (by decide)
    revert blank
    exact of_ascii (P := fun c => isBlank c = true → c ∈ blanks) ascii (by decide +kernel)
  · have all : blanks.all isBlank = true := by decide
    exact List.all_eq_true.mp all c

theorem digit?_eq_some_iff : digit? c = some n ↔ n < 16 ∧ c ∈ digitsOf n := by
  constructor
  · intro read
    have ascii : c.toNat < 128 := by
      unfold digit? at read
      split at read
      · next range => exact ascii_of_le range.2 (by decide)
      · split at read
        · next range => exact ascii_of_le range.2 (by decide)
        · split at read
          · next range => exact ascii_of_le range.2 (by decide)
          · cases read
    -- that leaves finitely many characters, each of which is asked
    exact of_ascii (P := fun c => ∀ n ∈ digit? c, n < 16 ∧ c ∈ digitsOf n) ascii
      (by decide +kernel) n read
  · rintro ⟨small, digit⟩
    have all : ∀ n < 16, (digitsOf n).all (digit? · = some n) = true := by decide
    exact of_decide_eq_true (List.all_eq_true.mp (all n small) c digit)

theorem isBlank_of_digit? (read : digit? c = some n) : isBlank c = false := by
  have all : ∀ n < 16, (digitsOf n).all (isBlank · = false) = true := by decide
  obtain ⟨small, digit⟩ := digit?_eq_some_iff.mp read
  exact of_decide_eq_true (List.all_eq_true.mp (all n small) c digit)

theorem bytesOfChars?_cons_of_isBlank (blank : isBlank c = true) (cs : List Char) :
    bytesOfChars? (c :: cs) = bytesOfChars? cs := by
  cases cs with
  | nil => simp only [bytesOfChars?, blank, if_true]
  | cons d rest => simp only [bytesOfChars?, blank, if_true]

theorem bytesOfChars?_cons_of_digit? (first : digit? c = some m) (second : digit? d = some n)
    (cs : List Char) :
    bytesOfChars? (c :: d :: cs) = (bytesOfChars? cs).map (UInt8.ofNat (16 * m + n) :: ·) := by
  simp only [bytesOfChars?, isBlank_of_digit? first, first, second]
  cases bytesOfChars? cs <;> rfl

/-- What is read is what is spelled. -/
theorem bytesOfChars?_eq_some_iff : bytesOfChars? cs = some bytes ↔ Spells cs bytes := by
  constructor
  -- one way along the cases of the reader, the other along the spelling
  · intro read
    fun_induction bytesOfChars? cs generalizing bytes with
    | case1 =>
      cases read
      exact .nil
    | case2 c blank =>
      cases read
      exact .blank (isBlank_iff.mp blank) .nil
    | case3 c solid => cases read
    | case4 c d rest blank ih => exact .blank (isBlank_iff.mp blank) (ih read)
    | case5 c d rest solid ih =>
      simp only [Option.bind_eq_bind, Option.bind_eq_some_iff, Option.pure_def,
        Option.some.injEq] at read
      obtain ⟨m, first, n, second, tail, read, rfl⟩ := read
      obtain ⟨high, upper⟩ := digit?_eq_some_iff.mp first
      obtain ⟨low, lower⟩ := digit?_eq_some_iff.mp second
      have value : (UInt8.ofNat (16 * m + n)).toNat = 16 * m + n :=
        UInt8.toNat_ofNat_of_lt' (by simp only [UInt8.size]; omega)
      refine .byte ?_ ?_ (ih read)
      · rw [value, show (16 * m + n) / 16 = m by omega]
        exact upper
      · rw [value, show (16 * m + n) % 16 = n by omega]
        exact lower
  · intro spells
    induction spells with
    | nil => rfl
    | blank blank _ ih => rw [bytesOfChars?_cons_of_isBlank (isBlank_iff.mpr blank), ih]
    | @byte b high low cs bytes first second _ ih =>
      have bound : b.toNat < 256 := b.toNat_lt
      have upper := digit?_eq_some_iff.mpr ⟨by omega, first⟩
      have lower := digit?_eq_some_iff.mpr ⟨by omega, second⟩
      have value : UInt8.ofNat (16 * (b.toNat / 16) + b.toNat % 16) = b := by
        rw [Nat.div_add_mod, UInt8.ofNat_toNat]
      rw [bytesOfChars?_cons_of_digit? upper lower, ih, value]
      rfl

end Hex

namespace Web

variable {f : Framework} {fields fields' : List (String × Value)} {request other : LoadRequest}
  {h : Host} {turns : Nat}

/-! ## Programs -/

theorem freshEngine_of_fits (options : Options) {program : List UInt8}
    (fits : program.length ≤ 3584) : ∃ fresh, freshEngine options program = .ok fresh := by
  have loaded : ((Engine.ofOptions options).load program).2 = .ok () :=
    Engine.load_of_fits (Engine.wellFormed_ofOptions options) rfl (.inl rfl) fits
  unfold freshEngine
  generalize (Engine.ofOptions options).load program = done at loaded ⊢
  obtain ⟨engine, result⟩ := done
  cases loaded
  exact ⟨_, rfl⟩

/-- The numbers are bytes of a program that fits. -/
def Acceptable (numbers : List Int) : Prop :=
  (∀ n ∈ numbers, 0 ≤ n ∧ n ≤ 255) ∧ numbers.length ≤ 3584

namespace LoadRequest

/-- Both requests carry the same program, with the same choices. -/
structure Agrees (request other : LoadRequest) : Prop where
  bytes : other.bytes = request.bytes
  options : other.options = request.options
  autostart : other.autostart = request.autostart

theorem bytes_of_numbers {numbers : List Int} (given : request.program = some numbers)
    (inside : ∀ n ∈ numbers, 0 ≤ n ∧ n ≤ 255) :
    request.bytes = .ok (numbers.map UInt8.ofInt) := by
  have all : (numbers.all fun n => 0 ≤ n ∧ n ≤ 255) = true := by simpa using inside
  rw [bytes, given]
  exact if_pos all

theorem bytes_of_no_bytes {numbers : List Int} (given : request.program = some numbers)
    (outside : ¬ ∀ n ∈ numbers, 0 ≤ n ∧ n ≤ 255) :
    request.bytes = .error (.unacceptable "Program bytes must be 0-255") := by
  have notAll : ¬ (numbers.all fun n => 0 ≤ n ∧ n ≤ 255) = true := by simpa using outside
  rw [bytes, given]
  exact if_neg notAll

theorem bytes_of_spells {text : Text} {program : List UInt8} (missing : request.program = none)
    (given : request.programHex = some text) (spells : Hex.Spells text.toString.toList program) :
    request.bytes = .ok program := by
  have read : Hex.toBytes? text.toString = some program := Hex.bytesOfChars?_eq_some_iff.mpr spells
  rw [bytes, missing, given]
  simp only [read]

/-- An engine is built from acceptable numbers, and from no others. -/
theorem build_of_numbers {numbers : List Int} (given : request.program = some numbers) :
    Acceptable numbers ∧ (∃ fresh, request.build = .ok fresh) ∨
      ¬ Acceptable numbers ∧ ∃ detail, request.build = .error (.unacceptable detail) := by
  by_cases inside : ∀ n ∈ numbers, 0 ≤ n ∧ n ≤ 255
  · have length : (numbers.map UInt8.ofInt).length = numbers.length := List.length_map _
    rw [build, bytes_of_numbers given inside]
    by_cases fits : numbers.length ≤ 3584
    · exact .inl ⟨⟨inside, fits⟩, freshEngine_of_fits _ (length ▸ fits)⟩
    · exact .inr ⟨fun acceptable => fits acceptable.2, _,
        freshEngine_of_overlong _ (length ▸ Nat.not_le.mp fits)⟩
  · rw [build, bytes_of_no_bytes given inside]
    exact .inr ⟨fun acceptable => inside acceptable.1, _, rfl⟩

end LoadRequest

/-- The engine that is there, if there is one, ends while the host waits for it. -/
def Session.MakesWay (s : Session) (turns : Nat) : Prop :=
  ∀ e, s.engine = some e → (e.stopAndWait turns).2 = .ok ()

/-- A load that can build an engine is carried out if the engine that is there makes way. -/
theorem handle_of_built (lawful : f.Lawful) {asking : Request}
    (read : f.action? asking = some (.load request)) {fresh : Engine}
    (built : request.build = .ok fresh) {s : Session} (way : s.MakesWay turns) :
    (s.handle f turns asking).2 = .ok (.ok (fresh.run (request.operations turns)).status) := by
  have ended : (endPrevious turns s.engine).2 = .ok () := by
    cases present : s.engine with
    | none => rfl
    | some e => exact way e present
  rw [Session.handle_of_some lawful read, Session.act,
    Session.load_eq_ok_iff.mpr ⟨fresh, built, ended, rfl⟩]
  rfl

/-- Both requests are answered the same, and leave the session and the host in the same state. -/
def Host.AnswersAlike (f : Framework) (h : Host) (turns : Nat) (asked asked' : Request) : Prop :=
  h.session.handle f turns asked' = h.session.handle f turns asked ∧
    h.next f (.request turns asked') = h.next f (.request turns asked)

/-- What becomes of a program does not depend on how it was given. -/
theorem LoadRequest.Agrees.answersAlike (lawful : f.Lawful) (reads : f.ReadsLoads)
    (agrees : request.Agrees other) (posted : request.Posted f fields)
    (posted' : other.Posted f fields') (h : Host) (turns : Nat) :
    h.AnswersAlike f turns (post fields) (post fields') := by
  constructor
  · rw [Session.handle_of_some lawful (reads posted'), Session.handle_of_some lawful (reads posted)]
    have same : h.session.load turns other = h.session.load turns request := by
      rw [Session.load, Session.load, agrees.bytes, agrees.options, agrees.autostart]
    rw [Session.act, Session.act, same]
  · have same : h.load turns other = h.load turns request := by
      rw [Host.load, Host.load, LoadRequest.build, LoadRequest.build, agrees.bytes, agrees.options,
        agrees.autostart]
    rw [Host.next, Host.next, Host.answer_of_some lawful h turns (reads posted'),
      Host.answer_of_some lawful h turns (reads posted)]
    exact same

namespace Host

/-- Whether the program of a request is given as numbers or as text makes no difference. Whatever a
host has come to, a request that gives numbers is refused unless they are bytes and no more than fit,
and otherwise it is carried out if the engine that is there makes way, for which two turns are enough.
A request that gives a spelling of the same bytes instead, and the same choices, is answered the same
and leaves the host in the same state. Where both are given the numbers decide, even if they are no
bytes or the text spells nothing. -/
theorem load_by_numbers_or_text (lawful : f.Lawful) (reads : f.ReadsLoads) (moments : List Moment)
    (turns : Nat) {numbers : List Int} (given : request.program = some numbers)
    (posted : request.Posted f fields) :
    let h := after f moments
    let answer := (h.session.handle f turns (post fields)).2
    (¬ Acceptable numbers → ∃ response, answer = .ok response ∧ response.status = 400) ∧
    (Acceptable numbers → h.session.MakesWay turns →
      ∃ response, answer = .ok response ∧ response.status = 200) ∧
    (2 ≤ turns → h.session.MakesWay turns) ∧
    (Acceptable numbers → ∀ (text : Text) (fields' : List (String × Value)),
      Hex.Spells text.toString.toList (numbers.map UInt8.ofInt) →
        LoadRequest.Posted f { request with program := none, programHex := some text } fields' →
          h.AnswersAlike f turns (post fields) (post fields')) ∧
    ∀ (text? : Option Text) (fields' : List (String × Value)),
      LoadRequest.Posted f { request with programHex := text? } fields' →
        h.AnswersAlike f turns (post fields) (post fields') := by
  intro h answer
  have orderly : h.Orderly := orderly_after lawful moments
  have read : f.action? (post fields) = some (.load request) := reads posted
  refine ⟨?_, ?_, ?_, ?_, ?_⟩
  · intro unacceptable
    rcases LoadRequest.build_of_numbers given with ⟨acceptable, -⟩ | ⟨-, detail, unbuilt⟩
    · exact absurd acceptable unacceptable
    · exact ⟨_, handle_of_unbuilt lawful read unbuilt, rfl⟩
  · intro acceptable way
    rcases LoadRequest.build_of_numbers given with ⟨-, fresh, built⟩ | ⟨unacceptable, -⟩
    · exact ⟨_, handle_of_built lawful read built way, rfl⟩
    · exact absurd acceptable unacceptable
  · intro enough e present
    rw [(orderly.hosted e present).stopAndWait_eq enough]
  · intro acceptable text fields' spells posted'
    have agrees : request.Agrees { request with program := none, programHex := some text } := by
      refine ⟨?_, rfl, rfl⟩
      rw [LoadRequest.bytes_of_spells rfl rfl spells,
        LoadRequest.bytes_of_numbers given acceptable.1]
    exact agrees.answersAlike lawful reads posted posted' h turns
  · intro text? fields' posted'
    have agrees : request.Agrees { request with programHex := text? } := by
      refine ⟨?_, rfl, rfl⟩
      rw [LoadRequest.bytes, LoadRequest.bytes, given]
    exact agrees.answersAlike lawful reads posted posted' h turns

/-- While a program waits for a key, another one comes: as numbers, as a text with blanks and in both
cases, or as numbers beside a text that spells nothing. It makes no difference which. -/
theorem load_by_numbers_or_text_while_waiting :
    let autostart (fields : List (String × Value)) := fields ++ [("autostart", .bool true)]
    let numbers := ("program", .list [.int 0x6A, .int 0xFB, .int 0x12, .int 0x02])
    let listed := post (autostart [numbers])
    let spelled := post (autostart [("program", .null), ("program_hex", .str "6A fB\n1202 ")])
    let both := post (autostart [("program_hex", .str "6 A"), numbers])
    let waiting := post (autostart [("program", .list [.int 0xF0, .int 0x0A])])
    let h := after .standard [.request 10 waiting]
    (∃ response, (h.session.handle .standard 10 listed).2 = .ok response ∧
        response.status = 200) ∧
      h.AnswersAlike .standard 10 listed spelled ∧ h.AnswersAlike .standard 10 listed both := by
  intro autostart numbers listed spelled both waiting h
  let request : LoadRequest := { program := some [0x6A, 0xFB, 0x12, 0x02], autostart := true }
  have posted : request.Posted .standard (autostart [numbers]) :=
    ⟨rfl, .inl rfl, .inl ⟨.inl rfl, rfl⟩, .inr rfl⟩
  have postedText : LoadRequest.Posted .standard
      { request with program := none, programHex := some "6A fB\n1202 " }
      (autostart [("program", .null), ("program_hex", .str "6A fB\n1202 ")]) :=
    ⟨.inr rfl, rfl, .inl ⟨.inl rfl, rfl⟩, .inr rfl⟩
  have postedBoth : LoadRequest.Posted .standard { request with programHex := some "6 A" }
      (autostart [("program_hex", .str "6 A"), numbers]) :=
    ⟨rfl, rfl, .inl ⟨.inl rfl, rfl⟩, .inr rfl⟩
  have acceptable : Acceptable [0x6A, 0xFB, 0x12, 0x02] := by
    unfold Acceptable
    decide
  have spells : Hex.Spells (Text.toString "6A fB\n1202 ").toList [0x6A, 0xFB, 0x12, 0x02] :=
    Hex.bytesOfChars?_eq_some_iff.mp (by decide +kernel)
  obtain ⟨-, accepted, way, asText, asBoth⟩ := load_by_numbers_or_text Framework.lawful_standard
    Framework.readsLoads_standard [.request 10 waiting] 10
    (rfl : request.program = some [0x6A, 0xFB, 0x12, 0x02]) posted
  exact ⟨accepted acceptable (way (by decide)), asText acceptable _ _ spells postedText,
    asBoth _ _ postedBoth⟩

/-- A program that never ends is given a millionth of a second to end. If the host then finds it still
running, a load is not answered, though there is nothing wrong with the new program. -/
theorem load_out_of_time :
    let millionth : Binary64 := { significand := 0x10000000000000, exponent := -72 }
    let endless := post [("program", .list [.int 0x12, .int 0x00]), ("autostart", .bool true),
      ("options", .record [("stop_timeout", .num (.binary millionth))])]
    let fields := [("program", .list [])]
    let h := after .standard [.request 1 endless]
    Acceptable [] ∧ LoadRequest.Posted .standard { program := some [] } fields ∧
      ¬ ∃ response, (h.session.handle .standard 0 (post fields)).2 = .ok response ∧
        response.status = 200 := by
  intro millionth endless fields h
  refine ⟨⟨List.forall_mem_nil _, Nat.zero_le _⟩,
    ⟨rfl, .inl rfl, .inl ⟨.inl rfl, rfl⟩, .inl ⟨rfl, rfl⟩⟩, ?_⟩
  have unanswered : (h.session.handle .standard 0 (post fields)).2.toOption.isNone = true := by
    decide +kernel
  rintro ⟨response, answered, -⟩
  rw [answered] at unanswered
  cases unanswered

end Host

end Web

end ChipEight
