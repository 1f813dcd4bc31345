import ChipEight.Proofs.Beeps
import ChipEight.Proofs.StandardFramework
import ChipEight.Proofs.WebHost

/-!
# The counters of the session

The counters of a host are fed by calls from its engines, and set back when a program is loaded. Told
from the outside they count the time that ran a sound out and the changes of mode, since the last
load and of its engine alone (`Web.Host.counters_describe`).

Three things make it so. The engines that have lost their place have ended and tell nothing. A new
engine has told nothing by the time that the session listens to it, and shows the small mode. And
what an engine tells while it does something is as many beeps as sounds ran out, and as many changes
of mode as there were (`Web.hear_run`). Since there are two modes and the first is the small
one, the big one is there whenever their number is odd.
-/

namespace ChipEight

namespace Web

open Engine (tally switches expires)

variable {e : Engine} {operations : List Engine.Operation}

/-! ## What is heard of an engine -/

/-- What an engine has told the session. -/
def told (e : Engine) : Counters where
  beeps := e.beeps
  geometryVersion := geometryVersion e

/-- Whatever an engine tells adds to what it has told. -/
theorem told_hear (e : Engine) (operations : List Engine.Operation) :
    (told e).hear ((e.run operations).toldSince e) = told (e.run operations) := by
  have journal := e.journal_run operations
  have beeps : (e.run operations).beeps =
      e.beeps + ((e.run operations).toldSince e).count .beeped := by
    rw [Engine.beeps, Engine.beeps, ← Array.count_toList, ← Array.count_toList, journal,
      List.count_append]
  have modes : (e.run operations).modesTold listener =
      e.modesTold listener ++ Event.modesTold listener ((e.run operations).toldSince e) := by
    show Event.modesTold listener (e.run operations).journal.toList = _
    rw [journal, Event.modesTold_append]
    rfl
  simp only [told, Counters.hear, geometryVersion, beeps, modes, List.length_append]

/-- A hosted engine tells the session just of the sounds that run out and of the changes of mode. -/
theorem told_run (hosted : e.Hosted)
    (spares : ∀ operation ∈ operations, operation.hosted = true) :
    told (e.run operations) =
      { beeps := e.beeps + e.tally expires operations
        geometryVersion := geometryVersion e + e.tally switches operations } ∧
      (Mode.small.Leads (e.modesTold listener) e.mode →
        Mode.small.Leads ((e.run operations).modesTold listener) (e.run operations).mode) := by
  have once : e.listeners.count listener = 1 := by
    rw [hosted.listens, List.count_singleton_self]
  obtain ⟨modes, heard, length, leads⟩ :=
    Engine.modesTold_run hosted.unhindered hosted.suspended once spares
  constructor
  · rw [told, Engine.beeps_run hosted.suspended, geometryVersion, heard, List.length_append,
      length]
    rfl
  · intro before
    rw [heard]
    exact before.append leads

theorem hear_run (c : Counters) (hosted : e.Hosted)
    (spares : ∀ operation ∈ operations, operation.hosted = true) :
    c.hear ((e.run operations).toldSince e) =
      { beeps := c.beeps + e.tally expires operations
        geometryVersion := c.geometryVersion + e.tally switches operations } := by
  have heard := (told_hear e operations).trans (told_run hosted spares).1
  have beeps : ((e.run operations).toldSince e).count .beeped = e.tally expires operations :=
    Nat.add_left_cancel (congrArg Counters.beeps heard)
  have version : (Event.modesTold listener ((e.run operations).toldSince e)).length =
      e.tally switches operations :=
    Nat.add_left_cancel (congrArg Counters.geometryVersion heard)
  rw [Counters.hear, beeps, version]

/-- A new engine has told the session nothing, and shows the small mode. -/
theorem freshEngine_silent {options : Options} {program : List UInt8} {fresh : Engine}
    (built : freshEngine options program = .ok fresh) :
    fresh.mode = .small ∧ fresh.beeps = 0 ∧ fresh.modesTold listener = [] := by
  obtain ⟨succeeded, rfl⟩ := freshEngine_eq_ok built
  have free : (Engine.ofOptions options).Suspended := Engine.suspended_run options []
  have new : (Engine.ofOptions options).Unhindered := ⟨rfl, fun _ _ => Engine.Activity.noConfusion⟩
  have announced := Engine.Announces.load new free program 2
  have small := Engine.mode_load succeeded
  have still : ((Engine.ofOptions options).load program).1.mode = (Engine.ofOptions options).mode :=
    small
  refine ⟨small, (Engine.SetsSound.load free program 2).beeps, ?_⟩
  show ((Engine.ofOptions options).load program).1.modesTold listener = []
  rw [Engine.modesTold_eq_geometry, announced.geometry, if_pos still]
  rfl

theorem LoadRequest.silent_build {request : LoadRequest} {fresh : Engine}
    (built : request.build = .ok fresh) :
    fresh.mode = .small ∧ fresh.beeps = 0 ∧ fresh.modesTold listener = [] := by
  rw [build] at built
  split at built
  · cases built
  · exact freshEngine_silent built

/-- No sound runs out in a turn. -/
theorem untimed_turns (turns : Nat) :
    ∀ operation ∈ List.replicate turns Engine.Operation.turn,
      ∀ e : Engine, e.expires operation = false := by
  intro operation mem e
  rw [List.eq_of_mem_replicate mem]
  rfl

theorem LoadRequest.untimed (request : LoadRequest) (turns : Nat) :
    ∀ operation ∈ request.operations turns, ∀ e : Engine, e.expires operation = false := by
  rw [operations]
  split
  · exact List.forall_mem_cons.mpr ⟨fun _ => rfl, untimed_turns turns⟩
  · exact List.forall_mem_nil _

namespace Host

variable {f : Framework} {h : Host} {moment : Moment}

theorem Orderly.counters_next (lawful : f.Lawful) (orderly : h.Orderly) (moment : Moment) :
    (h.next f moment).counters =
      match h.built? f moment, h.session.engine with
      | some (fresh, operations), _ =>
        { beeps := fresh.tally expires operations
          geometryVersion := fresh.tally switches operations }
      | none, some e =>
        { beeps := h.counters.beeps + e.tally expires (moment.operations f e)
          geometryVersion :=
            h.counters.geometryVersion + e.tally switches (moment.operations f e) }
      | none, none => h.counters := by
  have becomes := orderly.becomes lawful moment
  generalize h.next f moment = next at becomes
  cases becomes with
  | installed built =>
    obtain ⟨turns, request, load, -, read, result, -, rfl⟩ := built?_eq_some built
    have hosted := LoadRequest.hosted_build (lawful.declared read) result
    rw [built]
    refine (hear_run {} hosted (load.hosted_operations turns)).trans ?_
    simp only [Nat.zero_add]
  | @followed e unbuilt present =>
    rw [unbuilt, present]
    exact hear_run h.counters (orderly.hosted e present) (moment.hosted_operations f e)
  | waited unbuilt absent => rw [unbuilt, absent]

/-- What the counters show is what the engine of the session has told, and the changes of mode that it
has told lead to the mode that it shows. -/
structure Counted (h : Host) : Prop where
  counters : ∀ e, h.session.engine = some e → h.counters = told e
  leads : ∀ e, h.session.engine = some e → Mode.small.Leads (e.modesTold listener) e.mode

theorem Counted.next (lawful : f.Lawful) (counted : h.Counted) (orderly : h.Orderly)
    (moment : Moment) : (h.next f moment).Counted := by
  have counters := orderly.counters_next lawful moment
  have becomes := orderly.becomes lawful moment
  generalize h.next f moment = next at becomes counters
  cases becomes with
  | @installed fresh _ built =>
    obtain ⟨turns, request, load, -, read, result, -, rfl⟩ := built?_eq_some built
    obtain ⟨mode, beeps, modes⟩ := LoadRequest.silent_build result
    have hosted := LoadRequest.hosted_build (lawful.declared read) result
    obtain ⟨told, leads⟩ := told_run hosted (load.hosted_operations turns)
    rw [built] at counters
    constructor
    · intro e same
      cases same
      rw [counters, told, beeps, geometryVersion, modes, Nat.zero_add, List.length_nil, Nat.zero_add]
    · intro e same
      cases same
      apply leads
      rw [modes, mode]
      exact .nil _
  | @followed e unbuilt present =>
    obtain ⟨told, leads⟩ := told_run (orderly.hosted e present) (moment.hosted_operations f e)
    rw [unbuilt, present] at counters
    constructor
    · intro next same
      cases same
      rw [counters, told, counted.counters e present]
      rfl
    · intro next same
      cases same
      exact leads (counted.leads e present)
  | waited => exact counted

/-- The request is one to let time pass. -/
def Moment.Ticks (f : Framework) (moment : Moment) (elapsed : Int) : Prop :=
  ∃ turns request, moment = .request turns request ∧
    f.action? request = some (.command (.tick elapsed))

/-- Time passes for no other reason. -/
theorem Moment.untimed (other : ∀ elapsed, ¬ moment.Ticks f elapsed) (e : Engine) :
    ∀ operation ∈ moment.operations f e, ∀ e : Engine, e.expires operation = false := by
  cases moment with
  | thread move => cases move <;> exact List.forall_mem_singleton.mpr fun _ => rfl
  | late => exact List.forall_mem_nil _
  | request turns request =>
    rw [operations]
    split
    · split
      · exact List.forall_mem_nil _
      · exact List.forall_mem_singleton.mpr fun _ => rfl
    · next command read =>
      cases command with
      | tick elapsed => exact absurd ⟨turns, request, rfl, read⟩ (other elapsed)
      | start => exact List.forall_mem_cons.mpr ⟨fun _ => rfl, untimed_turns turns⟩
      | restart =>
        rw [Command.operations]
        split
        · exact List.forall_mem_singleton.mpr fun _ => rfl
        · exact List.forall_mem_cons.mpr ⟨fun _ => rfl, untimed_turns turns⟩
      | stop | debug => exact List.forall_mem_singleton.mpr fun _ => rfl
      | display | state => exact List.forall_mem_nil _
      | key number pressed =>
        rw [Command.operations]
        split
        · exact List.forall_mem_cons.mpr ⟨fun _ => rfl, untimed_turns turns⟩
        · exact List.forall_mem_nil _
    · exact List.forall_mem_nil _

end Host

/-! ## The display as a response shows it -/

namespace Host

variable {f : Framework}

/-- A program that pauses before each instruction selects the big mode when the first pause is over. -/
example :
    let load := post [("program", .list [.int 0x00, .int 0xFF, .int 0x12, .int 0x02]),
      ("autostart", .bool true), ("options", .record [("debug_mode", .bool true)])]
    (after .standard [.request 2 load]).counters.geometryVersion = 0 ∧
      (after .standard [.request 2 load, .thread .wake]).counters.geometryVersion = 1 := by
  decide +kernel

end Host

end Web

end ChipEight
