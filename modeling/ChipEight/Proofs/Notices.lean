import ChipEight.Proofs.Footprint
import Mathlib.Algebra.Ring.Parity
import Mathlib.Data.List.Chain

/-!
# Notices

A display tells its listeners of a change of mode, and of nothing else. Three calls may change the
mode and two of them blank the surface in any case; the listeners hear of a call exactly if the mode
is another one after it. What a call does to the mode is therefore all that has to be known of it
(`Display.mode_call`, `Display.events_call`).

A listener that is registered once hears every change there is, so what it has heard leads from the
mode at its registration to the present one (`Mode.Leads`, `Display.leads_calls`). As there are two
modes, it hears of them by turns, and the number of notices tells which one it is.
-/

namespace ChipEight

namespace Mode

/-- The columns and the rows. -/
def size (mode : Mode) : Nat × Nat := (mode.width, mode.height)

/-- The modes of a list follow upon the first one, each different from the one before it, and lead to
the last one. -/
inductive Leads : Mode → List Mode → Mode → Prop
  | nil (mode : Mode) : Leads mode [] mode
  | cons {mode next last : Mode} {told : List Mode} (changed : mode ≠ next)
      (rest : Leads next told last) : Leads mode (next :: told) last

variable {mode next last : Mode} {told more : List Mode}

theorem size_ne (changed : mode ≠ next) : mode.size ≠ next.size := by
  intro same
  apply changed
  cases mode <;> cases next <;> first | rfl | cases same

/-- There are only two modes. -/
theorem eq_iff_ne (changed : mode ≠ next) : last = next ↔ last ≠ mode := by
  cases mode <;> cases next <;> cases last <;> simp at changed ⊢

namespace Leads

theorem append (h : Leads mode told next) (h' : Leads next more last) :
    Leads mode (told ++ more) last := by
  induction h with
  | nil => exact h'
  | cons changed _ ih => exact .cons changed (ih h')

/-- An odd number of changes leads to the other mode. -/
theorem odd_iff (h : Leads mode told last) : Odd told.length ↔ last ≠ mode := by
  induction h with
  | nil => simp
  | cons changed _ ih =>
    rw [List.length_cons, Nat.odd_add_one, ih, Decidable.not_not]
    exact eq_iff_ne changed

theorem isChain (h : Leads mode told last) : ((mode :: told).map size).IsChain (· ≠ ·) := by
  induction h with
  | nil => exact .singleton _
  | cons changed _ ih => exact .cons_cons (size_ne changed) ih

end Leads

end Mode

namespace Event

/-- Which listener was told a new mode, and its columns and rows. -/
def notice? : Event → Option (Text × Nat × Nat)
  | .listenerTold name mode => some (name, mode.size)
  | _ => none

/-- The mode that a listener was told. -/
def modeTold? (listener : Text) : Event → Option Mode
  | .listenerTold name mode => if name = listener then some mode else none
  | _ => none

/-- The modes that a listener was told, in order. -/
def modesTold (listener : Text) (events : List Event) : List Mode :=
  events.filterMap (modeTold? listener)

theorem modesTold_append (listener : Text) (events events' : List Event) :
    modesTold listener (events ++ events') =
      modesTold listener events ++ modesTold listener events' :=
  List.filterMap_append

end Event

namespace Display

variable {d : Display} {name : Text}

/-! ## Calls -/

/-- What is asked of a display. -/
inductive Call where
  | draw (x y : Int) (sprite : List UInt8)
  | clear
  | setMode (mode : Mode)
  | selectMode (mode : Mode)
  | reset
  | addListener (name : Text)
  | removeListener (name : Text)

/-- What a display answers. -/
inductive Answer where
  /-- Whether a lit pixel was turned off. -/
  | drawn (collided : Bool)
  /-- Whether the mode was another one before. -/
  | switched (changed : Bool)
  | done
  /-- There is no such listener to be removed. -/
  | unregistered
deriving DecidableEq

/-- Does what is asked of a display. -/
def call (d : Display) : Call → Effect Display Answer
  | .draw x y sprite => { state := (d.draw x y sprite).1, result := .drawn (d.draw x y sprite).2 }
  | .clear => { state := d.clear, result := .done }
  | .setMode mode =>
    let done := d.setMode mode
    { state := done.state, result := .switched done.result, events := done.events }
  | .selectMode mode =>
    let done := d.selectMode mode
    { state := done.state, result := .done, events := done.events }
  | .reset => { state := d.reset.state, result := .done, events := d.reset.events }
  | .addListener name => { state := d.addListener name, result := .done }
  | .removeListener name =>
    match d.removeListener? name with
    | none => { state := d, result := .unregistered }
    | some next => { state := next, result := .done }

/-- Does what is asked in order, with the answers in the same order. -/
def calls (d : Display) : List Call → Effect Display (List Answer)
  | [] => { state := d, result := [] }
  | first :: rest =>
    let done := d.call first
    let later := done.state.calls rest
    { state := later.state
      result := done.result :: later.result
      events := done.events ++ later.events }

/-- The mode that a call asks for. -/
def Call.mode? : Call → Option Mode
  | .setMode mode => some mode
  | .selectMode mode => some mode
  | .reset => some .small
  | _ => none

/-- The call registers a listener or removes one. -/
def Call.registers : Call → Bool
  | .addListener _ => true
  | .removeListener _ => true
  | _ => false

/-- The call leaves the display without a lit pixel. -/
def Call.blanks (d : Display) : Call → Bool
  | .clear => true
  | .setMode mode => mode ≠ d.mode
  | .selectMode _ => true
  | .reset => true
  | _ => false

/-! ## What a call does -/

theorem setMode_of_ne {mode : Mode} (changed : mode ≠ d.mode) :
    d.setMode mode =
      { state := { d with surface := Surface.blank mode }
        result := true
        events := d.modeEvents mode } :=
  if_neg changed

theorem mode_setMode (d : Display) (mode : Mode) : (d.setMode mode).state.mode = mode := by
  rw [setMode]
  split
  · next same => exact same.symm
  · rfl

theorem mode_selectMode (d : Display) (mode : Mode) : (d.selectMode mode).state.mode = mode :=
  congrArg Surface.mode (d.surface_selectMode mode)

theorem removeListener_cases (d : Display) (name : Text) :
    name ∉ d.listeners ∧
        d.call (.removeListener name) = { state := d, result := .unregistered } ∨
      name ∈ d.listeners ∧
        d.call (.removeListener name) =
          { state := { d with listeners := d.listeners.erase name }, result := .done } := by
  rw [call, removeListener?]
  by_cases registered : name ∈ d.listeners
  · rw [if_pos registered]
    exact .inr ⟨registered, rfl⟩
  · rw [if_neg registered]
    exact .inl ⟨registered, rfl⟩

theorem mode_call (d : Display) (call : Call) :
    (d.call call).state.mode = call.mode?.getD d.mode := by
  cases call with
  | draw x y sprite => exact d.mode_draw x y sprite
  | setMode mode => exact d.mode_setMode mode
  | selectMode mode => exact d.mode_selectMode mode
  | reset => exact d.mode_selectMode .small
  | clear | addListener => rfl
  | removeListener name =>
    rcases d.removeListener_cases name with ⟨-, same⟩ | ⟨-, same⟩ <;>
    · rw [same]
      rfl

theorem events_setMode (d : Display) (mode : Mode) :
    (d.setMode mode).events = if mode = d.mode then [] else d.modeEvents mode := by
  rw [setMode]
  split <;> rfl

/-- A call is told exactly if the mode is another one after it. -/
theorem events_call (d : Display) (call : Call) :
    (d.call call).events =
      if (d.call call).state.mode = d.mode then [] else d.modeEvents (d.call call).state.mode := by
  rw [mode_call]
  cases call with
  | setMode mode => exact d.events_setMode mode
  | selectMode mode => exact d.events_setMode mode
  | reset => exact d.events_setMode .small
  | draw | clear | addListener => exact (if_pos rfl).symm
  | removeListener name =>
    rcases d.removeListener_cases name with ⟨-, same⟩ | ⟨-, same⟩ <;>
    · rw [same]
      exact (if_pos rfl).symm

theorem notices_modeEvents (d : Display) (mode : Mode) :
    (d.modeEvents mode).filterMap Event.notice? = d.listeners.map fun name => (name, mode.size) := by
  rw [modeEvents, List.filterMap_cons_none rfl, List.filterMap_map]
  exact congrFun List.filterMap_eq_map _

theorem lit_call {call : Call} (blanks : call.blanks d = true) (p : Nat) :
    (d.call call).state.surface.lit p = false := by
  cases call with
  | clear => exact Surface.lit_blank _ p
  | setMode mode =>
    rw [Display.call, setMode_of_ne (of_decide_eq_true blanks)]
    exact Surface.lit_blank _ p
  | selectMode mode =>
    show (d.selectMode mode).state.surface.lit p = false
    rw [surface_selectMode, Surface.lit_blank]
  | reset =>
    show (d.selectMode .small).state.surface.lit p = false
    rw [surface_selectMode, Surface.lit_blank]
  | draw | addListener | removeListener => cases blanks

theorem listeners_setMode (d : Display) (mode : Mode) :
    (d.setMode mode).state.listeners = d.listeners := by
  rw [setMode]
  split <;> rfl

theorem listeners_call {call : Call} (other : call.registers = false) :
    (d.call call).state.listeners = d.listeners := by
  cases call with
  | draw | clear => rfl
  | setMode mode => exact d.listeners_setMode mode
  | selectMode mode => exact d.listeners_selectMode mode
  | reset => exact d.listeners_selectMode .small
  | addListener | removeListener => cases other

/-! ## What a listener hears -/

/-- A listener is told once for each time it is registered. -/
theorem modesTold_modeEvents (d : Display) (mode : Mode) (name : Text) :
    Event.modesTold name (d.modeEvents mode) = List.replicate (d.listeners.count name) mode := by
  rw [Event.modesTold, modeEvents, List.filterMap_cons_none rfl]
  induction d.listeners with
  | nil => rfl
  | cons first rest ih =>
    rw [List.map_cons]
    by_cases same : first = name
    · have heard : Event.modeTold? name (.listenerTold first mode) = some mode := if_pos same
      rw [List.filterMap_cons_some heard, ih, same, List.count_cons_self]
      rfl
    · have unheard : Event.modeTold? name (.listenerTold first mode) = none := if_neg same
      rw [List.filterMap_cons_none unheard, ih, List.count_cons_of_ne same]

/-- The call concerns the registration of a listener. -/
def Call.concerns (name : Text) : Call → Bool
  | .addListener other => other = name
  | .removeListener other => other = name
  | _ => false

theorem count_call {call : Call} (other : call.concerns name = false) :
    (d.call call).state.listeners.count name = d.listeners.count name := by
  cases call with
  | addListener added =>
    have apart : added ≠ name := of_decide_eq_false other
    show (d.listeners ++ [added]).count name = _
    rw [List.count_append, List.count_singleton, beq_false_of_ne apart]
    rfl
  | removeListener removed =>
    have apart : removed ≠ name := of_decide_eq_false other
    rcases d.removeListener_cases removed with ⟨-, same⟩ | ⟨-, same⟩
    · rw [same]
    · rw [same]
      exact List.count_erase_of_ne apart.symm
  | _ => rw [listeners_call rfl]

/-- What a listener hears that is registered once leads from mode to mode. -/
theorem leads_call (once : d.listeners.count name = 1) (call : Call) :
    d.mode.Leads (Event.modesTold name (d.call call).events) (d.call call).state.mode := by
  rw [events_call]
  split
  · next same =>
    rw [same]
    exact .nil _
  · next changed =>
    rw [modesTold_modeEvents, once]
    exact .cons (Ne.symm changed) (.nil _)

theorem leads_calls (once : d.listeners.count name = 1) (later : List Call)
    (kept : ∀ call ∈ later, call.concerns name = false) :
    d.mode.Leads (Event.modesTold name (d.calls later).events) (d.calls later).state.mode := by
  induction later generalizing d with
  | nil => exact .nil _
  | cons first rest ih =>
    obtain ⟨other, others⟩ := List.forall_mem_cons.mp kept
    have heard := leads_call once first
    have rest := ih ((count_call other).trans once) others
    rw [calls, Event.modesTold_append]
    exact heard.append rest

/-- A listener that registers itself, and is not registered yet, is told of every change of mode from
then on until a call concerns its registration. -/
theorem leads_of_registered (unregistered : name ∉ d.listeners) (later : List Call)
    (kept : ∀ call ∈ later, call.concerns name = false) :
    let after := (d.addListener name).calls later
    d.mode.Leads (Event.modesTold name after.events) after.state.mode := by
  have once : (d.addListener name).listeners.count name = 1 := by
    rw [addListener, List.count_append, List.count_eq_zero.mpr unregistered,
      List.count_singleton_self]
  exact leads_calls once later kept

/-- A new display. -/
def ofMode (mode : Mode) : Display := { surface := Surface.blank mode }

/-- After all calls there is a pixel for each column of each row. A change to the mode that the
display has changes nothing. The listeners are told exactly if the mode is another one after a call,
each as often as it is registered, in order of registration, with the columns and rows of the new
mode; a call that clears, resets or changes the mode leaves no pixel lit. A listener is added at the
end. Its removal drops the first of its entries, and does nothing if it has none. A listener that is
registered once is told the other mode each time, an odd number of times exactly if the mode is now
another one than it was. -/
theorem notices_of_calls (mode : Mode) (earlier : List Call) :
    let d := ((ofMode mode).calls earlier).state
    d.surface.cells.size = d.mode.width * d.mode.height ∧
      d.call (.setMode d.mode) = { state := d, result := .switched false } ∧
      (∀ call : Call,
        let done := d.call call
        done.state.mode = call.mode?.getD d.mode ∧
        done.events.filterMap Event.notice? =
          (if done.state.mode = d.mode then []
            else d.listeners.map fun name => (name, done.state.mode.width, done.state.mode.height)) ∧
        (call.blanks d = true → ∀ p, done.state.surface.lit p = false) ∧
        (call.registers = false → done.state.listeners = d.listeners)) ∧
      (∀ name, d.call (.addListener name) =
        { state := { d with listeners := d.listeners ++ [name] }, result := .done }) ∧
      (∀ name ∈ d.listeners, ∃ before after,
        name ∉ before ∧ d.listeners = before ++ name :: after ∧
        d.call (.removeListener name) =
          { state := { d with listeners := before ++ after }, result := .done }) ∧
      (∀ name ∉ d.listeners,
        d.call (.removeListener name) = { state := d, result := .unregistered }) ∧
      ∀ name ∉ d.listeners, ∀ later : List Call, (∀ call ∈ later, call.concerns name = false) →
        let after := (d.call (.addListener name)).state.calls later
        let sizes := (Event.modesTold name after.events).map Mode.size
        (∀ size ∈ sizes, size = (64, 32) ∨ size = (128, 64)) ∧
        (d.mode.size :: sizes).IsChain (· ≠ ·) ∧
        (Odd sizes.length ↔ after.state.mode ≠ d.mode) := by
  intro d
  refine ⟨d.surface.size_cells, ?_, ?_, fun _ => rfl, ?_, ?_, ?_⟩
  · simp only [call, setMode, if_true]
  · intro call done
    refine ⟨d.mode_call call, ?_, lit_call, listeners_call⟩
    rw [show done.events = _ from d.events_call call]
    split
    · rfl
    · exact d.notices_modeEvents _
  · intro name registered
    obtain ⟨before, after, first, split, erased⟩ := List.exists_erase_eq registered
    refine ⟨before, after, first, split, ?_⟩
    rcases d.removeListener_cases name with ⟨unregistered, -⟩ | ⟨-, same⟩
    · exact absurd registered unregistered
    · rw [same, erased]
  · intro name unregistered
    rcases d.removeListener_cases name with ⟨-, same⟩ | ⟨registered, -⟩
    · exact same
    · exact absurd registered unregistered
  · intro name unregistered later kept after sizes
    have leads : d.mode.Leads (Event.modesTold name after.events) after.state.mode :=
      leads_of_registered unregistered later kept
    refine ⟨?_, leads.isChain, ?_⟩
    · intro size mem
      obtain ⟨told, -, rfl⟩ := List.mem_map.mp mem
      cases told with
      | small => exact .inl rfl
      | big => exact .inr rfl
    · rw [List.length_map]
      exact leads.odd_iff

/-- A listener that came while the display was big hears of the reset, of the big mode and of the
small one again. Another one, which is registered twice and then removed once, was told each of the
first two changes as often as it was registered. -/
theorem notices_of_three_changes :
    let first : Text := "first"
    let name : Text := "name"
    let d := ((ofMode .big).calls [.draw 0 0 [0x80], .addListener first, .addListener first]).state
    let later : List Call := [.setMode .big, .reset, .removeListener first, .selectMode .big,
      .selectMode .big, .setMode .small]
    let after := (d.call (.addListener name)).state.calls later
    let sizes := (Event.modesTold name after.events).map Mode.size
    sizes = [(64, 32), (128, 64), (64, 32)] ∧ Odd sizes.length ∧
      (d.call .reset).events.filterMap Event.notice? = [(first, 64, 32), (first, 64, 32)] ∧
      (d.call (.removeListener first)).state.listeners = [first] ∧
      ∀ p, (d.call .reset).state.surface.lit p = false := by
  intro first name d later after sizes
  obtain ⟨-, -, each, -, -, -, registered⟩ :=
    notices_of_calls .big [.draw 0 0 [0x80], .addListener first, .addListener first]
  have listeners : d.listeners = [first, first] := by decide +kernel
  have big : d.mode = .big := by decide +kernel
  have small : after.state.mode = .small := by decide +kernel
  have changed : after.state.mode ≠ d.mode := by
    rw [small, big]
    decide
  have unregistered : name ∉ d.listeners := by
    rw [listeners]
    decide
  obtain ⟨-, -, odd⟩ := registered name unregistered later (by decide)
  obtain ⟨-, -, unlit, -⟩ := each .reset
  have told : (d.call .reset).events.filterMap Event.notice? =
      [(first, 64, 32), (first, 64, 32)] := by decide +kernel
  have left : (d.call (.removeListener first)).state.listeners = [first] := by decide +kernel
  exact ⟨by decide +kernel, odd.mpr changed, told, left, unlit rfl⟩

end Display

end ChipEight
