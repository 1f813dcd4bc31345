import ChipEight.Engine
import ChipEight.Value

/-!
# Status

What hosts are shown of a console: its registers, its lifecycle, its counters, the notes
about skipped words and the fault that ended the last run, as one structured value.
-/

namespace ChipEight

/-- A fault as hosts are shown it. -/
def Fault.Report.status (r : Fault.Report) : Value :=
  .record
    [("type", .str r.kind.name),
      ("message", .str r.message),
      ("addr", .int r.addr),
      ("opcode", .ofOption (r.opcode.map .int))]

/-- A note about a skipped word as hosts are shown it. -/
def Diagnostic.status (d : Diagnostic) : Value :=
  .record
    [("kind", .str d.kind.name),
      ("addr", .int d.addr),
      ("opcode", .str (Hex.upper 4 d.word.toNat))]

/-- The notes about skipped words, in order of execution. -/
def DiagnosticLog.status (log : DiagnosticLog) : Value :=
  .list (log.toList.map Diagnostic.status)

/-- The fields that show the registers and the timers. -/
def Processor.statusFields (p : Processor) (t : Timers) : List (String × Value) :=
  [("v", .list (p.v.toList.map fun b => .int b.toNat)),
    ("i", .int p.i.toNat),
    ("pc", .int p.pc),
    ("sp", .int p.calls.length),
    ("stack", .list (p.stack.map .int)),
    ("delay_timer", .int t.delay),
    ("sound_timer", .int t.sound)]

/-- The resolution of the display as hosts are shown it. -/
def Mode.status (mode : Mode) : Value :=
  .record
    [("mode", .str mode.name), ("width", .int mode.width), ("height", .int mode.height)]

/-- The fields that show a console in a given phase of its lifecycle. -/
def Console.statusFields (c : Console) (phase : Engine.Phase) : List (String × Value) :=
  c.machine.processor.statusFields c.machine.timers ++
    [("state", .str phase.name),
      ("loaded", .bool c.loaded),
      ("debug_mode", .bool c.debugMode),
      ("instruction_count", .int c.executed),
      ("instructions_per_second", .int c.meter.perSecond),
      ("display", c.machine.display.mode.status),
      ("diagnostics", c.machine.diagnostics.status),
      ("error", .ofOption (c.fault.map fun fault => fault.report.status))]

/-- The fields that show an engine. -/
def Engine.statusFields (e : Engine) : List (String × Value) :=
  e.console.statusFields e.phase

/-- An engine as hosts are shown it. -/
def Engine.status (e : Engine) : Value := .record e.statusFields

end ChipEight
