import ChipEight.Index
import ChipEight.Word

/-!
# Diagnostics

A word that is no instruction does not stop the machine: it is noted and skipped. The notes
are kept in order of execution, and a limit keeps only the latest of them. A limit of zero
keeps none; without a limit nothing is forgotten.
-/

namespace ChipEight

/-- Why a word was not executed. -/
inductive Diagnostic.Kind where
  /-- The word is in no instruction table. -/
  | unknown
  /-- The word is a scroll instruction of a larger machine. -/
  | unsupported
deriving DecidableEq, Repr

/-- The word a host shows for the reason. -/
def Diagnostic.Kind.name : Diagnostic.Kind → String
  | .unknown => "unknown"
  | .unsupported => "unsupported"

/-- A note about a word that was not executed. -/
structure Diagnostic where
  /-- Why it was not executed. -/
  kind : Diagnostic.Kind
  /-- The address the word was read from. -/
  addr : Int
  /-- The word itself. -/
  word : Word
deriving DecidableEq, Repr

/-- The latest notes, at most `limit` of them. -/
structure DiagnosticLog where
  /-- How many notes are kept; `none` keeps all. -/
  limit : Option Nat := none
  /-- The notes kept, latest first. -/
  latest : List Diagnostic := []
deriving DecidableEq, Repr

namespace DiagnosticLog

/-- Why a number is no limit. -/
inductive LimitRefusal where
  /-- It does not fit in sixty-four bits. -/
  | tooWide
  /-- A limit is a count, and a count is not negative. -/
  | negative
deriving DecidableEq, Repr

/-- The limit that a number stands for. -/
def limitOfInt (n : Int) : Except LimitRefusal Nat :=
  if !Index.fits n then .error .tooWide
  else if n < 0 then .error .negative
  else .ok n.toNat

/-- The notes that a log with this limit keeps of a list, latest first. -/
def keep : Option Nat → List Diagnostic → List Diagnostic
  | none, notes => notes
  | some limit, notes => notes.take limit

/-- Adds a note and forgets the oldest ones beyond the limit. -/
def push (log : DiagnosticLog) (d : Diagnostic) : DiagnosticLog :=
  { log with latest := keep log.limit (d :: log.latest) }

/-- Forgets all notes; the limit stays. -/
def clear (log : DiagnosticLog) : DiagnosticLog := { log with latest := [] }

/-- The notes in order of execution. -/
def toList (log : DiagnosticLog) : List Diagnostic := log.latest.reverse

@[simp] theorem limit_push (log : DiagnosticLog) (d : Diagnostic) :
    (log.push d).limit = log.limit := rfl

@[simp] theorem limit_clear (log : DiagnosticLog) : log.clear.limit = log.limit := rfl

@[simp] theorem toList_clear (log : DiagnosticLog) : log.clear.toList = [] := rfl

end DiagnosticLog

end ChipEight
