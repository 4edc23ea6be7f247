import Lox.Fault
import Lox.StaticError

/-!
# Diagnostics

The record of everything reported, in two lists: what is wrong with the text of programs, and what
went wrong while they ran. Each entry is stamped with the stage in which it was made.
-/
namespace Lox

structure Diagnostic where
  stage : String
  /-- The line it is about, if it is about one. -/
  line : Option Int
  message : String
  /-- The class of a runtime fault. -/
  fault : Option FaultClass
  deriving DecidableEq, Repr

/-- A diagnostic on one line of text. -/
def Diagnostic.text (diagnostic : Diagnostic) : String :=
  let line := match diagnostic.line with
    | none => "?"
    | some line => toString line
  "[line " ++ line ++ "] Error: " ++ diagnostic.message ++ " (stage " ++ diagnostic.stage ++ ")"

/-- The diagnostics so far and the label of the present stage. -/
structure Log where
  stage : String
  static : List Diagnostic
  runtime : List Diagnostic
  deriving DecidableEq, Repr

namespace Log

def empty : Log := ⟨"initial", [], []⟩

def enter (log : Log) (stage : String) : Log := { log with stage }

def addStatic (log : Log) (line : Int) (message : String) : Log :=
  { log with static := log.static ++ [⟨log.stage, some line, message, none⟩] }

def addRuntime (log : Log) (line : Option Int) (message : String) (fault : Option FaultClass) :
    Log :=
  { log with runtime := log.runtime ++ [⟨log.stage, line, message, fault⟩] }

/-- Adds what was reported about a program text, in order. -/
def addReports (log : Log) (reports : List StaticReport) : Log :=
  { log with
    static := log.static ++
      reports.map fun report => ⟨log.stage, some report.line, report.error.message, none⟩ }

def addFault (log : Log) (fault : Fault) : Log :=
  log.addRuntime fault.line fault.cause.message (some fault.cause.kind)

def hasStatic (log : Log) : Bool := !log.static.isEmpty

def hasRuntime (log : Log) : Bool := !log.runtime.isEmpty

/-- Forgets all diagnostics. The stage stays. -/
def clear (log : Log) : Log := { log with static := [], runtime := [] }

/-- All diagnostics as text, a line for each: those about program texts first. -/
def text (log : Log) : String :=
  String.join ((log.static ++ log.runtime).map fun diagnostic => diagnostic.text ++ "\n")

end Log

end Lox
