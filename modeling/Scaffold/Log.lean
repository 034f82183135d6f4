import Scaffold.Json.Writer
import Scaffold.Text.Case

/-!
# Logging

Log records carry what is bound for the run: its identifier, its recipe and its pass.  Records below the
level that was set up are dropped; the first setup counts.
-/

namespace Scaffold

/-- How grave a record is. -/
inductive LogLevel where
  | everything
  | debug
  | info
  | warning
  | error
  | critical
  deriving DecidableEq, Inhabited, Repr

namespace LogLevel

/-- The names of levels, with their other names. -/
def names : List (String × LogLevel) :=
  [("NOTSET", everything), ("DEBUG", debug), ("INFO", info), ("WARNING", warning), ("WARN", warning),
    ("ERROR", error), ("CRITICAL", critical), ("FATAL", critical)]

/-- The level of a name in any case. -/
def ofName? (s : String) : Option LogLevel := names.lookup (Text.upper s)

/-- The name of a level. -/
def name (l : LogLevel) : String := ((names.find? fun e => e.2 == l).map (·.1)).getD ""

/-- The place of a level among all. -/
def rank : LogLevel → Nat
  | everything => 0
  | debug => 1
  | info => 2
  | warning => 3
  | error => 4
  | critical => 5

end LogLevel

/-- The state of logging. -/
structure Log where
  /-- The level that was set up. -/
  level : Option LogLevel := none
  /-- What every record carries. -/
  bound : Record Value := []
  deriving Inhabited, Repr

namespace Log

/-- Sets a level up, unless one is; a name for none means warnings. -/
def setup (l : Log) (level : String) : Log :=
  if l.level.isSome then l else { l with level := some ((LogLevel.ofName? level).getD .warning) }

/-- The name of the level in force; before it is set up only critical records count. -/
def levelName (l : Log) : String := (l.level.getD .critical).name

/-- Binds a run. -/
def bindRun (l : Log) (identifier recipe : String) : Log :=
  { l with bound := (l.bound.put "run_id" (.str identifier)).put "recipe" (.str recipe) }

/-- Binds a pass. -/
def bindPass (l : Log) (n : Int) : Log := { l with bound := l.bound.put "pass_number" (.int n) }

/-- Drops what is bound. -/
def clear (l : Log) : Log := { l with bound := [] }

/-- The identifier of the run that is bound. -/
def runIdentifier? (l : Log) : Option Value := l.bound.get? "run_id"

/-- The record that is written, if its level counts. -/
def record? (l : Log) (logger : String) (level : LogLevel) (event : String) (fields : Record Value := []) :
    Option (Record Value) :=
  if (l.level.getD .critical).rank ≤ level.rank then
    some ((((l.bound.merge fields).put "event" (.str event)).put "logger" (.str logger)).put "level"
      (.str (Text.lower level.name)))
  else none

end Log

end Scaffold
