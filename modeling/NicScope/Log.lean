/-
Log records: what the program has to say besides its output, with the level at
which it says it.
-/

namespace NicScope

/-- How grave a log record is. -/
inductive LogLevel where
  | warning
  | error
  | critical
  deriving DecidableEq, Repr

namespace LogLevel

def name : LogLevel → String
  | warning => "WARNING"
  | error => "ERROR"
  | critical => "CRITICAL"

/-- The place of a level, counted from the gravest. -/
def gravity : LogLevel → Nat
  | critical => 1
  | error => 2
  | warning => 3

end LogLevel

structure LogRecord where
  level : LogLevel
  text : String
  deriving DecidableEq, Repr

namespace LogRecord

def warning (text : String) : LogRecord := ⟨.warning, text⟩

def error (text : String) : LogRecord := ⟨.error, text⟩

/-- The level and what it says. -/
def render (record : LogRecord) : String :=
  record.level.name ++ ": " ++ record.text

end LogRecord

end NicScope
