import ContractFuzz.Text.Terminal

namespace ContractFuzz

inductive LogLevel where
  | info
  | warn
  | error
  deriving DecidableEq, Repr

structure LogRecord where
  level : LogLevel
  message : String
  deriving DecidableEq, Repr

/-- Records in the order they were made. -/
abbrev Log := List LogRecord

def LogLevel.label : LogLevel → String
  | .info => "INFO"
  | .warn => "WARN"
  | .error => "ERROR"

namespace LogRecord

/-- The message as the user sees it. -/
def shownMessage (record : LogRecord) : String := Text.shown record.message

/-- The record on the error output. -/
def line (record : LogRecord) : String := s!"{record.level.label} {record.shownMessage}"

end LogRecord

def Log.info (message : String) : LogRecord := ⟨.info, message⟩

def Log.warn (message : String) : LogRecord := ⟨.warn, message⟩

end ContractFuzz
