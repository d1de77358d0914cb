namespace Bindery

/-! What is reported while a book is built, by whom, and how urgent it is. -/

inductive Severity
  | debug
  | info
  | warning
  deriving DecidableEq, Repr

def Severity.name : Severity → String
  | .debug => "DEBUG"
  | .info => "INFO"
  | .warning => "WARN"

inductive Reporter
  | command
  | build
  | assembly
  | source
  deriving DecidableEq, Repr

structure Event where
  severity : Severity
  reporter : Reporter
  message : String
  deriving DecidableEq, Repr

end Bindery
