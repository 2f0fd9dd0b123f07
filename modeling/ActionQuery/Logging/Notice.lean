import ActionQuery.Text.Digits

namespace ActionQuery.Logging

inductive Level where
  | notSet
  | debug
  | info
  | warning
  | error
  | critical
  deriving DecidableEq, Repr

namespace Level

def all : List Level := [notSet, debug, info, warning, error, critical]

def name : Level → Text
  | notSet => "NOTSET"
  | debug => "DEBUG"
  | info => "INFO"
  | warning => "WARNING"
  | error => "ERROR"
  | critical => "CRITICAL"

def number : Level → Int
  | notSet => 0
  | debug => 10
  | info => 20
  | warning => 30
  | error => 40
  | critical => 50

/-- Two levels have a second name. -/
def ofName? (t : Text) : Option Level :=
  if t = "WARN".toList then some warning
  else if t = "FATAL".toList then some critical
  else all.find? (·.name = t)

def nameOfNumber (n : Int) : Text :=
  match all.find? (·.number = n) with
  | some level => level.name
  | none => "Level " ++ Text.ofInt n

end Level

structure Notice where
  level : Level
  message : Text
  deriving DecidableEq, Repr

end ActionQuery.Logging
