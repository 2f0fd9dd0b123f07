import ActionQuery.Logging.Line
import ActionQuery.Settings
import ActionQuery.Text.Quoted
import ActionQuery.Text.UpperCase

namespace ActionQuery.Logging

/-- The log of a session: its handlers with their formats, the level from which on it writes,
whether the set-up has installed its factory of log records, and the factory that makes them. -/
structure Root where
  handlers : List (Option Format)
  level : Level
  correlated : Bool
  factory : Factory
  deriving DecidableEq, Repr

namespace Root

def initial : Root := ⟨[], .warning, false, .bare⟩

def addHandler (r : Root) : Root := { r with handlers := r.handlers ++ [none] }

def unknownLevel (name : Text) : Fault := ⟨.unreadable, "Unknown level: " ++ Text.quote name⟩

/-- The level that was asked for, or that of the settings when none was. -/
def levelName (settings : Settings) (level : Option Text) : Text :=
  Text.upper (match level with
    | some (c :: rest) => c :: rest
    | _ => settings.logLevel)

def formatOf (settings : Settings) : Format := if settings.correlation then .correlated else .plain

/-- Gives a log without handlers a handler and then a level. With a handler there already neither
is touched. -/
def start (r : Root) (format : Format) (level : Text) : Except Fault Unit × Root :=
  if r.handlers.isEmpty then
    let r := { r with handlers := [some format] }
    match Level.ofName? level with
    | some level => (.ok (), { r with level })
    | none => (.error (unknownLevel level), r)
  else (.ok (), r)

/-- Settings ask for records with their context, and the factory of such records is still to come. -/
def installs (r : Root) (settings : Settings) : Bool := settings.correlation && !r.correlated

def install (r : Root) : Root := { r with correlated := true, factory := .correlating }

def correlate (r : Root) (settings : Settings) : Root := if r.installs settings then r.install else r

/-- Sets up the log. Records carry their context from the first time that settings ask for it. -/
def configure (r : Root) (settings : Settings) (level : Option Text) : Except Fault Unit × Root :=
  (r.correlate settings).start (formatOf settings) (levelName settings level)

def format? (r : Root) : Option Format := r.handlers.findSome? id

def line (r : Root) (logger : Text) (level : Int) (message : Text) (arguments : List Datum)
    (context : Option Context) : Line :=
  ⟨logger, level, message, arguments, r.factory.context context⟩

end Root

end ActionQuery.Logging
