import ActionQuery.Logging.Root
import ActionQuery.NominalTime

namespace ActionQuery

open Calendar (Instant)

/-- What lasts between the steps of a session. -/
structure Session where
  environment : Environment
  cache : Option Settings
  log : Logging.Root
  deriving DecidableEq, Repr

namespace Session

def initial : Session := ⟨[], none, .initial⟩

/-- The settings of the session: those that were read first, kept until the cache is cleared.
Settings that cannot be read are not kept. -/
def settings (p : Session) : Except Rejection Settings × Session :=
  match p.cache with
  | some settings => (.ok settings, p)
  | none =>
    match Settings.load [] p.environment with
    | .ok settings => (.ok settings, { p with cache := some settings })
    | .error e => (.error e, p)

def settleIn (zone : Text) (s : Calendar.Stamp) : Except Rejection Instant :=
  (NominalTime.settle zone s).mapError fun e => .fault e.toFault

/-- Reads a nominal time. The settings are asked for their zone only for a local time, and only
when no other zone is given. -/
def parse (p : Session) (text : Text) (zone : Option Text) : Except Rejection Instant × Session :=
  match NominalTime.readStamp text with
  | .error e => (.error (.fault e.toFault), p)
  | .ok stamp =>
    match zone with
    | some zone => (settleIn zone stamp, p)
    | none =>
      if stamp.isLocal then
        match p.settings with
        | (.ok settings, p) => (settleIn settings.zone stamp, p)
        | (.error e, p) => (.error e, p)
      else (settleIn [] stamp, p)

/-- Reads nominal times as stamps, with local ones in a zone that is given, or else in that of the
settings. -/
def readerIn (p : Session) (zone : Option Text) (text : Text) : Except Fault Calendar.Stamp :=
  ((p.parse text zone).1.map Instant.toStamp).mapError Rejection.toFault

def reader (p : Session) : Text → Except Fault Calendar.Stamp := p.readerIn none

def setUpLog (p : Session) (settings : Settings) (level : Option Text) :
    Except Rejection Unit × Session :=
  let (result, log) := p.log.configure settings level
  (result.mapError .fault, { p with log })

/-- Sets up the log by settings made from arguments, or by those of the session. -/
def configure (p : Session) (arguments : Option (List (Text × Datum))) (level : Option Text) :
    Except Rejection Unit × Session :=
  match arguments with
  | some arguments =>
    match Settings.load arguments p.environment with
    | .ok settings => p.setUpLog settings level
    | .error e => (.error e, p)
  | none =>
    match p.settings with
    | (.ok settings, p) => p.setUpLog settings level
    | (.error e, p) => (.error e, p)

inductive Step where
  | setVariable (name value : Text)
  | unsetVariable (name : Text)
  | clearCache
  | settings
  | newSettings (arguments : List (Text × Datum))
  | parse (text : Text) (zone : Option Text)
  | addHandler
  | configure (arguments : Option (List (Text × Datum))) (level : Option Text)
  | log (logger : Text) (level : Int) (message : Text) (arguments : List Datum)
      (context : Option Logging.Context)
  deriving Repr

inductive Answer where
  | done
  | settings (value : Settings)
  | time (value : Instant)
  /-- A log record, and its text when there is a format for it. -/
  | line (value : Logging.Line) (text : Option Text)
  deriving Repr

def lineText (p : Session) (line : Logging.Line) : Except Rejection (Option Text) :=
  match p.log.format? with
  | none => .ok none
  | some format => ((line.text format).map some).mapError .fault

def step (p : Session) : Step → Except Rejection Answer × Session
  | .setVariable name value =>
    (.ok .done, { p with environment := p.environment.set name value })
  | .unsetVariable name => (.ok .done, { p with environment := p.environment.unset name })
  | .clearCache => (.ok .done, { p with cache := none })
  | .settings =>
    let (result, p) := p.settings
    (result.map .settings, p)
  | .newSettings arguments => ((Settings.load arguments p.environment).map .settings, p)
  | .parse text zone =>
    let (result, p) := p.parse text zone
    (result.map .time, p)
  | .addHandler => (.ok .done, { p with log := p.log.addHandler })
  | .configure arguments level =>
    let (result, p) := p.configure arguments level
    (result.map fun _ => .done, p)
  | .log logger level message arguments context =>
    let line := p.log.line logger level message arguments context
    ((p.lineText line).map (.line line), p)

def run (p : Session) (steps : List Step) : Session :=
  steps.foldl (fun p s => (p.step s).2) p

theorem run_append (p : Session) (first second : List Step) :
    p.run (first ++ second) = (p.run first).run second :=
  List.foldl_append

theorem run_concat (p : Session) (steps : List Step) (s : Step) :
    p.run (steps ++ [s]) = ((p.run steps).step s).2 := by
  simp [run]

/-- What every step keeps, a run keeps. -/
theorem run_induction {P : Session → Prop} (hstep : ∀ p s, P p → P (p.step s).2) {p : Session}
    (h : P p) (steps : List Step) : P (p.run steps) := by
  induction steps generalizing p with
  | nil => exact h
  | cons s rest ih => exact ih (hstep p s h)

end Session

end ActionQuery
