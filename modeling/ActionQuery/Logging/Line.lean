import ActionQuery.Logging.Notice
import ActionQuery.Logging.Template

namespace ActionQuery.Logging

/-- The ids of the work that a log record is written in, and of the stretch of it. -/
structure Context where
  trace : Nat
  span : Nat
  deriving DecidableEq, Repr

/-- Both ids are there and fit into 32 and 16 hexadecimal digits. -/
def Context.isValid (c : Context) : Bool :=
  0 < c.trace && c.trace < Nat.pow 16 32 && 0 < c.span && c.span < Nat.pow 16 16

structure ContextTexts where
  trace : Text
  span : Text
  deriving DecidableEq, Repr

/-- The ids in hexadecimal digits, all of them zero outside a valid context. -/
def contextTexts (c : Option Context) : ContextTexts :=
  match c.filter Context.isValid with
  | some c => ⟨Text.hex 32 c.trace, Text.hex 16 c.span⟩
  | none => ⟨List.replicate 32 '0', List.replicate 16 '0'⟩

/-- How log records are made: bare, or with the texts of their context. -/
inductive Factory where
  | bare
  | correlating
  deriving DecidableEq, Repr

def Factory.context (c : Option Context) : Factory → Option ContextTexts
  | bare => none
  | correlating => some (contextTexts c)

/-- How a handler writes log records; `correlated` shows their context too. -/
inductive Format where
  | plain
  | correlated
  deriving DecidableEq, Repr

def Format.pattern : Format → Text
  | plain => "%(asctime)s %(levelname)s %(name)s %(message)s"
  | correlated =>
    "%(asctime)s %(levelname)s %(name)s trace_id=%(trace_id)s span_id=%(span_id)s %(message)s"

structure Line where
  logger : Text
  level : Int
  message : Text
  arguments : List Datum
  context : Option ContextTexts
  deriving Repr

/-- A format asks for something that a record was made without. -/
def missingMember (name : Text) : Fault :=
  ⟨.unreadable, "Formatting field not found in record: " ++ Text.quote name⟩

def Line.contextText (l : Line) : Format → Except Fault Text
  | .plain => .ok []
  | .correlated =>
    match l.context with
    | some context => .ok ("trace_id=" ++ context.trace ++ " span_id=" ++ context.span ++ [' '])
    | none => .error (missingMember "trace_id")

/-- The line as a handler writes it, without the time of day in front. -/
def Line.text (format : Format) (l : Line) : Except Fault Text := do
  let message ← fillMessage l.message l.arguments
  let context ← l.contextText format
  return Level.nameOfNumber l.level ++ ' ' :: l.logger ++ ' ' :: context ++ message

end ActionQuery.Logging
