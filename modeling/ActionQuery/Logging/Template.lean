import ActionQuery.Datum
import ActionQuery.Text.Hex

namespace ActionQuery.Logging

/-- What a template is filled with: arguments to be taken in order, and members to be asked for by
name. -/
structure Supply where
  arguments : List Datum
  members : Option (List (Text × Datum))
  deriving Repr

namespace Supply

/-- A single object that is not empty gives its members, and itself as an argument that need not be
taken. -/
def ofArguments : List Datum → Supply
  | [.object (member :: members)] =>
    ⟨[.object (member :: members)], some (member :: members)⟩
  | arguments => ⟨arguments, none⟩

def take (s : Supply) : Except Fault (Datum × Supply) :=
  match s.arguments with
  | [] => .error ⟨.mistyped, "not enough arguments for format string"⟩
  | argument :: rest => .ok (argument, { s with arguments := rest })

/-- Puts the member with a name in the place of the arguments. -/
def select (s : Supply) (name : Text) : Except Fault Supply :=
  match s.members with
  | none => .error ⟨.mistyped, "format requires a mapping"⟩
  | some members =>
    match members.lookup name with
    | some value => .ok { s with arguments := [value] }
    | none => .error ⟨.other "KeyError", Text.quote name⟩

/-- In the end no argument may be left, unless there are members. -/
def finish (s : Supply) : Except Fault Unit :=
  if s.arguments.isEmpty || s.members.isSome then .ok ()
  else .error ⟨.mistyped, "not all arguments converted during string formatting"⟩

end Supply

def integerText (value : Datum) : Except Fault Text :=
  match value.number? with
  | some number => .ok (Text.ofInt number.truncate)
  | none => .error ⟨.mistyped, "%d format: a real number is required, not " ++ value.kindName⟩

/-- A sign that converts nothing, at its place in the template. -/
def unsupported (sign : Char) (place : Nat) : Fault :=
  let shown := if 31 ≤ sign.toNat ∧ sign.toNat < 126 then sign else '?'
  ⟨.unreadable, "unsupported format character '" ++ shown :: "' (0x" ++ Text.hex 1 sign.toNat ++
    ") at index " ++ Text.ofNat place⟩

/-- The text of a value for a sign: `s` takes any value and `d` a number. -/
def convert (sign : Char) (place : Nat) (value : Datum) : Except Fault Text :=
  if sign = 's' then .ok value.display
  else if sign = 'd' then integerText value
  else .error (unsupported sign place)

/-- Where in a template a reader stands: in plain text, behind a percent sign and perhaps a name, or
in a name with `depth` brackets open in it. -/
inductive Position where
  | plain
  | directive (named : Bool)
  | name (depth : Nat) (reversed : Text)

/-- What a template that ends somewhere lacks. -/
def Position.finish (s : Supply) : Position → Except Fault Text
  | plain => s.finish.map fun () => []
  | directive _ => .error ⟨.unreadable, "incomplete format"⟩
  | name .. => .error ⟨.unreadable, "incomplete format key"⟩

/-- Fills a template: `%s` and `%d` are replaced by arguments, `%(name)s` by a member, and a doubled
`%` by a single one. -/
def fill (position : Position) (place : Nat) (s : Supply) : Text → Except Fault Text
  | [] => position.finish s
  | c :: rest =>
    match position with
    | .plain =>
      if c = '%' then fill (.directive false) (place + 1) s rest
      else (fill .plain (place + 1) s rest).map (c :: ·)
    | .name depth reversed =>
      if c = ')' ∧ depth = 0 then do
        fill (.directive true) (place + 1) (← s.select reversed.reverse) rest
      else
        let depth := if c = '(' then depth + 1 else if c = ')' then depth - 1 else depth
        fill (.name depth (c :: reversed)) (place + 1) s rest
    | .directive named =>
      if c = '%' ∧ named = false then (fill .plain (place + 1) s rest).map (c :: ·)
      else if c = '(' ∧ named = false then
        if s.members.isNone then (s.select []).map fun _ => []
        else fill (.name 0 []) (place + 1) s rest
      else do
        let (value, s) ← s.take
        let text ← convert c place value
        return text ++ (← fill .plain (place + 1) s rest)

/-- The text of a message, which is taken as it is without arguments. -/
def fillMessage (message : Text) (arguments : List Datum) : Except Fault Text :=
  if arguments.isEmpty then .ok message else fill .plain 0 (.ofArguments arguments) message

end ActionQuery.Logging
