import ActionQuery.Datum

namespace ActionQuery

structure Span where
  name : Text
  attributes : List (Text × Datum)
  deriving Repr

end ActionQuery
