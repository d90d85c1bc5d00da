/-!
# Event — Route

The route of a request path: its first two segments that are not empty, each behind a slash, and a
single slash when there are none.  The route is what two requests have to share to be counted
together, so `routeOf` is a normal form of paths.
-/

namespace TrafficWatch

/-- The pieces between the slashes of a path. -/
def pieces : List Char → List (List Char)
  | [] => [[]]
  | c :: rest =>
    if c = '/' then [] :: pieces rest
    else
      match pieces rest with
      | [] => [[c]]
      | piece :: more => (c :: piece) :: more

/-- The segments of a path: its pieces that are not empty. -/
def segments (path : List Char) : List (List Char) :=
  (pieces path).filter (!·.isEmpty)

/-- Segments written as a path. -/
def pathOf : List (List Char) → List Char
  | [] => ['/']
  | [segment] => '/' :: segment
  | segment :: more => '/' :: segment ++ pathOf more

/-- The route of a path. -/
def routeOf (path : String) : String :=
  String.ofList (pathOf ((segments path.toList).take 2))

end TrafficWatch
