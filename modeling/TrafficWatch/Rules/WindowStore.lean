import TrafficWatch.Rules.Window

/-!
# Rules — Window store

The windows of all clients on all routes.  A window is made when its first event is recorded and is
dropped when it has been idle for too long (`WindowStore.evictIdle`).  A window in use is never
dropped, however long it has been idle.
-/

namespace TrafficWatch

/-- Whose window it is. -/
structure WindowKey where
  client : String
  route : String
deriving Repr, DecidableEq

/-- The key of the window in which an event is recorded. -/
def Event.windowKey (e : Event) : WindowKey :=
  ⟨e.clientKey, e.route⟩

/-- Windows by their keys; a key has at most one window. -/
structure WindowStore where
  entries : List (WindowKey × Window)
deriving Repr

namespace WindowStore

/-- The store without windows. -/
def empty : WindowStore := ⟨[]⟩

/-- The window of a key. -/
def get? (s : WindowStore) (key : WindowKey) : Option Window :=
  s.entries.lookup key

/-- Whether a key has a window. -/
def contains (s : WindowStore) (key : WindowKey) : Bool :=
  (s.get? key).isSome

/-- The number of windows. -/
def size (s : WindowStore) : Nat :=
  s.entries.length

/-- The entries with the window of a key replaced, or added when the key has none. -/
def putEntry (key : WindowKey) (w : Window) : List (WindowKey × Window) → List (WindowKey × Window)
  | [] => [(key, w)]
  | (k, old) :: rest => if k = key then (k, w) :: rest else (k, old) :: putEntry key w rest

/-- The store in which a key has the given window. -/
def put (s : WindowStore) (key : WindowKey) (w : Window) : WindowStore :=
  ⟨putEntry key w s.entries⟩

/-- The window of a key, or a new one. -/
def getOr (s : WindowStore) (key : WindowKey) (new : Window) : Window :=
  (s.get? key).getD new

/-- The store after an event, which is recorded in the window of its key or in a new one, and the
counts of that window. -/
def record (s : WindowStore) (key : WindowKey) (e : Event) (now : Instant) (new : Window) :
    Counts × WindowStore :=
  let w := (s.getOr key new).record e now
  (w.counts, s.put key w)

/-- Whether a window has been idle for longer than allowed. -/
def isIdle (now : Instant) (ttl : Duration) (w : Window) : Bool :=
  decide (ttl < now - w.lastSeen)

/-- The store without the windows that have been idle for too long and are not in use, and their
number. -/
def evictIdle (s : WindowStore) (now : Instant) (ttl : Duration) (inUse : WindowKey → Bool) :
    Nat × WindowStore :=
  let kept := s.entries.filter fun (key, w) => inUse key || !isIdle now ttl w
  (s.entries.length - kept.length, ⟨kept⟩)

end WindowStore

end TrafficWatch
