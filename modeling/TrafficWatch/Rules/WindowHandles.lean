import TrafficWatch.Rules.WindowStore

/-!
# Rules — Window handles

Windows that several hold at once.  Every window that was ever made has a number, and a handle is such
a number, so it goes on referring to its window whatever the store does.  The store keeps some of the
windows by their keys; a window that it drops is *retired*, which everybody who holds it can see.

Nothing is recorded in a retired window (`SharedWindows.write?`): the event has to go to the window
that the store keeps now.  So a `Recording` asks for the window of its key, and asks again if the one
it was given has been retired before it came to write; others may act between its moves.
-/

namespace TrafficWatch

/-- Which window is meant. -/
inductive WindowHandle where
  /-- The window that the store keeps for a key, whichever it is. -/
  | live (key : WindowKey)
  /-- The window of a number, whether or not the store keeps it. -/
  | made (number : Nat)
deriving Repr

/-- A window that several may hold. -/
structure SharedWindow where
  window : Window
  /-- The store has dropped it. -/
  isRetired : Bool
deriving Repr

/-- All windows, those among them that the store keeps, and the handles that were given out. -/
structure SharedWindows where
  /-- All windows that were ever made, by their numbers. -/
  made : List SharedWindow
  /-- The numbers of the windows that the store keeps, by their keys. -/
  kept : List (WindowKey × Nat)
  /-- The handles that were given out to be held on to, in order. -/
  handles : List WindowHandle
deriving Repr

namespace SharedWindows

/-- No windows and no handles. -/
def empty : SharedWindows := ⟨[], [], []⟩

/-- The number of the window that the store keeps for a key. -/
def number? (s : SharedWindows) (key : WindowKey) : Option Nat :=
  s.kept.lookup key

/-- The number of the window to which a handle refers. -/
def refers? (s : SharedWindows) : WindowHandle → Option Nat
  | .live key => s.number? key
  | .made number => some number

/-- The window to which a handle refers, and whether it is retired. -/
def look? (s : SharedWindows) (handle : WindowHandle) : Option (Window × Bool) := do
  let number ← s.refers? handle
  let w ← s.made[number]?
  return (w.window, w.isRetired)

/-- The windows that the store keeps. -/
def store (s : SharedWindows) : WindowStore :=
  ⟨s.kept.filterMap fun (key, number) => s.made[number]?.map fun w => (key, w.window)⟩

/-- The number of the window of a key, which is made if there is none. -/
def obtain (s : SharedWindows) (key : WindowKey) (new : Window) : Nat × SharedWindows :=
  match s.number? key with
  | some number => (number, s)
  | none =>
    let number := s.made.length
    (number, { s with made := s.made ++ [⟨new, false⟩], kept := s.kept ++ [(key, number)] })

/-- A handle to the window of a key, to be held on to. -/
def acquire (s : SharedWindows) (key : WindowKey) (new : Window) : SharedWindows :=
  let (number, s) := s.obtain key new
  { s with handles := s.handles ++ [.made number] }

/-- Recording in a window, unless it is retired. -/
def write? (s : SharedWindows) (number : Nat) (e : Event) (now : Instant) :
    Option (Counts × SharedWindows) :=
  match s.made[number]? with
  | some ⟨w, false⟩ =>
    let w := w.record e now
    some (w.counts, { s with made := s.made.set number ⟨w, false⟩ })
  | _ => none

/-- Whether one of the given handles, which are told by their places, refers to a window. -/
def isHeld (s : SharedWindows) (held : List Nat) (number : Nat) : Bool :=
  held.any fun place => decide ((s.handles[place]?).bind s.refers? = some number)

/-- Whether a window that is not held has been idle for too long. -/
def isDue (s : SharedWindows) (now : Instant) (ttl : Duration) (held : List Nat) (number : Nat) :
    Bool :=
  !s.isHeld held number && s.made[number]?.any fun w => WindowStore.isIdle now ttl w.window

/-- The windows, of which those that satisfy a condition are retired. -/
def retire (made : List SharedWindow) (isDropped : Nat → Bool) : List SharedWindow :=
  made.mapIdx fun number w => if isDropped number then { w with isRetired := true } else w

/-- Dropping idle windows, while the windows of some handles are in use, and the number of windows that
were dropped.  Whoever has a handle to a dropped window can see that it is retired. -/
def evictIdle (s : SharedWindows) (now : Instant) (ttl : Duration) (held : List Nat) :
    Nat × SharedWindows :=
  let (dropped, kept) := s.kept.partition fun (_, number) => s.isDue now ttl held number
  (s.kept.length - kept.length,
    { s with made := retire s.made (dropped.map (·.2)).contains, kept })

end SharedWindows

/-- How far a recording has come. -/
inductive Recording.Stage where
  /-- It has to ask for the window of its key. -/
  | asking
  /-- It has been given a window, and has not looked at it yet. -/
  | holding (number : Nat)
  /-- It has written in a window. -/
  | done (number : Nat) (counts : Counts)

/-- The recording of an event. -/
structure Recording where
  key : WindowKey
  event : Event
  time : Instant
  /-- The window that is made if there is none. -/
  new : Window
  stage : Recording.Stage

namespace Recording

/-- The next move of a recording. -/
def move (r : Recording) (s : SharedWindows) : Recording × SharedWindows :=
  match r.stage with
  | .asking =>
    let (number, s) := s.obtain r.key r.new
    ({ r with stage := .holding number }, s)
  | .holding number =>
    match s.write? number r.event r.time with
    | some (counts, s) => ({ r with stage := .done number counts }, s)
    | none => ({ r with stage := .asking }, s)
  | .done _ _ => (r, s)

/-- The counts of the window in which a recording has written; nothing before it has. -/
def counts (r : Recording) : Counts :=
  match r.stage with
  | .done _ counts => counts
  | _ => ⟨0.0, 0, 0, 0⟩

end Recording

/-- A recording while nobody else acts.  It is done after two moves, for the window that it is given is
not retired. -/
def SharedWindows.record (s : SharedWindows) (key : WindowKey) (e : Event) (now : Instant)
    (new : Window) : Counts × SharedWindows :=
  let (r, s) := Recording.move ⟨key, e, now, new, .asking⟩ s
  let (r, s) := r.move s
  (r.counts, s)

end TrafficWatch
