import TrafficWatch.Pca.Model

/-!
# Pca — Scorer pool

Scorers that are lent out and taken back.  A `Scorer` carries the space in which a vector is
normalized, so its content is what the last vector has left there; a score never depends on it.  A
`ScorerPool` keeps scorers of one model that are idle, makes a new one when none is, and throws away
what comes back when it is full.
-/

namespace TrafficWatch

/-- The working space of a score. -/
structure Scorer where
  scratch : List Float

namespace Scorer

/-- A scorer that has not been used. -/
def fresh : Scorer := ⟨[]⟩

/-- The scorer with nothing in its space. -/
def clear (s : Scorer) : Scorer :=
  { s with scratch := [] }

/-- The scorer with more numbers in its space, behind those that are there. -/
def extend (s : Scorer) (xs : List Float) : Scorer :=
  { s with scratch := s.scratch ++ xs }

/-- The scorer with a vector normalized in its space. -/
def load (s : Scorer) (m : PcaModel) (v : Features) : Scorer :=
  s.clear.extend (m.normalize v.toList)

/-- The score of a vector, and the scorer with what is left in its space. -/
def score (s : Scorer) (m : PcaModel) (v : Features) : Float × Scorer :=
  let s := s.load m v
  (m.scoreNormalized s.scratch, s)

end Scorer

/-- The scorers of one model. -/
structure ScorerPool where
  model : PcaModel
  capacity : Nat
  /-- Scorers that nobody uses; the one that came back first is lent first. -/
  idle : List Scorer
  /-- How many scorers have been made. -/
  created : Nat

namespace ScorerPool

/-- A pool without scorers; it has room for one at least. -/
def empty (model : PcaModel) (capacity : Nat) : ScorerPool :=
  ⟨model, max capacity 1, [], 0⟩

/-- A scorer is lent. -/
def take (p : ScorerPool) : Scorer × ScorerPool :=
  match p.idle with
  | s :: rest => (s, { p with idle := rest })
  | [] => (.fresh, { p with created := p.created + 1 })

/-- A scorer comes back. -/
def giveBack (p : ScorerPool) (s : Scorer) : ScorerPool :=
  if p.idle.length < p.capacity then { p with idle := p.idle ++ [s] } else p

/-- A scorer is lent for one score. -/
def score (p : ScorerPool) (v : Features) : Float × ScorerPool :=
  let (s, p) := p.take
  let (x, s) := s.score p.model v
  (x, p.giveBack s)

end ScorerPool

/-- A pool and the scorers that are lent, in the order in which they were taken. -/
structure Lending where
  pool : ScorerPool
  held : List Scorer

namespace Lending

/-- Nothing is lent. -/
def start (model : PcaModel) (capacity : Nat) : Lending :=
  ⟨.empty model capacity, []⟩

/-- One more scorer is lent. -/
def take (l : Lending) : Lending :=
  let (s, pool) := l.pool.take
  ⟨pool, l.held ++ [s]⟩

/-- The scorer with the given number comes back. -/
def release (l : Lending) (index : Nat) : Lending :=
  match l.held[index]? with
  | some s => ⟨l.pool.giveBack s, l.held.eraseIdx index⟩
  | none => l

/-- A score through the pool. -/
def score (l : Lending) (v : Features) : Float × Lending :=
  let (x, pool) := l.pool.score v
  (x, { l with pool })

/-- A score through the scorer with the given number. -/
def scoreHeld (l : Lending) (index : Nat) (v : Features) : Option (Float × Lending) :=
  l.held[index]?.map fun s =>
    let (x, s) := s.score l.pool.model v
    (x, { l with held := l.held.set index s })

end Lending

end TrafficWatch
