import TrafficWatch.Baseline.Features
import TrafficWatch.Time.Instant

/-!
# Baseline — Buffer

The clean traffic that is remembered for training.  Samples stay in the order of their arrival.  When
the buffer is full the oldest one is shed for each that arrives, whatever its time; `prune` drops
those observed before a given time.
-/

namespace TrafficWatch

/-- What was observed, and when. -/
structure Sample where
  time : Instant
  features : Features

/-- Samples in the order of their arrival, at most `capacity`. -/
structure BaselineBuffer where
  capacity : Nat
  samples : List Sample

namespace BaselineBuffer

/-- A buffer without samples; it has room for one at least. -/
def empty (capacity : Nat) : BaselineBuffer :=
  ⟨max capacity 1, []⟩

/-- The number of samples. -/
def size (b : BaselineBuffer) : Nat :=
  b.samples.length

/-- Whether there is no room for another sample. -/
def isFull (b : BaselineBuffer) : Bool :=
  b.capacity ≤ b.size

/-- The buffer with one more sample, and whether the oldest one was shed for it. -/
def push (b : BaselineBuffer) (s : Sample) : Bool × BaselineBuffer :=
  let kept := if b.isFull then b.samples.drop 1 else b.samples
  (b.isFull, { b with samples := kept ++ [s] })

/-- The buffer without the samples before the given time, and their number. -/
def prune (b : BaselineBuffer) (cutoff : Instant) : Nat × BaselineBuffer :=
  let kept := b.samples.filter fun s => decide (cutoff ≤ s.time)
  (b.size - kept.length, { b with samples := kept })

/-- What was observed, in order. -/
def features (b : BaselineBuffer) : List Features :=
  b.samples.map (·.features)

end BaselineBuffer

end TrafficWatch
