import Coordination.Statistics.Registry

/-!
Samples at regular times. Each round adds a sample of every live instance and writes the archive where
a directory is given; a write that fails is left to the next round. Stopping takes one more round.
-/

namespace Coordination

structure Sampler where
  directory : Option String
  rounds : Nat
  deriving DecidableEq, Repr

namespace Sampler

def start (directory : Option String) : Sampler := ⟨directory, 0⟩

def persist (s : Sampler) (r : Registry) (f : Files) : Files :=
  match s.directory with
  | none => f
  | some directory => (r.persist directory f).2

/-- One round. -/
def tick (s : Sampler) (now : UInt64) (r : Registry) (f : Files) : Sampler × Registry × Files :=
  let r := r.sampleAll now
  ({ s with rounds := s.rounds + 1 }, r, s.persist r f)

/-- Takes the last round; answers how many there were. -/
def stop (s : Sampler) (now : UInt64) (r : Registry) (f : Files) : Nat × Registry × Files :=
  let (s, r, f) := s.tick now r f
  (s.rounds, r, f)

end Sampler

end Coordination
