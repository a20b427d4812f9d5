/-! A counter of 64 bits, whose additions wrap around. -/

namespace Coordination

structure Counter where
  value : Int64
  deriving DecidableEq, Repr

namespace Counter

def zero : Counter := ⟨0⟩

instance : Inhabited Counter := ⟨zero⟩

/-! Each operation gives its answer and the counter afterwards. -/

def add (c : Counter) (delta : Int64) : Int64 × Counter :=
  (c.value + delta, ⟨c.value + delta⟩)

/-- Raises the value to `candidate` if that is larger; answers the value before. -/
def raise (c : Counter) (candidate : Int64) : Int64 × Counter :=
  (c.value, ⟨if c.value < candidate then candidate else c.value⟩)

/-- Puts `value` in place; answers the value before. -/
def exchange (c : Counter) (value : Int64) : Int64 × Counter := (c.value, ⟨value⟩)

@[simp] theorem add_fst (c : Counter) (delta : Int64) : (c.add delta).1 = c.value + delta := rfl

@[simp] theorem add_snd (c : Counter) (delta : Int64) :
    (c.add delta).2.value = c.value + delta := rfl

@[simp] theorem raise_fst (c : Counter) (candidate : Int64) : (c.raise candidate).1 = c.value :=
  rfl

@[simp] theorem exchange_fst (c : Counter) (value : Int64) : (c.exchange value).1 = c.value := rfl

@[simp] theorem exchange_snd (c : Counter) (value : Int64) :
    (c.exchange value).2.value = value := rfl

end Counter

end Coordination
