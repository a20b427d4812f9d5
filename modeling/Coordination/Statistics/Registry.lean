import Coordination.Statistics.Archive.File

/-!
The statistics of one process: the types that it registered, its live instances and its archive. Each
instance has a number of its own, which stays with it when it is closed.
-/

namespace Coordination

/-- Name of an instance within a process. -/
structure InstanceKey where
  typeName : String
  name : String
  deriving DecidableEq, Repr

namespace InstanceKey

instance : Ord InstanceKey := ⟨compareLex (compareOn typeName) (compareOn name)⟩

instance : Std.TransOrd InstanceKey :=
  inferInstanceAs (Std.TransCmp (compareLex (compareOn typeName) (compareOn name)))

theorem eq_of_compare {a b : InstanceKey} (same : compare a b = .eq) : a = b := by
  have fields : compareLex (compareOn typeName) (compareOn name) a b = .eq := same
  simp [compareLex, compareOn, Ordering.then_eq_eq] at fields
  cases a; cases b; simp_all

instance : Std.LawfulEqOrd InstanceKey where
  eq_of_compare := eq_of_compare
  compare_self := Std.ReflCmp.compare_self

end InstanceKey

def Instance.key (i : Instance) : InstanceKey := ⟨i.type.name, i.name⟩

structure Registry where
  types : Table String StatisticsType
  /-- All instances ever made, by number, the closed ones with their last values. -/
  instances : List Instance
  live : Table InstanceKey Nat
  archive : Archive

namespace Registry

def empty (processId : UInt32) (host : String) : Registry :=
  ⟨.empty, [], .empty, .empty processId host⟩

/-! Types. -/

/-- Registers a type; one of the same name has to be the same. -/
def ensureType (t : StatisticsType) : InPlace Fault Registry Unit := do
  let r ← get
  match r.types.get? t.name with
  | some registered => if registered = t then return () else throw (.descriptorMismatch t.name)
  | none => set { r with types := r.types.insert t.name t, archive := r.archive.addType t }

def registerType (r : Registry) (t : StatisticsType) : Except Fault Registry := (ensureType t).final r

def type (r : Registry) (name : String) : Except Fault StatisticsType :=
  match r.types.get? name with
  | some t => .ok t
  | none => .error (.unknownStatisticsType name)

/-! Instances. -/

/-- The instance of this type and name, made if it is not live. -/
def ensureInstance (typeName : String) (scope : Scope) (name trim : Option String) :
    InPlace Fault Registry Nat := do
  let r ← get
  let t ← .ofResult (r.type typeName)
  let key : InstanceKey := ⟨typeName, scope.instanceName r.archive.processId name trim⟩
  match r.live.get? key with
  | some number => return number
  | none =>
      set { r with
        instances := r.instances ++ [Instance.fresh t key.name scope]
        live := r.live.insert key r.instances.length }
      return r.instances.length

def getInstance (r : Registry) (typeName : String) (scope : Scope) (name trim : Option String) :
    Except Fault (Nat × Registry) :=
  (ensureInstance typeName scope name trim).value r

def instance? (r : Registry) (number : Nat) : Option Instance := r.instances[number]?

/-- Live instances in ascending order of type and name. -/
def liveInstances (r : Registry) : List Instance := r.live.values.filterMap r.instance?

def replaceInstance (r : Registry) (number : Nat) (i : Instance) : Registry :=
  { r with instances := r.instances.set number i }

/-! Samples. -/

def addSamples (r : Registry) (samples : List Sample) : Registry :=
  { r with archive := r.archive.addSamples samples }

/-- Adds a sample of every live instance. -/
def sampleAll (r : Registry) (now : UInt64) : Registry :=
  r.addSamples (r.liveInstances.map fun i => i.sample now)

/-- Takes the key of an instance out of the live ones; answers whether it was there. -/
def deregister (r : Registry) (i : Instance) : Bool × Registry :=
  (r.live.contains i.key, { r with live := r.live.erase i.key })

/-- Closes an instance with a last sample; answers whether its key was live. -/
def close (r : Registry) (number : Nat) (now : UInt64) : Bool × Registry :=
  match r.instance? number with
  | none => (false, r)
  | some i =>
      let (removed, r) := r.deregister i
      (removed, if removed then r.addSamples [i.sample now] else r)

/-- Writes the archive into a directory. -/
def persist (r : Registry) (directory : String) (f : Files) :
    Except Archive.WriteFlaw String × Files :=
  r.archive.writeToDirectory directory f

end Registry

end Coordination
