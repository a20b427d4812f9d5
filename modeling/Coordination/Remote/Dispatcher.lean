import Coordination.Remote.Servant
import Coordination.Remote.Target

/-!
Everything a process lets others call: whole classes, classes put together from single functions, and
live objects. A target is resolved first; a call that cannot be resolved runs nothing.
-/

namespace Coordination

structure Dispatcher (σ : Type) where
  classes : Table String σ
  functions : Table String (Table String σ)
  objects : Table String σ

namespace Dispatcher

variable {σ : Type}

def empty : Dispatcher σ := ⟨.empty, .empty, .empty⟩

instance : Inhabited (Dispatcher σ) := ⟨empty⟩

/-! Registration; a later one takes the place of an earlier one. -/

def registerClass (d : Dispatcher σ) (name : String) (servant : σ) : Dispatcher σ :=
  { d with classes := d.classes.insert name servant }

def registerFunction (d : Dispatcher σ) (className method : String) (servant : σ) : Dispatcher σ :=
  { d with functions := d.functions.modify className .empty (·.insert method servant) }

def registerObject (d : Dispatcher σ) (id : String) (servant : σ) : Dispatcher σ :=
  { d with objects := d.objects.insert id servant }

/-- Takes an object away; answers whether it was there. -/
def unregisterObject (d : Dispatcher σ) (id : String) : Bool × Dispatcher σ :=
  (d.objects.contains id, { d with objects := d.objects.erase id })

/-! Resolution. -/

/-- Where a servant is registered. -/
inductive Place where
  | ofClass (name : String)
  | function (className method : String)
  | object (id : String)
  deriving DecidableEq

def replace (d : Dispatcher σ) (servant : σ) : Place → Dispatcher σ
  | .ofClass name => d.registerClass name servant
  | .function className method => d.registerFunction className method servant
  | .object id => d.registerObject id servant

/-! Changes to what is registered. -/

inductive Change (σ : Type) where
  | register (place : Place) (servant : σ)
  | unregister (id : String)

def apply (d : Dispatcher σ) : Change σ → Dispatcher σ
  | .register place servant => d.replace servant place
  | .unregister id => (d.unregisterObject id).2

/-- What is registered once these changes have been made, one after the other. -/
def after (changes : List (Change σ)) : Dispatcher σ := changes.foldl apply empty

/-- The servant to run. A whole class goes before the functions registered under its name. -/
def resolve (d : Dispatcher σ) (target : Target) (method : String) :
    Except Refusal (Place × σ) :=
  match target with
  | .object id =>
      match d.objects.get? id with
      | some servant => .ok (.object id, servant)
      | none => .error (.unknownObject id)
  | .ofClass name =>
      match d.classes.get? name, d.functions.get? name with
      | some servant, _ => .ok (.ofClass name, servant)
      | none, none => .error (.unknownClass name)
      | none, some methods =>
          match methods.get? method with
          | some servant => .ok (.function name method, servant)
          | none => .error (.unknownMethod name method)

def dispatch [Servant σ] (d : Dispatcher σ) (target : Target) (method : String)
    (args : List Json) : Option (Reaction (Dispatcher σ)) :=
  match d.resolve target method with
  | .error refusal => some (.answer (.error refusal) d)
  | .ok (place, servant) =>
      (Servant.perform servant method args).map fun reaction =>
        reaction.map fun servant => d.replace servant place

end Dispatcher

end Coordination
