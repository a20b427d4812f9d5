/-! The ports of a machine that services listen on. -/

namespace Coordination

structure Ports where
  taken : List UInt16
  deriving DecidableEq, Repr

/-- Why no service listens on a port. -/
structure BindFlaw where
  port : UInt16
  reason : String
  deriving DecidableEq, Repr

namespace Ports

/-- Address of all interfaces, which services listen on. -/
def anyAddress : String := "0.0.0.0"

/-- Address under which a service is found on its own machine. -/
def loopback : String := "127.0.0.1"

end Ports

namespace BindFlaw

def message (flaw : BindFlaw) : String :=
  s!"Failed to bind node service on {Ports.anyAddress}:{flaw.port}"

def inUse (port : UInt16) : BindFlaw := ⟨port, "Address already in use (os error 98)"⟩

end BindFlaw

namespace Ports

def empty : Ports := ⟨[]⟩

/-- The port that is given to a service which asks for any. -/
def free? (p : Ports) : Option UInt16 :=
  ((List.range' 32768 28232).map UInt16.ofNat).find? fun port => !p.taken.contains port

/-- Takes a port, any free one for 0. -/
def bind (port : UInt16) (p : Ports) : Except BindFlaw (UInt16 × Ports) :=
  let wanted := if port = 0 then p.free? else some port
  match wanted with
  | some port =>
      if p.taken.contains port then .error (.inUse port) else .ok (port, ⟨port :: p.taken⟩)
  | none => .error (.inUse port)

end Ports

end Coordination
