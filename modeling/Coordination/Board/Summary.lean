import Coordination.Board.Host
import Coordination.Remote.Channel
import Coordination.Text.Columns

/-! A blackboard at one moment: the values of its counters and the size of its map. -/

namespace Coordination

structure Summary where
  name : String
  transport : Transport
  counters : List (String × Int64)
  mapSize : Nat
  deriving DecidableEq

namespace Summary

def counterLine (counter : String × Int64) : String :=
  s!"  {Text.alignLeft 24 counter.1} {counter.2}\n"

def text (s : Summary) : String :=
  s!"Blackboard {s.name} ({s.transport.text})\n" ++ String.join (s.counters.map counterLine) ++
    s!"  shared map: {s.mapSize} entries"

def toJson (s : Summary) : Json :=
  .object [("name", .string s.name), ("kind", .string s.transport.name),
    ("counters", .array (s.counters.map fun (name, value) =>
      .array [.string name, Host.intJson value])),
    ("map_size", .ofNat s.mapSize)]

def ofBoard (transport : Transport) (b : Board) : Summary :=
  ⟨b.name, transport, b.counterValues, b.entries.size⟩

end Summary

def Host.summaries (h : Host) (transport : Transport) : List Summary :=
  h.boards.values.map (Summary.ofBoard transport)

end Coordination
