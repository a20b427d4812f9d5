/-! Padding to a column width counted in code points. -/

namespace Coordination.Text

def blanks (count : Nat) : String := String.ofList (List.replicate count ' ')

def alignLeft (width : Nat) (s : String) : String := s ++ blanks (width - s.length)

def alignRight (width : Nat) (s : String) : String := blanks (width - s.length) ++ s

end Coordination.Text
