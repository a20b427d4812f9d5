/-! The form of a single argument of a command line. -/

namespace Coordination.CommandLine

inductive Argument where
  /-- Two dashes: no options follow. -/
  | escape
  | long (name : String) (value : Option String)
  | short (names : List Char)
  | word (text : String)
  deriving DecidableEq, Repr

namespace Argument

def ofLong (body : List Char) : Argument :=
  let name := String.ofList (body.takeWhile (· != '='))
  match body.dropWhile (· != '=') with
  | [] => .long name none
  | _ :: value => .long name (some (String.ofList value))

def ofText (text : String) : Argument :=
  match text.toList with
  | ['-', '-'] => .escape
  | '-' :: '-' :: body => ofLong body
  | ['-'] => .word text
  | '-' :: names => .short names
  | _ => .word text

end Argument

end Coordination.CommandLine
