/-! Paths, as texts with slashes between their pieces. -/

namespace Coordination.Path

def pieces (path : String) : List String := (path.toList.splitOn '/').map String.ofList

def ofPieces (pieces : List String) : String := String.intercalate "/" pieces

/-- Pieces without a meaning of their own. -/
def isIdle (piece : String) : Bool := piece == "" || piece == "."

/-- Steps from one directory to the next. -/
def steps (path : String) : List String := (pieces path).filter fun piece => !isIdle piece

/-- Whether the path can only be that of a directory. -/
def namesDirectory (path : String) : Bool := (pieces path).getLast?.any isIdle

def join (directory name : String) : String :=
  if directory.isEmpty || directory.endsWith "/" then directory ++ name
  else directory ++ "/" ++ name

/-- Drops idle pieces at the end, save the first piece of all. -/
def trimmed : List String → List String
  | [] => []
  | first :: rest => first :: (rest.reverse.dropWhile isIdle).reverse

/-- The path next to a file that its new content is written to. Without a file name it lies within. -/
def temporary (path : String) : String :=
  match (trimmed (pieces path)).reverse with
  | [] => join path ".tmp"
  | last :: before =>
      if last == ".." || (before.isEmpty && isIdle last) then join path ".tmp"
      else ofPieces (trimmed before.reverse ++ [last ++ ".tmp"])

end Coordination.Path
