import Coordination.Files
import Coordination.Statistics.Archive.Binary

/-!
Archives in files. An archive is written next to its place and moved there in the end, so that whoever
reads the place finds the former archive or the new one.
-/

namespace Coordination.Archive

inductive WriteFlaw where
  | noDirectory (path : String)
  | notCreated (path : String)
  | notWritten (path : String)
  | notFlushed (path : String)
  | notMoved (path : String)
  deriving DecidableEq

def WriteFlaw.message : WriteFlaw → String
  | .noDirectory path => "Failed to create archive directory: " ++ path
  | .notCreated path => "Failed to create archive: " ++ path
  | .notWritten path => "Failed to write archive: " ++ path
  | .notFlushed path => "Failed to flush archive: " ++ path
  | .notMoved path => "Failed to move archive into place: " ++ path

def WriteFlaw.ofStep : Files.FileStep → WriteFlaw
  | .create path => .notCreated path
  | .append path _ => .notWritten path
  | .rename _ target => .notMoved target

/-- Steps that put a content, given in pieces, at a path. -/
def writeSteps (path : String) (pieces : List Bytes) : List Files.FileStep :=
  let temporary := Path.temporary path
  .create temporary :: pieces.map (Files.FileStep.append temporary) ++ [.rename temporary path]

/-- Size of the pieces that a file is written in. -/
def pieceSize : Nat := 8192

/-- Cuts bytes into pieces; `fuel` bounds their number. -/
def piecesWith (fuel : Nat) (bytes : Bytes) : List Bytes :=
  match fuel with
  | 0 => [bytes]
  | fuel + 1 =>
      match bytes.splitAt pieceSize with
      | (piece, []) => [piece]
      | (piece, rest) => piece :: piecesWith fuel rest

def pieces (bytes : Bytes) : List Bytes := piecesWith bytes.length bytes

/-- Puts an archive into the file at a path. -/
def writeTo (a : Archive) (path : String) (f : Files) : Except WriteFlaw Unit × Files :=
  match f.performAll (writeSteps path (pieces a.bytes)) with
  | (f, none) => (.ok (), f)
  | (f, some step) => (.error (.ofStep step), f)

/-- Puts an archive into a directory under its own name; answers the path. -/
def writeToDirectory (a : Archive) (directory : String) (f : Files) :
    Except WriteFlaw String × Files :=
  match f.makeDirectories directory with
  | (false, f) => (.error (.noDirectory directory), f)
  | (true, f) =>
      let path := Path.join directory a.fileName
      let (result, f) := a.writeTo path f
      ((fun _ => path) <$> result, f)

/-! Reading. -/

inductive ReadFlaw where
  | notOpened (path : String)
  | notDecoded (path : String)
  deriving DecidableEq

def ReadFlaw.message : ReadFlaw → String
  | .notOpened path => "Failed to open archive: " ++ path
  | .notDecoded path => "Failed to decode archive: " ++ path

/-- The archive in the content of a file. -/
def ofContent (path : String) (content : Bytes) : Except ReadFlaw Archive :=
  match ofBytes? content with
  | some a => .ok a
  | none => .error (.notDecoded path)

def readFrom (path : String) (f : Files) : Except ReadFlaw Archive :=
  match f.find? path with
  | none => .error (.notOpened path)
  | some .directory => .error (.notDecoded path)
  | some (.file content) => ofContent path content

end Coordination.Archive
