import Coordination.Files.Volume
import Coordination.Statistics.Archive.File

/-!
Writing an archive where the system may refuse any step and the process may die at any point, whatever
links there are. What has been encoded is written now and then, and what is left of it in the end.
-/

namespace Coordination

namespace Files

/-- What becomes of a step. Of an append that is not done, some bytes may be in the file. -/
inductive Fate where
  | done
  | refused (written : Nat)
  | cut (written : Nat)
  deriving DecidableEq

end Files

/-- What a step leaves behind that is not done. -/
def Volume.partly (v : Volume) (written : Nat) : Files.FileStep → Volume
  | .append path bytes => (v.perform (.append path (bytes.take written))).getD v
  | .create _ | .rename .. => v

namespace Archive

inductive Ending where
  | finished
  | failed (flaw : WriteFlaw)
  /-- The process has died. -/
  | died
  deriving DecidableEq

def Ending.ofResult : Except WriteFlaw Unit → Ending
  | .ok _ => .finished
  | .error flaw => .failed flaw

structure Attempt where
  volume : Volume
  /-- The steps that were done. -/
  done : List Files.FileStep
  ending : Ending

/-- Takes steps, each with what is reported of it when it fails. -/
def attemptSteps (v : Volume) (fates : Nat → Files.Fate) :
    List (Files.FileStep × WriteFlaw) → Attempt
  | [] =>
      match fates 0 with
      | .cut _ => ⟨v, [], .died⟩
      | .done | .refused _ => ⟨v, [], .finished⟩
  | (step, flaw) :: rest =>
      match fates 0 with
      | .cut written => ⟨v.partly written step, [], .died⟩
      | .refused written => ⟨v.partly written step, [], .failed flaw⟩
      | .done =>
          match v.perform step with
          | none => ⟨v, [], .failed flaw⟩
          | some v =>
              let t := attemptSteps v (fun place => fates (place + 1)) rest
              { t with done := step :: t.done }

/-- The steps that put a content at a path, in pieces and what is `left` of it. -/
def reportedSteps (path : String) (written : List Bytes) (left : Bytes) :
    List (Files.FileStep × WriteFlaw) :=
  let temporary := Path.temporary path
  (.create temporary, .notCreated temporary) ::
    (written.map fun piece => (.append temporary piece, .notWritten temporary)) ++
    [(.append temporary left, .notFlushed temporary), (.rename temporary path, .notMoved path)]

def attempt (path : String) (written : List Bytes) (left : Bytes) (fates : Nat → Files.Fate)
    (v : Volume) : Attempt :=
  attemptSteps v fates (reportedSteps path written left)

/-- What comes of reading at a path; a special file has no archive to give. -/
def readOn (path : String) (v : Volume) : Except ReadFlaw Archive :=
  match v.find? path with
  | none => .error (.notOpened path)
  | some .directory | some .special => .error (.notDecoded path)
  | some (.file content) => ofContent path content

end Archive

end Coordination
