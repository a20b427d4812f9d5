import Coordination.Proofs.Statistics.Neighbours

/-!
Writing an archive into a directory again and again. Whether it can be written does not change by that, and
what was written last is read.
-/

namespace Coordination

namespace Files

variable {f : Files}

theorem performAll_same (f : Files) (steps : List FileStep) : SameDirectories f (f.performAll steps).1 := by
  induction steps generalizing f with
  | nil => exact fun _ => rfl
  | cons step steps induction =>
      rw [performAll]
      cases done : f.perform step with
      | none => exact fun _ => rfl
      | some after => exact (perform_elsewhere done).1.trans (induction after)

/-- A file of this name can be put into the directory, which is made if need be, by way of a temporary
one. -/
def Admits (f : Files) (directory name : String) : Prop :=
  ∃ made, f.makeDirectories directory = (true, made) ∧
    (made.filePlace? (Path.temporary (Path.join directory name))).isSome ∧
    (made.filePlace? (Path.join directory name)).isSome

end Files

namespace Archive

variable {a : Archive} {f made after : Files} {directory path : String}

theorem writeTo_same (a : Archive) (path : String) (f : Files) :
    Files.SameDirectories f (a.writeTo path f).2 := by
  have same := f.performAll_same (writeSteps path (pieces a.bytes))
  rw [writeTo]
  split
  · rename_i performed
    rwa [performed] at same
  · rename_i performed
    rwa [performed] at same

theorem writeToDirectory_of_made (done : f.makeDirectories directory = (true, made)) :
    a.writeToDirectory directory f =
      let (result, after) := a.writeTo (Path.join directory a.fileName) made
      ((fun _ => Path.join directory a.fileName) <$> result, after) := by
  rw [writeToDirectory, done]

theorem writeToDirectory_eq_ok_iff :
    a.writeToDirectory directory f = (.ok path, after) ↔
      path = Path.join directory a.fileName ∧ ∃ made, f.makeDirectories directory = (true, made) ∧
        a.writeTo path made = (.ok (), after) := by
  rcases done : f.makeDirectories directory with ⟨_ | _, made⟩
  · rw [writeToDirectory, done]
    simp
  · rw [writeToDirectory_of_made done]
    rcases written : a.writeTo (Path.join directory a.fileName) made with ⟨_ | _, last⟩
    · constructor
      · rintro ⟨⟩
      · rintro ⟨rfl, _, ⟨⟩, alsoWritten⟩
        cases written.symm.trans alsoWritten
    · constructor
      · rintro ⟨⟩
        exact ⟨rfl, made, rfl, written⟩
      · rintro ⟨rfl, _, ⟨⟩, alsoWritten⟩
        cases written.symm.trans alsoWritten
        rfl

/-- It can be written just where there is a place for its file. -/
theorem exists_writeToDirectory_iff :
    (∃ path after, a.writeToDirectory directory f = (.ok path, after)) ↔
      f.Admits directory a.fileName := by
  constructor
  · rintro ⟨path, after, written⟩
    obtain ⟨rfl, made, done, written⟩ := writeToDirectory_eq_ok_iff.mp written
    exact ⟨made, done, Files.filePlaces_of_moved (writeTo_eq_ok_iff.mp written)⟩
  · rintro ⟨made, done, source, target⟩
    obtain ⟨after, performed, -⟩ := Files.performAll_moved (pieces a.bytes) source target
    exact ⟨_, after, writeToDirectory_eq_ok_iff.mpr ⟨rfl, made, done, writeTo_eq_ok_iff.mpr performed⟩⟩

theorem readFrom_of_admits (short : a.Addressable) (admits : f.Admits directory a.fileName) :
    readFrom (Path.join directory a.fileName) (a.writeToDirectory directory f).2 = .ok a := by
  obtain ⟨path, after, written⟩ := exists_writeToDirectory_iff.mpr admits
  obtain ⟨rfl, made, -, moved⟩ := writeToDirectory_eq_ok_iff.mp written
  rw [written]
  exact readFrom_of_find? short (find?_of_writeTo moved)

/-- There is a place in every directory that is made, as long as the name is a good one and not taken. -/
theorem admits_of_room {place : String} (done : f.makeDirectories directory = (true, made))
    (leads : made.directory? directory = some place)
    (named : (Path.pieces place).all Files.isName = true) (room : Room place made)
    (nameable : Nameable a) : f.Admits directory a.fileName := by
  refine ⟨made, done, ?_, ?_⟩
  · rw [filePlace?_temporary_file leads named room nameable]
    rfl
  · rw [filePlace?_file leads named room nameable]
    rfl

/-- What was written or failed before is no hindrance. -/
theorem admits_writeToDirectory (admits : f.Admits directory a.fileName) :
    (a.writeToDirectory directory f).2.Admits directory a.fileName := by
  obtain ⟨made, done, source, target⟩ := admits
  obtain ⟨place, reached⟩ := Files.made_of_makeDirectories done
  have same := writeTo_same a (Path.join directory a.fileName) made
  have after : (a.writeToDirectory directory f).2 =
      (a.writeTo (Path.join directory a.fileName) made).2 := by
    rw [writeToDirectory_of_made done]
  have leads := (same.directory? directory).trans reached.leads
  rw [after]
  refine ⟨_, Files.makeDirectories_again done leads, ?_, ?_⟩
  · rw [same.filePlace?]
    exact source
  · rw [same.filePlace?]
    exact target

end Archive

end Coordination
