import Coordination.Files
import Coordination.Proofs.Table

/-!
What steps of writing leave behind. Directories stay as they are, so a path leads to the same place
before and after, and what has been appended to a file is its content.
-/

namespace Coordination.Files

/-! Directories, and the places that paths lead to. -/

def SameDirectories (f after : Files) : Prop := ∀ place, after.isDirectory place = f.isDirectory place

section

variable {f after : Files}

theorem SameDirectories.trans {last : Files} (same : SameDirectories f after)
    (alsoSame : SameDirectories after last) : SameDirectories f last :=
  fun place => (alsoSame place).trans (same place)

theorem SameDirectories.walk? (same : SameDirectories f after) (place : String) (steps : List String) :
    after.walk? place steps = f.walk? place steps := by
  induction steps generalizing place with
  | nil => rfl
  | cons step steps induction => simp only [Files.walk?, same _, induction]

theorem SameDirectories.place? (same : SameDirectories f after) (path : String) :
    after.place? path = f.place? path := by
  simp only [Files.place?, placeOf?, same.walk?]

theorem SameDirectories.find?_eq {path : String} (same : SameDirectories f after)
    (node : ∀ place, f.place? path = some place → after.nodeAt? place = f.nodeAt? place) :
    after.find? path = f.find? path := by
  rw [find?, find?, same.place?]
  cases leads : f.place? path with
  | none => rfl
  | some place =>
      rw [Option.bind_eq_bind, Option.bind_some, Option.bind_eq_bind, Option.bind_some,
        node place leads]

theorem SameDirectories.filePlace? (same : SameDirectories f after) (path : String) :
    after.filePlace? path = f.filePlace? path := by
  simp only [Files.filePlace?, same.place?, same _]

end

/-- A place for a file, at the end of a path. -/
structure IsFilePlace (f : Files) (path place : String) : Prop where
  leads : f.place? path = some place
  notDirectory : f.isDirectory place = false
  ofFile : Path.namesDirectory path = false

theorem not_root_of_isDirectory {f : Files} {place : String}
    (notDirectory : f.isDirectory place = false) : place.isEmpty = false := by
  cases root : place.isEmpty with
  | false => rfl
  | true => simp [isDirectory, nodeAt?, root] at notDirectory

theorem isFilePlace_of_filePlace? {f : Files} {path place : String}
    (found : f.filePlace? path = some place) : f.IsFilePlace path place := by
  obtain ⟨leads, leadsTo, kept⟩ := Option.bind_eq_some_iff.mp found
  split at kept
  · cases kept
  · rename_i free
    split at kept
    · cases kept
      rw [Bool.or_eq_true, not_or, Bool.not_eq_true, Bool.not_eq_true] at free
      exact ⟨leadsTo, free.1, free.2⟩
    · cases kept

/-- A name of a single piece, which leads to an entry of the root. -/
structure IsPlainName (name : String) : Prop where
  single : Path.pieces name = [name]
  notIdle : Path.isIdle name = false
  notUp : (name == "..") = false
  named : isName name

section

variable {f : Files} {name : String}

theorem IsPlainName.place? (isPlain : IsPlainName name) : f.place? name = some name := by
  simp [Files.place?, placeOf?, Path.steps, isPlain.single, isPlain.notIdle, isPlain.notUp, Files.walk?,
    next, child]

theorem IsPlainName.ofFile (isPlain : IsPlainName name) : Path.namesDirectory name = false := by
  simp [Path.namesDirectory, isPlain.single, isPlain.notIdle]

theorem IsPlainName.filePlace? (isPlain : IsPlainName name) (notDirectory : f.isDirectory name = false) :
    f.filePlace? name = some name := by
  simp [Files.filePlace?, isPlain.place?, isPlain.ofFile, notDirectory, isPlain.single, isPlain.named]

theorem IsPlainName.find? (isPlain : IsPlainName name) : f.find? name = f.nodeAt? name := by
  simp [Files.find?, isPlain.place?, isPlain.ofFile]

end

/-! Files at their places. -/

section

variable {f : Files} {path place : String}

theorem nodeAt?_setFile (notRoot : place.isEmpty = false) (content : Bytes) (other : String) :
    (f.setFile place content).nodeAt? other =
      if other = place then some (.file content) else f.nodeAt? other := by
  rw [nodeAt?, nodeAt?, setFile]
  dsimp only
  rw [Table.get?_insert]
  by_cases same : other = place
  · subst same
    simp [notRoot]
  · simp [same]

theorem nodeAt?_setFile_self (isPlace : f.filePlace? path = some place) (content : Bytes) :
    (f.setFile place content).nodeAt? place = some (.file content) := by
  have ofFile := isFilePlace_of_filePlace? isPlace
  rw [nodeAt?_setFile (not_root_of_isDirectory ofFile.notDirectory), if_pos rfl]

theorem nodeAt?_erase (notRoot : place.isEmpty = false) (other : String) :
    (⟨f.nodes.erase place⟩ : Files).nodeAt? other =
      if other = place then none else f.nodeAt? other := by
  rw [nodeAt?, nodeAt?]
  dsimp only
  rw [Table.get?_erase]
  by_cases same : other = place
  · subst same
    simp [notRoot]
  · rw [if_neg same, if_neg same]

theorem sameDirectories_setFile (notDirectory : f.isDirectory place = false) (content : Bytes) :
    SameDirectories f (f.setFile place content) := by
  intro other
  rw [isDirectory, isDirectory, nodeAt?_setFile (not_root_of_isDirectory notDirectory)]
  split
  · rename_i same
    subst same
    rw [← isDirectory, notDirectory]
    rfl
  · rfl

theorem sameDirectories_erase (notDirectory : f.isDirectory place = false) :
    SameDirectories f ⟨f.nodes.erase place⟩ := by
  intro other
  rw [isDirectory, isDirectory, nodeAt?, nodeAt?, Table.get?_erase]
  by_cases same : other = place
  · subst same
    have notRoot := not_root_of_isDirectory notDirectory
    rw [isDirectory, nodeAt?, notRoot, if_neg Bool.false_ne_true] at notDirectory
    rw [if_pos rfl, notRoot, if_neg Bool.false_ne_true, if_neg Bool.false_ne_true, notDirectory]
    rfl
  · rw [if_neg same]

theorem setFile_setFile (f : Files) (place : String) (first second : Bytes) :
    (f.setFile place first).setFile place second = f.setFile place second := by
  simp only [setFile, Table.insert_insert]

theorem setFile_of_nodeAt? {content : Bytes} (notRoot : place.isEmpty = false)
    (there : f.nodeAt? place = some (.file content)) : f.setFile place content = f := by
  rw [nodeAt?, notRoot, if_neg Bool.false_ne_true] at there
  obtain ⟨nodes⟩ := f
  simp only [setFile, Table.insert_of_get? there]

end

/-! Steps. -/

theorem performAll_append {f last : Files} {first later : List FileStep} :
    f.performAll (first ++ later) = (last, none) ↔
      ∃ middle, f.performAll first = (middle, none) ∧ middle.performAll later = (last, none) := by
  induction first generalizing f with
  | nil => simp [performAll]
  | cons step first induction =>
      rw [List.cons_append, performAll, performAll]
      cases f.perform step with
      | none => simp
      | some next => exact induction

theorem performAll_singleton {f last : Files} {step : FileStep} :
    f.performAll [step] = (last, none) ↔ f.perform step = some last := by
  rw [performAll]
  cases f.perform step with
  | none => simp
  | some next => simp [performAll]

theorem performAll_concat {f middle : Files} {steps : List FileStep}
    (performed : f.performAll steps = (middle, none)) (step : FileStep) :
    f.performAll (steps ++ [step]) =
      match middle.perform step with
      | some last => (last, none)
      | none => (middle, some step) := by
  induction steps generalizing f with
  | nil =>
      cases performed
      rw [List.nil_append, performAll]
      cases middle.perform step <;> rfl
  | cons first steps induction =>
      rw [performAll] at performed
      rw [List.cons_append, performAll]
      cases done : f.perform first with
      | none =>
          rw [done] at performed
          cases performed
      | some next =>
          rw [done] at performed
          exact induction performed

theorem performAll_appends {f : Files} {path place : String} {content : Bytes}
    (isPlace : f.filePlace? path = some place) (there : f.nodeAt? place = some (.file content))
    (pieces : List Bytes) :
    f.performAll (pieces.map (FileStep.append path)) =
      (f.setFile place (content ++ pieces.flatten), none) := by
  have ofFile := isFilePlace_of_filePlace? isPlace
  have notRoot := not_root_of_isDirectory ofFile.notDirectory
  induction pieces generalizing f content with
  | nil => rw [List.flatten_nil, List.append_nil, setFile_of_nodeAt? notRoot there]; rfl
  | cons piece pieces induction =>
      have appended : f.perform (.append path piece) = some (f.setFile place (content ++ piece)) := by
        simp only [perform, isPlace, Option.bind_eq_bind, Option.bind_some, there]
      have same := sameDirectories_setFile ofFile.notDirectory (content ++ piece)
      have isPlaceStill := (same.filePlace? path).trans isPlace
      have grown : (f.setFile place (content ++ piece)).nodeAt? place = some (.file (content ++ piece)) := by
        rw [nodeAt?_setFile notRoot, if_pos rfl]
      have rest := induction isPlaceStill grown (isFilePlace_of_filePlace? isPlaceStill)
      rw [List.map_cons, performAll, appended]
      dsimp only
      rw [rest, setFile_setFile, List.flatten_cons, List.append_assoc]

theorem perform_rename {f : Files} {source target place goal : String} {content : Bytes}
    (isSource : f.filePlace? source = some place) (there : f.nodeAt? place = some (.file content))
    (isTarget : f.filePlace? target = some goal) :
    ∃ last, f.perform (.rename source target) = some last ∧
      last.find? target = some (.file content) := by
  have ofSource := isFilePlace_of_filePlace? isSource
  have ofTarget := isFilePlace_of_filePlace? isTarget
  have found (g : Files) (same : SameDirectories f g) (node : g.nodeAt? goal = some (.file content)) :
      g.find? target = some (.file content) := by
    simp only [find?, same.place?, ofTarget.leads, Option.bind_eq_bind, Option.bind_some, node,
      ofTarget.ofFile]
    rfl
  simp only [perform, isSource, isTarget, Option.bind_eq_bind, Option.bind_some, there]
  by_cases same : place = goal
  · rw [if_pos (beq_iff_eq.mpr same)]
    exact ⟨f, rfl, found f (fun _ => rfl) (same ▸ there)⟩
  · rw [if_neg (mt beq_iff_eq.mp same)]
    have erased := sameDirectories_erase ofSource.notDirectory
    have notDirectory := (erased goal).trans ofTarget.notDirectory
    have put := sameDirectories_setFile notDirectory content
    refine ⟨_, rfl, found _ (erased.trans put) ?_⟩
    rw [nodeAt?_setFile (not_root_of_isDirectory notDirectory), if_pos rfl]

theorem perform_rename_eq {f : Files} {source target place goal : String} {content : Bytes}
    (isSource : f.filePlace? source = some place) (there : f.nodeAt? place = some (.file content))
    (isTarget : f.filePlace? target = some goal) (differs : place ≠ goal) :
    f.perform (.rename source target) =
      some ((⟨f.nodes.erase place⟩ : Files).setFile goal content) := by
  have apart : (place == goal) = false := beq_eq_false_iff_ne.mpr differs
  simp only [perform, isSource, isTarget, Option.bind_eq_bind, Option.bind_some, there, apart]
  rfl

/-! A file that is made at one path, filled, and moved to another one. -/

/-- A file that is made at one place and moved to another one. -/
structure IsMoved (f : Files) (place goal : String) (content : Bytes) (after : Files) : Prop where
  same : SameDirectories f after
  nodeAt? : ∀ other, after.nodeAt? other =
    if other = goal then some (.file content) else if other = place then none else f.nodeAt? other

theorem isMoved {f : Files} {source target place goal : String}
    (isPlace : f.filePlace? source = some place) (isGoal : f.filePlace? target = some goal)
    (content : Bytes) :
    IsMoved f place goal content
      ((⟨(f.setFile place content).nodes.erase place⟩ : Files).setFile goal content) := by
  have atPlace := (isFilePlace_of_filePlace? isPlace).notDirectory
  have atGoal := (isFilePlace_of_filePlace? isGoal).notDirectory
  have notRoot := not_root_of_isDirectory atPlace
  have put := sameDirectories_setFile atPlace content
  have erased := put.trans (sameDirectories_erase ((put place).trans atPlace))
  have stillFree := (erased goal).trans atGoal
  refine ⟨erased.trans (sameDirectories_setFile stillFree content), fun other => ?_⟩
  rw [nodeAt?_setFile (not_root_of_isDirectory atGoal), nodeAt?_erase notRoot, nodeAt?_setFile notRoot]
  split
  · rfl
  · split
    · rfl
    · rfl

theorem performAll_written {f : Files} {source place : String}
    (isPlace : f.filePlace? source = some place) (pieces : List Bytes) :
    f.performAll ([.create source] ++ pieces.map (FileStep.append source)) =
      (f.setFile place pieces.flatten, none) := by
  have ofFile := isFilePlace_of_filePlace? isPlace
  have notRoot := not_root_of_isDirectory ofFile.notDirectory
  have same := sameDirectories_setFile ofFile.notDirectory []
  have created : f.perform (.create source) = some (f.setFile place []) := by
    rw [perform, isPlace, Option.map_some]
  have empty : (f.setFile place []).nodeAt? place = some (.file []) := by
    rw [nodeAt?_setFile notRoot, if_pos rfl]
  refine performAll_append.mpr ⟨_, performAll_singleton.mpr created, ?_⟩
  rw [performAll_appends ((same.filePlace? source).trans isPlace) empty, setFile_setFile, List.nil_append]

/-- The steps can be done wherever both paths lead to places for files, and the file is then found at
the second one. -/
theorem performAll_moved {f : Files} {source target : String} (pieces : List Bytes)
    (isSource : (f.filePlace? source).isSome) (isTarget : (f.filePlace? target).isSome) :
    ∃ last, f.performAll ([.create source] ++ pieces.map (FileStep.append source) ++
        [.rename source target]) = (last, none) ∧
      last.find? target = some (.file pieces.flatten) := by
  obtain ⟨place, isPlace⟩ := Option.isSome_iff_exists.mp isSource
  obtain ⟨goal, isGoal⟩ := Option.isSome_iff_exists.mp isTarget
  have ofFile := isFilePlace_of_filePlace? isPlace
  have same := sameDirectories_setFile ofFile.notDirectory pieces.flatten
  have full : (f.setFile place pieces.flatten).nodeAt? place = some (.file pieces.flatten) := by
    rw [nodeAt?_setFile (not_root_of_isDirectory ofFile.notDirectory), if_pos rfl]
  obtain ⟨last, moved, found⟩ := perform_rename ((same.filePlace? source).trans isPlace) full
    ((same.filePlace? target).trans isGoal)
  exact ⟨last, performAll_append.mpr
    ⟨_, performAll_written isPlace pieces, performAll_singleton.mpr moved⟩, found⟩

/-- And nowhere else. -/
theorem filePlaces_of_moved {f last : Files} {source target : String} {pieces : List Bytes}
    (done : f.performAll ([.create source] ++ pieces.map (FileStep.append source) ++
      [.rename source target]) = (last, none)) :
    (f.filePlace? source).isSome ∧ (f.filePlace? target).isSome := by
  obtain ⟨full, making, moved⟩ := performAll_append.mp done
  obtain ⟨made, creation, filling⟩ := performAll_append.mp making
  obtain ⟨place, isPlace, -⟩ := Option.map_eq_some_iff.mp (performAll_singleton.mp creation)
  rw [performAll_written isPlace] at making
  cases making
  have ofFile := isFilePlace_of_filePlace? isPlace
  have same := sameDirectories_setFile ofFile.notDirectory pieces.flatten
  obtain ⟨_, _, moved⟩ := Option.bind_eq_some_iff.mp (performAll_singleton.mp moved)
  obtain ⟨goal, isGoal, _⟩ := Option.bind_eq_some_iff.mp moved
  rw [same.filePlace?] at isGoal
  exact ⟨Option.isSome_of_eq_some isPlace, Option.isSome_of_eq_some isGoal⟩

end Coordination.Files
