import Coordination.Proofs.Files.Volume

/-!
Trees of directories and files as volumes without links. Paths lead to the same places, and a step of
writing does the same to both.
-/

namespace Coordination

/-- What one finds of a node that opens a path. -/
def FileNode.sight : FileNode → Volume.Sight
  | .file content => .file content
  | .directory => .directory

namespace Volume

open Files (FileStep isName next)
open Coordination.Path (steps)

variable {v w : Volume} {f : Files} {path place goal : String} {number : Nat}

/-- An entry and a node that are alike. -/
inductive Looks (v : Volume) : Option Entry → Option FileNode → Prop
  | nothing : Looks v none none
  | directory : Looks v (some .directory) (some .directory)
  | file (number : Nat) : Looks v (some (.file number)) (some (.file (v.contentOf number)))

/-- The directories and files of a tree, each file under one name, and nothing else. -/
structure Shows (v : Volume) (f : Files) : Prop where
  looks : ∀ place, Looks v (v.entryAt? place) (f.nodeAt? place)
  single : ∀ {place other number}, v.entryAt? place = some (.file number) →
    v.entryAt? other = some (.file number) → other = place

theorem Looks.of_contents {entry : Option Entry} {node : Option FileNode} (looks : Looks v entry node)
    (same : ∀ number, entry = some (.file number) → w.contentOf number = v.contentOf number) :
    Looks w entry node := by
  cases looks with
  | nothing => exact .nothing
  | directory => exact .directory
  | file number => exact same number rfl ▸ .file number

/-! Where paths lead to. -/

theorem Shows.isDirectory (shows : v.Shows f) (place : String) :
    v.isDirectory place = f.isDirectory place := by
  have here := shows.looks place
  rw [Volume.isDirectory, Files.isDirectory]
  generalize v.entryAt? place = entry, f.nodeAt? place = node at here
  cases here <;> rfl

theorem Shows.not_link (shows : v.Shows f) (place target : String) :
    v.entryAt? place ≠ some (.link target) := by
  have here := shows.looks place
  generalize v.entryAt? place = entry, f.nodeAt? place = node at here
  cases here <;> nofun

theorem Shows.walkWith (shows : v.Shows f) (turn : String → String → List String → Option String)
    (place : String) (steps : List String) :
    v.walkWith .directory turn place steps = f.walk? place steps := by
  induction steps generalizing place with
  | nil => rfl
  | cons step rest induction =>
      have here := shows.looks (next place step)
      rw [Volume.walkWith, Files.walk?, Files.isDirectory]
      generalize v.entryAt? (next place step) = entry, f.nodeAt? (next place step) = node at here
      cases here with
      | nothing => simp
      | directory => exact induction _
      | file number => simp

theorem Shows.walk (shows : v.Shows f) (links : Nat) (place : String) (steps : List String) :
    v.walk .directory links place steps = f.walk? place steps := by
  cases links with
  | zero => exact shows.walkWith _ place steps
  | succ links => exact shows.walkWith _ place steps

theorem Shows.place? (shows : v.Shows f) (path : String) : v.place? path = f.place? path := by
  rw [Volume.place?, Files.place?]
  cases steps path using List.reverseRecOn with
  | nil => rfl
  | append_singleton before last => rw [walk_name_concat, Files.placeOf?_concat, shows.walk]

theorem walk?_eq_filter (f : Files) (path : String) :
    f.walk? "" (steps path) = (f.place? path).filter f.isDirectory := by
  rw [Files.place?]
  cases steps path using List.reverseRecOn with
  | nil => rfl
  | append_singleton before last =>
      rw [Files.placeOf?_concat, Files.walk?_append]
      cases f.walk? "" before with
      | none => rfl
      | some around => simp [Files.walk?, Option.filter]

theorem Shows.target? (shows : v.Shows f) (path : String) :
    v.target? path =
      (f.place? path).filter fun place => f.isDirectory place || !Path.namesDirectory path := by
  cases ofDirectory : Path.namesDirectory path with
  | false =>
      rw [target?_eq_place? ofDirectory fun last link _ => shows.not_link last link, shows.place?]
      cases f.place? path <;> simp [Option.filter]
  | true =>
      rw [Volume.target?, ofDirectory, if_pos rfl, shows.walk, walk?_eq_filter]
      simp

theorem Shows.openPlace? (shows : v.Shows f) (path : String) :
    f.filePlace? path = (v.openPlace? path).filter fun place => !f.isDirectory place := by
  rw [Files.filePlace?, Volume.openPlace?, shows.target?]
  cases f.place? path with
  | none => rfl
  | some place =>
      cases directory : f.isDirectory place <;> cases Path.namesDirectory path <;>
        cases named : (Path.pieces place).all isName <;>
        simp [Option.filter, directory, named, -List.all_eq_true]

theorem Shows.namePlace? (shows : v.Shows f) (path : String) :
    f.filePlace? path = (v.namePlace? path).filter fun place => !f.isDirectory place := by
  rw [Files.filePlace?, Volume.namePlace?, shows.place?]
  cases f.place? path with
  | none => rfl
  | some place =>
      cases directory : f.isDirectory place <;> cases Path.namesDirectory path <;>
        cases named : (Path.pieces place).all isName <;>
        simp [Option.filter, directory, named, -List.all_eq_true]

theorem Shows.find? (shows : v.Shows f) (path : String) :
    v.find? path = (f.find? path).map FileNode.sight := by
  rw [Volume.find?, Files.find?, shows.target?]
  cases f.place? path with
  | none => rfl
  | some place =>
      have here := shows.looks place
      generalize there : v.entryAt? place = entry, node : f.nodeAt? place = found at here
      cases here <;> cases Path.namesDirectory path <;>
        simp [Option.filter, Files.isDirectory, there, node, sight?, FileNode.sight]

/-! What changes. -/

theorem Shows.setContent (shows : v.Shows f) (there : v.entryAt? place = some (.file number))
    (content : Bytes) : (v.setContent number content).Shows (f.setFile place content) := by
  have notRoot : place.isEmpty = false := by
    refine not_root_of_entryAt? (v := v) ?_
    simp [there]
  refine ⟨fun other => ?_, shows.single⟩
  rw [Files.nodeAt?_setFile notRoot]
  change Looks _ (v.entryAt? other) _
  by_cases same : other = place
  · subst same
    have grown : Looks (v.setContent number content) _ _ := .file number
    rw [contentOf_setContent, if_pos rfl] at grown
    rwa [there, if_pos rfl]
  · rw [if_neg same]
    refine (shows.looks other).of_contents fun another alsoThere => ?_
    rw [contentOf_setContent, if_neg]
    rintro rfl
    exact same (shows.single there alsoThere)

/-- A file that comes to a place, its content being there, and of which there is no other name. -/
theorem Shows.setEntry (shows : v.Shows f) (notDirectory : v.entryAt? place ≠ some .directory)
    (alone : ∀ other, v.entryAt? other ≠ some (.file number)) :
    (v.setEntry place (.file number)).Shows (f.setFile place (v.contentOf number)) := by
  have notRoot := not_root_of_entryAt? notDirectory
  refine ⟨fun other => ?_, fun {one other another} here there => ?_⟩
  · rw [entryAt?_setEntry notRoot, Files.nodeAt?_setFile notRoot]
    split
    · exact .file (v := v.setEntry place _) number
    · exact (shows.looks other).of_contents fun _ _ => rfl
  · rw [entryAt?_setEntry notRoot] at here there
    split at here <;> split at there
    · simp_all
    · cases here
      exact absurd there (alone other)
    · cases there
      exact absurd here (alone one)
    · exact shows.single here there

theorem Shows.erase (shows : v.Shows f) (notDirectory : v.entryAt? place ≠ some .directory) :
    (v.erase place).Shows ⟨f.nodes.erase place⟩ := by
  have notRoot := not_root_of_entryAt? notDirectory
  refine ⟨fun other => ?_, fun {one other another} here there => ?_⟩
  · rw [entryAt?_erase notRoot, Files.nodeAt?_erase notRoot]
    split
    · exact .nothing
    · exact (shows.looks other).of_contents fun _ _ => rfl
  · rw [entryAt?_erase notRoot] at here there
    split at here <;> split at there
    · cases here
    · cases here
    · cases there
    · exact shows.single here there

theorem Shows.addFile (shows : v.Shows f) (nobody : v.entryAt? place = none) :
    (v.addFile place).Shows (f.setFile place []) := by
  have unused (other : String) : v.entryAt? other ≠ some (.file v.fresh) := fun there =>
    Nat.lt_irrefl _ (lt_fresh there)
  have made : (v.setContent v.fresh []).Shows f :=
    ⟨fun other => (shows.looks other).of_contents fun number there => by
      rw [contentOf_setContent, if_neg]
      rintro rfl
      exact unused other there, shows.single⟩
  have empty : (v.setContent v.fresh []).contentOf v.fresh = [] := by
    rw [contentOf_setContent, if_pos rfl]
  have free : (v.setContent v.fresh []).entryAt? place ≠ some .directory := by
    change v.entryAt? place ≠ _
    simp [nobody]
  exact empty ▸ made.setEntry free unused

theorem Shows.move (shows : v.Shows f) (there : v.entryAt? place = some (.file number))
    (free : v.entryAt? goal ≠ some .directory) :
    ((v.erase place).setEntry goal (.file number)).Shows
      ((⟨f.nodes.erase place⟩ : Files).setFile goal (v.contentOf number)) := by
  have notDirectory : v.entryAt? place ≠ some .directory := by simp [there]
  have erased := entryAt?_erase (v := v) (not_root_of_entryAt? notDirectory)
  refine (shows.erase notDirectory).setEntry ?_ fun other alsoThere => ?_
  · rw [erased]
    split
    · nofun
    · exact free
  · rw [erased] at alsoThere
    split at alsoThere
    · cases alsoThere
    · rename_i apart
      exact apart (shows.single there alsoThere)

/-! A volume for every tree. -/

theorem Shows.addDirectory (shows : v.Shows f) (notRoot : place.isEmpty = false)
    (nobody : v.entryAt? place = none) :
    (v.setEntry place .directory).Shows ⟨f.nodes.insert place .directory⟩ := by
  refine ⟨fun other => ?_, fun {one other number} here there => ?_⟩
  · have made : (⟨f.nodes.insert place .directory⟩ : Files).nodeAt? other =
        if other = place then some .directory else f.nodeAt? other := by
      rw [Files.nodeAt?, Files.nodeAt?, Table.get?_insert]
      by_cases same : other = place
      · subst same
        simp [notRoot]
      · simp [same]
    rw [entryAt?_setEntry notRoot, made]
    split
    · exact .directory
    · exact (shows.looks other).of_contents fun _ _ => rfl
  · rw [entryAt?_setEntry notRoot] at here there
    split at here <;> split at there
    · simp_all
    · cases here
    · cases there
    · exact shows.single here there

theorem exists_shows (f : Files) : ∃ v : Volume, v.Shows f := by
  obtain ⟨⟨entries, ascending⟩⟩ := f
  induction entries with
  | nil =>
      refine ⟨.empty, fun place => ?_, fun {place _ _} here _ => ?_⟩
      · rw [entryAt?, Files.nodeAt?]
        split
        · exact .directory
        · exact .nothing
      · rw [entryAt?] at here
        split at here <;> cases here
  | cons entry rest induction =>
      obtain ⟨place, node⟩ := entry
      obtain ⟨below, others⟩ := List.pairwise_cons.mp ascending
      obtain ⟨v, shows⟩ := induction others
      have whole : (⟨⟨(place, node) :: rest, ascending⟩⟩ : Files) =
          ⟨(⟨rest, others⟩ : Table String FileNode).insert place node⟩ := by
        congr 1
        apply Table.ext_get?
        intro key
        rw [Table.get?_insert]
        simp [Table.get?, atKey?, Std.LawfulEqCmp.compare_eq_iff_eq]
      rw [whole]
      cases root : place.isEmpty with
      | true =>
          -- What is listed at the root is never looked at.
          refine ⟨v, fun other => ?_, shows.single⟩
          have here := shows.looks other
          rw [Files.nodeAt?] at here ⊢
          split
          · simp_all
          · rename_i notRoot
            have apart : other ≠ place := by
              rintro rfl
              exact notRoot root
            rw [Table.get?_insert, if_neg apart]
            simpa [notRoot] using here
      | false =>
          have nobody : v.entryAt? place = none := by
            have here := shows.looks place
            have absent : (⟨rest, others⟩ : Table String FileNode).get? place = none :=
              atKey?_eq_none fun entry member => by simp [below entry member]
            rw [Files.nodeAt?, root, if_neg Bool.false_ne_true, absent] at here
            generalize v.entryAt? place = entry at here ⊢
            cases here
            rfl
          cases node with
          | directory => exact ⟨_, shows.addDirectory root nobody⟩
          | file content =>
              have made : (v.addFile place).entryAt? place = some (.file v.fresh) := by
                rw [addFile, entryAt?_setEntry root, if_pos rfl]
              have filled := (shows.addFile nobody).setContent made content
              rw [Files.setFile_setFile] at filled
              exact ⟨_, filled⟩

/-! Steps. -/

/-- A place that was found in both, or else there is a directory at it. -/
theorem Shows.found {opened placed : Option String} (shows : v.Shows f)
    (same : placed = opened.filter fun place => !f.isDirectory place) :
    (placed = none ∧ ∀ place, opened = some place → v.entryAt? place = some .directory) ∨
      ∃ place, opened = some place ∧ placed = some place ∧ v.entryAt? place ≠ some .directory := by
  cases opened with
  | none => exact .inl ⟨same, nofun⟩
  | some place =>
      have directories := shows.isDirectory place
      rw [Option.filter_some, ← directories] at same
      cases directory : v.isDirectory place with
      | true =>
          rw [directory] at same
          exact .inl ⟨same, fun _ here => Option.some.inj here ▸ beq_iff_eq.mp directory⟩
      | false =>
          rw [directory] at same
          exact .inr ⟨place, rfl, same, beq_eq_false_iff_ne.mp directory⟩

theorem entryAt?_of_areOneFile {entry : Option Entry}
    (same : areOneFile (.file number) entry = true) : entry = some (.file number) := by
  unfold areOneFile at same
  split at same
  · rename_i first
    cases first
    exact congrArg _ (congrArg _ (beq_iff_eq.mp same).symm)
  · cases same

theorem perform_shows (shows : v.Shows f) (step : FileStep) :
    Option.Rel Shows (v.perform step) (f.perform step) := by
  cases step with
  | create path =>
      rw [perform, Files.perform]
      rcases shows.found (shows.openPlace? path) with
        ⟨unplaced, directories⟩ | ⟨place, opened, placed, free⟩
      · rw [unplaced]
        cases opened : v.openPlace? path with
        | none => exact .none
        | some place => simp [directories place opened]
      · have here := shows.looks place
        rw [opened, placed, Option.bind_eq_bind, Option.bind_some]
        generalize there : v.entryAt? place = entry, f.nodeAt? place = node at here
        cases here with
        | nothing => exact .some (shows.addFile there)
        | directory => exact absurd there free
        | file number => exact .some (shows.setContent there [])
  | append path bytes =>
      rw [perform, Files.perform]
      rcases shows.found (shows.openPlace? path) with
        ⟨unplaced, directories⟩ | ⟨place, opened, placed, free⟩
      · rw [unplaced]
        cases opened : v.openPlace? path with
        | none => exact .none
        | some place => simp [directories place opened]
      · have here := shows.looks place
        simp only [opened, placed, Option.bind_eq_bind, Option.bind_some]
        generalize there : v.entryAt? place = entry, f.nodeAt? place = node at here
        cases here with
        | nothing => exact .none
        | directory => exact absurd there free
        | file number => exact .some (shows.setContent there _)
  | rename source target =>
      rw [perform, Files.perform]
      rcases shows.found (shows.namePlace? source) with
        ⟨unplaced, directories⟩ | ⟨place, named, placed, free⟩
      · rw [unplaced]
        cases named : v.namePlace? source with
        | none => exact .none
        | some place =>
            cases v.namePlace? target <;> simp [directories place named]
      · simp only [named, placed, Option.bind_eq_bind, Option.bind_some]
        rcases shows.found (shows.namePlace? target) with
          ⟨unplaced, directories⟩ | ⟨goal, goalNamed, goalPlaced, goalFree⟩
        · rw [unplaced]
          cases goalNamed : v.namePlace? target with
          | none => exact .none
          | some goal =>
              cases v.entryAt? place <;> simp [directories goal goalNamed]
        · have here := shows.looks place
          simp only [goalNamed, goalPlaced, Option.bind_some]
          generalize there : v.entryAt? place = entry, f.nodeAt? place = node at here
          cases here with
          | nothing => exact .none
          | directory => exact absurd there free
          | file number =>
              have one (same : areOneFile (.file number) (v.entryAt? goal) = true) : place = goal :=
                (shows.single there (entryAt?_of_areOneFile same)).symm
              by_cases same : place = goal
              · simpa [same, goalFree] using Option.Rel.some shows
              · have two := Bool.eq_false_iff.mpr (mt one same)
                simpa [same, goalFree, two] using Option.Rel.some (shows.move there goalFree)

end Volume

end Coordination
