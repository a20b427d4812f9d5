import Coordination.Proofs.Files.Directories
import Coordination.Proofs.Statistics.Replacement

/-!
Archives of many processes in one directory. The number behind the last dash of a file's name is that of the
process, so that no two processes have files of one name, and no file has the name of a temporary one.
-/

namespace Coordination

namespace Files

variable {f after : Files} {path place : String} {step : FileStep}

def FileStep.paths : FileStep → List String
  | .create path | .append path _ => [path]
  | .rename source target => [source, target]

/-- A step touches nothing but what its paths lead to. -/
theorem perform_elsewhere (done : f.perform step = some after) :
    SameDirectories f after ∧
      ∀ place, (∀ path ∈ step.paths, f.place? path ≠ some place) →
        after.nodeAt? place = f.nodeAt? place := by
  have put {path place : String} (isPlace : f.filePlace? path = some place) (content : Bytes) :
      SameDirectories f (f.setFile place content) ∧ ∀ other, f.place? path ≠ some other →
        (f.setFile place content).nodeAt? other = f.nodeAt? other := by
    have ofFile := isFilePlace_of_filePlace? isPlace
    refine ⟨sameDirectories_setFile ofFile.notDirectory content, fun other apart => ?_⟩
    rw [nodeAt?_setFile (not_root_of_isDirectory ofFile.notDirectory), if_neg]
    rintro rfl
    exact apart ofFile.leads
  cases step with
  | create path =>
      rw [perform, Option.map_eq_some_iff] at done
      obtain ⟨place, isPlace, rfl⟩ := done
      obtain ⟨same, others⟩ := put isPlace []
      exact ⟨same, fun other apart => others other (apart path List.mem_cons_self)⟩
  | append path bytes =>
      rw [perform, Option.bind_eq_bind, Option.bind_eq_some_iff] at done
      obtain ⟨place, isPlace, done⟩ := done
      split at done
      · cases done
        obtain ⟨same, others⟩ := put isPlace _
        exact ⟨same, fun other apart => others other (apart path List.mem_cons_self)⟩
      · cases done
  | rename source target =>
      rw [perform, Option.bind_eq_bind, Option.bind_eq_some_iff] at done
      obtain ⟨place, isPlace, done⟩ := done
      rw [Option.bind_eq_some_iff] at done
      obtain ⟨goal, isGoal, done⟩ := done
      split at done
      · rename_i content there
        split at done
        · cases done
          exact ⟨fun _ => rfl, fun _ _ => rfl⟩
        · cases done
          -- To move a file is to make it once more where it is, and then to move it.
          have whole : f.setFile place content = f :=
            setFile_of_nodeAt? (not_root_of_isDirectory
              (isFilePlace_of_filePlace? isPlace).notDirectory) there
          have moved := isMoved isPlace isGoal content
          rw [whole] at moved
          refine ⟨moved.same, fun other apart => ?_⟩
          rw [moved.nodeAt?, if_neg, if_neg]
          · rintro rfl
            exact apart source List.mem_cons_self (isFilePlace_of_filePlace? isPlace).leads
          · rintro rfl
            exact apart target (by simp [FileStep.paths]) (isFilePlace_of_filePlace? isGoal).leads
      · cases done

end Files

namespace Archive

open Coordination.Path (IsEntry IsPiece)
open Files (child)

variable {a b : Archive}

/-! Names of files. -/

/-- They are archives of one process. -/
def SameProcess (a b : Archive) : Prop := a.host = b.host ∧ a.processId = b.processId

instance (a b : Archive) : Decidable (SameProcess a b) := inferInstanceAs (Decidable (_ ∧ _))

theorem fileName_eq (a : Archive) :
    a.fileName = "statArchive-" ++ a.host ++ "-" ++ a.processId.toNat.repr ++ ".bin" := rfl

theorem eq_of_append_cons_append {c : Char} {x y z w : List Char}
    (same : x ++ c :: y = z ++ c :: w) (noneIn : c ∉ y) (noneInOther : c ∉ w) : x = z ∧ y = w := by
  rcases List.append_eq_append_iff.mp same with ⟨more, rfl, rest⟩ | ⟨more, rfl, rest⟩
  · cases more with
    | nil => exact ⟨(List.append_nil x).symm, (List.cons.inj rest).2⟩
    | cons d more =>
        obtain ⟨-, rfl⟩ := List.cons.inj rest
        exact absurd (by simp) noneIn
  · cases more with
    | nil => exact ⟨List.append_nil z, (List.cons.inj rest).2.symm⟩
    | cons d more =>
        obtain ⟨-, rfl⟩ := List.cons.inj rest
        exact absurd (by simp) noneInOther

theorem not_mem_repr {c : Char} (noDigit : c.isDigit = false) (n : Nat) : c ∉ n.repr.toList := by
  rw [Nat.toList_repr]
  intro member
  have digit : c.isDigit = true := Nat.isDigit_of_mem_toDigits (by decide) (by decide) member
  exact absurd (noDigit.symm.trans digit) (by decide)

theorem fileName_eq_iff : a.fileName = b.fileName ↔ SameProcess a b := by
  constructor
  · intro same
    rw [fileName_eq, fileName_eq, String.append_left_inj] at same
    have parts := congrArg String.toList same
    have dashed (start number : String) :
        (start ++ "-" ++ number).toList = start.toList ++ '-' :: number.toList := by
      simp [String.toList_append]
    rw [dashed, dashed] at parts
    have noDash (n : Nat) : '-' ∉ n.repr.toList := not_mem_repr (by decide) n
    obtain ⟨hosts, numbers⟩ := eq_of_append_cons_append parts (noDash _) (noDash _)
    refine ⟨String.append_right_inj _ |>.mp (String.toList_injective hosts), ?_⟩
    exact UInt32.toNat_inj.mp (Nat.repr_injective (String.toList_injective numbers))
  · rintro ⟨host, processId⟩
    rw [fileName_eq, fileName_eq, host, processId]

theorem fileName_ne_temporary (a b : Archive) : a.fileName ≠ b.fileName ++ ".tmp" := by
  intro same
  have last := congrArg (·.toList.getLast?) same
  simp only [fileName_eq, String.toList_append, List.getLast?_append] at last
  cases last

/-- The name of its file, and of the temporary one, is one that the system takes. -/
structure Nameable (a : Archive) : Prop where
  noSlash : '/' ∉ a.host.toList
  fits : Files.isName (a.fileName ++ ".tmp") = true

theorem Nameable.isEntry (nameable : Nameable a) : IsEntry a.fileName := by
  have start : IsPiece ("statArchive-" ++ a.host ++ "-" ++ a.processId.toNat.repr) := by
    have noSlash : '/' ∉ a.processId.toNat.repr.toList := not_mem_repr (by decide) _
    simp [IsPiece, String.toList_append, nameable.noSlash, noSlash, -Nat.toList_repr]
  exact start.isEntry_append (by decide) (by decide)

theorem Nameable.isEntry_temporary (nameable : Nameable a) : IsEntry (a.fileName ++ ".tmp") :=
  nameable.isEntry.isPiece.isEntry_append (by decide) (by decide)

/-! Places in a directory. -/

section

variable {f : Files} {directory place : String}

theorem place?_file (nameable : Nameable a) (f : Files) (directory : String) :
    f.place? (Path.join directory a.fileName) =
      (f.directory? directory).map fun place => child place a.fileName :=
  Files.place?_join nameable.isEntry f directory

theorem place?_temporary_file (nameable : Nameable a) (f : Files) (directory : String) :
    f.place? (Path.temporary (Path.join directory a.fileName)) =
      (f.directory? directory).map fun place => child place (a.fileName ++ ".tmp") := by
  have notUp : (a.fileName != "..") = true := by rw [bne, nameable.isEntry.notUp]; rfl
  have ending : Path.hasFileName (Path.join directory a.fileName) = true := by
    rw [Path.hasFileName, Path.steps_join nameable.isEntry, List.getLast?_concat, Option.any_some, notUp]
  rw [Files.place?_temporary, place?_file nameable, Option.map_map]
  simp only [Function.comp_def, Files.besides, ending, if_true, Files.child_append]

/-- Where archives go in a directory, nothing is in their way. -/
def Room (place : String) (f : Files) : Prop :=
  ∀ a : Archive, Nameable a → f.isDirectory (child place a.fileName) = false ∧
    f.nodes.get? (child place (a.fileName ++ ".tmp")) = none

theorem filePlace?_file (leads : f.directory? directory = some place)
    (named : (Path.pieces place).all Files.isName = true) (room : Room place f)
    (nameable : Nameable a) :
    f.filePlace? (Path.join directory a.fileName) = some (child place a.fileName) :=
  Files.filePlace?_join leads named nameable.isEntry (Files.isName_of_append nameable.fits)
    (room a nameable).1

theorem filePlace?_temporary_file (leads : f.directory? directory = some place)
    (named : (Path.pieces place).all Files.isName = true) (room : Room place f)
    (nameable : Nameable a) :
    f.filePlace? (Path.temporary (Path.join directory a.fileName)) =
      some (child place (a.fileName ++ ".tmp")) := by
  have free : f.isDirectory (child place (a.fileName ++ ".tmp")) = false := by
    rw [Files.isDirectory, Files.nodeAt?, Files.child_not_root nameable.isEntry_temporary,
      if_neg Bool.false_ne_true, (room a nameable).2]
    rfl
  have names := Files.all_isName_child named nameable.isEntry_temporary.isPiece nameable.fits
  have ofFile := (Path.steps_temporary (Path.join directory a.fileName)).1
  rw [Files.filePlace?, place?_temporary_file nameable, leads, Option.map_some]
  simp only [Option.bind_eq_bind, Option.bind_some, free, ofFile, Bool.or_self, names, if_true]
  rfl

end

/-! Writing. -/

/-- Writes archives into a directory, one after another. -/
def writeEach (directory : String) : List Archive → Files → List (Except WriteFlaw String) × Files
  | [], f => ([], f)
  | a :: rest, f =>
      let (result, f) := a.writeToDirectory directory f
      let (results, f) := writeEach directory rest f
      (result :: results, f)

/-- What is written takes its place, and all else stays. -/
structure Adds (place : String) (f : Files) (a : Archive) (after : Files) : Prop where
  same : Files.SameDirectories f after
  entries : ∀ other, after.nodes.get? other =
    if other = child place a.fileName then some (.file a.bytes) else f.nodes.get? other

section

variable {f g : Files} {directory place : String}

theorem adds_of_writeToDirectory (made : f.makeDirectories directory = (true, g))
    (leads : g.directory? directory = some place)
    (named : (Path.pieces place).all Files.isName = true) (room : Room place g)
    (nameable : Nameable a) :
    ∃ after, a.writeToDirectory directory f = (.ok (Path.join directory a.fileName), after) ∧
      Adds place g a after := by
  have isPlace := filePlace?_temporary_file leads named room nameable
  have isGoal := filePlace?_file leads named room nameable
  have apart : child place (a.fileName ++ ".tmp") ≠ child place a.fileName := by
    intro same
    exact fileName_ne_temporary a a
      (Files.child_injective nameable.isEntry_temporary.isPiece nameable.isEntry.isPiece same).symm
  have put := Files.sameDirectories_setFile (Files.isFilePlace_of_filePlace? isPlace).notDirectory a.bytes
  have renamed := Files.perform_rename_eq ((put.filePlace? _).trans isPlace)
    (Files.nodeAt?_setFile_self isPlace a.bytes) ((put.filePlace? _).trans isGoal) apart
  have performed := performAll_writeSteps g (Path.join directory a.fileName) (pieces a.bytes)
  rw [isPlace, flatten_pieces] at performed
  dsimp only at performed
  rw [renamed] at performed
  refine ⟨_, ?_, (Files.isMoved isPlace isGoal a.bytes).same, fun other => ?_⟩
  · rw [writeToDirectory, made]
    dsimp only
    rw [writeTo_eq_ok_iff.mpr performed]
    rfl
  · rw [Files.setFile, Files.setFile]
    dsimp only
    rw [Table.get?_insert, Table.get?_erase, Table.get?_insert]
    split
    · rfl
    · split
      · rename_i same
        rw [same, (room a nameable).2]
      · rfl

theorem Adds.room {after : Files} (adds : Adds place f a after) (nameable : Nameable a)
    (room : Room place f) : Room place after := by
  intro b alsoNameable
  obtain ⟨free, nobody⟩ := room b alsoNameable
  refine ⟨(adds.same _).trans free, ?_⟩
  rw [adds.entries, if_neg, nobody]
  intro same
  exact fileName_ne_temporary a b (Files.child_injective alsoNameable.isEntry_temporary.isPiece
    nameable.isEntry.isPiece same).symm

/-- The last of some archives that has its file at a place. -/
def lastAt? (place : String) (writes : List Archive) (other : String) : Option Archive :=
  writes.reverse.find? fun a => child place a.fileName = other

theorem writeEach_eq (made : f.makeDirectories directory = (true, g))
    (leads : g.directory? directory = some place)
    (named : (Path.pieces place).all Files.isName = true) {h : Files} (same : Files.SameDirectories g h)
    (room : Room place h) {writes : List Archive} (nameable : ∀ a ∈ writes, Nameable a) :
    ∃ after,
      writeEach directory writes h =
        (writes.map fun a => .ok (Path.join directory a.fileName), after) ∧
      Files.SameDirectories g after ∧
      ∀ other, after.nodes.get? other =
        ((lastAt? place writes other).map fun a => .file a.bytes).or (h.nodes.get? other) := by
  -- Each write leaves room for the others; of two at one place, the later one has its bytes there.
  induction writes generalizing h with
  | nil => exact ⟨h, rfl, same, fun _ => rfl⟩
  | cons a writes ih =>
      obtain ⟨first, others⟩ := List.forall_mem_cons.mp nameable
      have leadsStill := (same.directory? directory).trans leads
      obtain ⟨next, wrote, adds⟩ := adds_of_writeToDirectory
        (Files.makeDirectories_again made leadsStill) leadsStill named room first
      obtain ⟨after, wroteAll, sameAfter, entries⟩ :=
        ih (same.trans adds.same) (adds.room first room) others
      refine ⟨after, ?_, sameAfter, fun other => ?_⟩
      · rw [writeEach, wrote]
        dsimp only
        rw [wroteAll]
        rfl
      · rw [entries, adds.entries, lastAt?, lastAt?, List.reverse_cons, List.find?_append, Option.map_or,
          Option.or_assoc]
        congr 1
        by_cases here : other = child place a.fileName
        · simp [here]
        · simp [here, Ne.symm here]

theorem room_of_fresh (fresh : f.names place = []) : Room place f := by
  have nobody {name : String} (isPiece : IsPiece name) : f.nodes.get? (child place name) = none :=
    Files.get?_eq_none_of_names_eq_nil fresh (Files.parent_child isPiece place)
  intro a nameable
  refine ⟨?_, nobody nameable.isEntry_temporary.isPiece⟩
  rw [Files.isDirectory, Files.nodeAt?, Files.child_not_root nameable.isEntry,
    if_neg Bool.false_ne_true, nobody nameable.isEntry.isPiece]
  rfl

theorem lastAt?_eq_some {writes : List Archive} {other : String}
    (found : lastAt? place writes other = some a) :
    a ∈ writes ∧ child place a.fileName = other := by
  rw [lastAt?] at found
  have here := List.find?_some found
  exact ⟨List.mem_reverse.mp (List.mem_of_find?_eq_some found), of_decide_eq_true here⟩

theorem lastAt?_of_last {earlier later : List Archive} (nameable : ∀ b ∈ a :: later, Nameable b)
    (last : ∀ b ∈ later, ¬ SameProcess b a) :
    lastAt? place (earlier ++ a :: later) (child place a.fileName) = some a := by
  have others : later.reverse.find? (fun b => child place b.fileName = child place a.fileName) = none := by
    rw [List.find?_eq_none]
    intro b member same
    have isLater := List.mem_reverse.mp member
    refine last b isLater (fileName_eq_iff.mp ?_)
    exact Files.child_injective (nameable b (List.mem_cons_of_mem _ isLater)).isEntry.isPiece
      (nameable a List.mem_cons_self).isEntry.isPiece (of_decide_eq_true same)
  rw [lastAt?, List.reverse_append, List.reverse_cons, List.append_assoc, List.find?_append, others,
    Option.none_or, List.singleton_append]
  exact List.find?_cons_of_pos (decide_eq_true rfl)

/-- What is in a directory that was empty, when archives have been written there. -/
theorem names_of_entries {after : Files} {writes : List Archive} (fresh : f.names place = [])
    (nameable : ∀ a ∈ writes, Nameable a)
    (entries : ∀ other, after.nodes.get? other =
      ((lastAt? place writes other).map fun a => .file a.bytes).or (f.nodes.get? other)) :
    (after.names place).Nodup ∧
      ∀ name, name ∈ after.names place ↔ ∃ a ∈ writes, a.fileName = name := by
  have written (key : String) (node : FileNode) (found : after.nodes.get? key = some node)
      (within : Files.parent key = place) : ∃ a ∈ writes, child place a.fileName = key := by
    rw [entries, Files.get?_eq_none_of_names_eq_nil fresh within, Option.or_none,
      Option.map_eq_some_iff] at found
    obtain ⟨a, last, -⟩ := found
    exact ⟨a, lastAt?_eq_some last⟩
  constructor
  · refine Files.nodup_names fun key node found within name last => ?_
    obtain ⟨a, member, rfl⟩ := written key node found within
    rw [Files.getLast?_pieces_child (nameable a member).isEntry.isPiece] at last
    rw [Option.some.inj last]
  · intro name
    rw [Files.mem_names_iff]
    constructor
    · rintro ⟨key, node, found, within, last⟩
      obtain ⟨a, member, rfl⟩ := written key node found within
      rw [Files.getLast?_pieces_child (nameable a member).isEntry.isPiece] at last
      exact ⟨a, member, Option.some.inj last⟩
    · rintro ⟨a, member, rfl⟩
      have isPiece := (nameable a member).isEntry.isPiece
      obtain ⟨b, last⟩ : ∃ b, lastAt? place writes (child place a.fileName) = some b := by
        rw [← Option.isSome_iff_exists, lastAt?, List.find?_isSome]
        exact ⟨a, List.mem_reverse.mpr member, decide_eq_true rfl⟩
      refine ⟨child place a.fileName, .file b.bytes, ?_, Files.parent_child isPiece place,
        Files.getLast?_pieces_child isPiece place⟩
      rw [entries, last]
      rfl

end

/-! Steps of two processes. -/

/-- The paths that an archive is written by. -/
def pathsIn (directory : String) (a : Archive) : List String :=
  [Path.join directory a.fileName, Path.temporary (Path.join directory a.fileName)]

theorem exists_name_of_mem_pathsIn {directory path : String} (nameable : Nameable a)
    (member : path ∈ pathsIn directory a) :
    ∃ name, (name = a.fileName ∨ name = a.fileName ++ ".tmp") ∧ IsPiece name ∧
      ∀ f : Files, f.place? path = (f.directory? directory).map fun place => child place name := by
  rcases List.mem_pair.mp member with rfl | rfl
  · exact ⟨_, .inl rfl, nameable.isEntry.isPiece, fun f => place?_file nameable f directory⟩
  · exact ⟨_, .inr rfl, nameable.isEntry_temporary.isPiece,
      fun f => place?_temporary_file nameable f directory⟩

theorem mem_pathsIn_of_mem_writeSteps {directory path : String} {pieces : List Bytes}
    {step : Files.FileStep} (member : step ∈ writeSteps (Path.join directory a.fileName) pieces)
    (isPath : path ∈ step.paths) : path ∈ pathsIn directory a := by
  rcases List.mem_append.mp member with making | moving
  · have temporary : path = Path.temporary (Path.join directory a.fileName) := by
      rcases List.mem_cons.mp making with rfl | filling
      · exact List.mem_singleton.mp isPath
      · obtain ⟨piece, -, rfl⟩ := List.mem_map.mp filling
        exact List.mem_singleton.mp isPath
    rw [temporary]
    exact List.mem_cons_of_mem _ List.mem_cons_self
  · rw [List.mem_singleton.mp moving] at isPath
    rcases List.mem_pair.mp isPath with rfl | rfl
    · exact List.mem_cons_of_mem _ List.mem_cons_self
    · exact List.mem_cons_self

/-- A step of writing the archive of one process leaves the files of another one as they are. -/
theorem find?_of_step_of_other {h next : Files} {directory : String} (nameable : Nameable a)
    (alsoNameable : Nameable b) (differs : ¬ SameProcess a b) {pieces : List Bytes}
    {step : Files.FileStep} (member : step ∈ writeSteps (Path.join directory b.fileName) pieces)
    (done : h.perform step = some next) {path : String} (own : path ∈ pathsIn directory a) :
    next.find? path = h.find? path := by
  obtain ⟨same, elsewhere⟩ := Files.perform_elsewhere done
  refine same.find?_eq fun place leads => elsewhere place fun other isPath leadsTo => ?_
  obtain ⟨name, named, isPiece, placed⟩ := exists_name_of_mem_pathsIn nameable own
  obtain ⟨otherName, otherNamed, isOtherPiece, otherPlaced⟩ :=
    exists_name_of_mem_pathsIn alsoNameable (mem_pathsIn_of_mem_writeSteps member isPath)
  rw [placed, Option.map_eq_some_iff] at leads
  obtain ⟨within, isWithin, rfl⟩ := leads
  rw [otherPlaced, isWithin, Option.map_some, Option.some.injEq] at leadsTo
  obtain rfl := Files.child_injective isOtherPiece isPiece leadsTo
  rcases named with rfl | rfl
  · rcases otherNamed with files | temporary
    · exact differs (fileName_eq_iff.mp files)
    · exact fileName_ne_temporary a b temporary
  · rcases otherNamed with file | temporaries
    · exact fileName_ne_temporary b a file.symm
    · exact differs (fileName_eq_iff.mp ((String.append_left_inj _).mp temporaries))

/-- What comes of writing archives into a directory that was empty, or was not there. -/
structure Side (directory : String) (g : Files) (writes : List Archive) (after : Files) : Prop where
  place : ∀ place, after.directory? directory = some place → g.directory? directory = some place
  made : writes ≠ [] → ∃ place, after.directory? directory = some place
  entries : ∀ place, after.directory? directory = some place → ∀ other, after.nodes.get? other =
    ((lastAt? place writes other).map fun a => .file a.bytes).or (g.nodes.get? other)

theorem side_of_writeEach {directory : String} {f g : Files} {writes : List Archive}
    (named : Files.Named f) (made : f.makeDirectories directory = (true, g))
    (fresh : ∀ place, g.directory? directory = some place → g.names place = [])
    (nameable : ∀ a ∈ writes, Nameable a) :
    ∃ after,
      writeEach directory writes f =
        (writes.map fun a => .ok (Path.join directory a.fileName), after) ∧
      Side directory g writes after := by
  cases writes with
  | nil =>
      refine ⟨f, rfl, ?_, fun some => absurd rfl some, ?_⟩
      -- Where the directory was there before, making it has changed nothing.
      all_goals
        intro place leads
        have again := Files.makeDirectories_again made leads
        obtain rfl : g = f := congrArg Prod.snd (made.symm.trans again)
      · exact leads
      · exact fun _ => rfl
  | cons a writes =>
      obtain ⟨place, leads, rooted, kept, stillNamed⟩ := Files.made_of_makeDirectories made
      have again : g.makeDirectories directory = (true, g) := Files.makeDirectories_again made leads
      obtain ⟨after, wrote, same, entries⟩ := writeEach_eq made leads (rooted.named (stillNamed named))
        (fun _ => rfl) (room_of_fresh (fresh place leads)) nameable
      have first : writeEach directory (a :: writes) f = writeEach directory (a :: writes) g := by
        rw [writeEach, writeEach, writeToDirectory, writeToDirectory, made, again]
      have leadsTo : after.directory? directory = some place := (same.directory? directory).trans leads
      refine ⟨after, first.trans wrote, ?_, fun _ => ⟨place, leadsTo⟩, ?_⟩
      · intro within leadsWithin
        rw [leadsTo] at leadsWithin
        exact leadsWithin ▸ leads
      · intro within leadsWithin
        rw [leadsTo] at leadsWithin
        exact Option.some.inj leadsWithin ▸ entries

/-- Processes write their archives into one directory that was empty, in any order and any number of
times, and each finds the last one that it wrote. -/
theorem archives_side_by_side {directory : String} {f g : Files} (writes : List Archive)
    (named : Files.Named f) (made : f.makeDirectories directory = (true, g))
    (fresh : ∀ place, g.directory? directory = some place → g.names place = [])
    (short : ∀ a ∈ writes, a.Addressable) (nameable : ∀ a ∈ writes, Nameable a) :
    let written := writeEach directory writes f
    written.1 = writes.map (fun a => .ok (Path.join directory a.fileName)) ∧
    (∀ place, written.2.directory? directory = some place → (written.2.names place).Nodup ∧
      ∀ name, name ∈ written.2.names place ↔ ∃ a ∈ writes, a.fileName = name) ∧
    (∀ a ∈ writes, ∀ b ∈ writes, a.fileName = b.fileName ↔ SameProcess a b) ∧
    (∀ earlier a later, writes = earlier ++ a :: later → (∀ b ∈ later, ¬ SameProcess b a) →
      readFrom (Path.join directory a.fileName) written.2 = .ok a) ∧
    ∀ a ∈ writes, ∀ b ∈ writes, ¬ SameProcess a b → ∀ pieces,
      ∀ step ∈ writeSteps (Path.join directory b.fileName) pieces, ∀ h next : Files,
        h.perform step = some next →
        ∀ path ∈ pathsIn directory a, next.find? path = h.find? path := by
  intro written
  obtain ⟨after, wrote, side⟩ := side_of_writeEach named made fresh nameable
  obtain rfl : written.2 = after := congrArg Prod.snd wrote
  refine ⟨congrArg Prod.fst wrote, ?_, fun a _ b _ => fileName_eq_iff, ?_, ?_⟩
  · intro place leads
    exact names_of_entries (fresh place (side.place place leads)) nameable (side.entries place leads)
  · rintro earlier a later rfl last
    have isA : a ∈ earlier ++ a :: later := by simp
    obtain ⟨place, leads⟩ := side.made (List.ne_nil_of_mem isA)
    have isEntry := (nameable a isA).isEntry
    have entry := side.entries place leads (child place a.fileName)
    rw [lastAt?_of_last (fun b member => nameable b (List.mem_append_right _ member)) last] at entry
    have there : written.2.find? (Path.join directory a.fileName) = some (.file a.bytes) := by
      rw [Files.find?, place?_file (nameable a isA), leads, Option.map_some, Option.bind_eq_bind,
        Option.bind_some, Files.nodeAt?, Files.child_not_root isEntry, if_neg Bool.false_ne_true, entry,
        Path.namesDirectory_join isEntry]
      rfl
    exact readFrom_of_find? (short a isA) there
  · intro a isA b isB differs pieces step member h next done path own
    exact find?_of_step_of_other (nameable a isA) (nameable b isB) differs member done own

/-- The names of hosts hold dashes, digits and endings of files, and one archive has grown. -/
theorem archives_side_by_side_of_dashed_hosts :
    let first : Archive := ⟨1, "node-1", [], []⟩
    let grown : Archive := ⟨1, "node-1", [], [⟨"Queue", "orders", 5, []⟩]⟩
    let between : List Archive := [⟨11, "node", [], []⟩, ⟨1, "node", [], []⟩]
    let after : List Archive := [⟨1, "node-1.bin", [], []⟩]
    let writes := first :: between ++ grown :: after
    let written := writeEach "archives" writes .empty
    written.1 = writes.map (fun a => .ok (Path.join "archives" a.fileName)) ∧
    readFrom (Path.join "archives" first.fileName) written.2 = .ok grown ∧
    ∃ place, written.2.directory? "archives" = some place ∧ (written.2.names place).Nodup ∧
      ∀ name, name ∈ written.2.names place ↔ ∃ a ∈ writes, a.fileName = name := by
  intro first grown between after writes written
  let g : Files := ⟨Table.empty.insert "archives" .directory⟩
  have steps : Path.steps "archives" = ["archives"] := by decide +kernel
  have made : Files.empty.makeDirectories "archives" = (true, g) := by
    have clean : "archives".contains '\x00' = false := by cbv
    have nobody : Files.empty.nodeAt? "archives" = none := by decide
    have made : Files.empty.makeStep? "" "archives" = some (g, "archives") := by
      have child : Files.child "" "archives" = "archives" := by decide
      have isName : Files.isName "archives" = true := by cbv
      rw [Files.makeStep?, if_neg (by decide)]
      simp only [child, nobody, isName, if_true]
      rfl
    simp [Files.makeDirectories, clean, steps, Files.makeSteps, made]
  have fresh : ∀ place, g.directory? "archives" = some place → g.names place = [] := by
    have leads : g.directory? "archives" = some "archives" := by
      rw [Files.directory?, steps]
      decide
    have nobody : g.names "archives" = [] := by decide +kernel
    intro place leadsTo
    rw [leads] at leadsTo
    exact Option.some.inj leadsTo ▸ nobody
  have short : ∀ a ∈ writes, a.Addressable := by decide +kernel
  have noSlash : ∀ a ∈ writes, '/' ∉ a.host.toList := by decide
  have fits : ∀ a ∈ writes, Files.isName (a.fileName ++ ".tmp") = true := by
    rw [← List.all_eq_true]
    cbv
  have empty : Files.Named .empty := by
    intro place node there
    cases there
  have nameable : ∀ a ∈ writes, Nameable a := fun a member => ⟨noSlash a member, fits a member⟩
  obtain ⟨results, listed, -, last, -⟩ :=
    archives_side_by_side writes empty made fresh short nameable
  have reads : readFrom (Path.join "archives" grown.fileName) written.2 = .ok grown :=
    last (first :: between) grown after rfl (by decide)
  have led : written.2.directory? "archives" ≠ none := by
    intro nowhere
    rw [readFrom, Files.find?, place?_file (nameable grown (by simp [writes])), nowhere] at reads
    cases reads
  obtain ⟨place, leads⟩ := Option.ne_none_iff_exists'.mp led
  exact ⟨results, reads, place, leads, listed place leads⟩

end Archive

end Coordination
