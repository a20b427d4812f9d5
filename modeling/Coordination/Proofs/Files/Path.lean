import Coordination.Proofs.Files

/-!
Paths taken apart and put together, and where the temporary path of a file leads to: to a place of its own,
next to that of the file.
-/

namespace Coordination

namespace Path

/-! Pieces. -/

/-- It has no slash in it. -/
def IsPiece (piece : String) : Prop := '/' ∉ piece.toList

instance (piece : String) : Decidable (IsPiece piece) :=
  inferInstanceAs (Decidable ('/' ∉ piece.toList))

theorem pieces_append_slash (before after : String) :
    pieces (before ++ "/" ++ after) = pieces before ++ pieces after := by
  have whole : (before ++ "/" ++ after).toList = before.toList ++ '/' :: after.toList := by
    simp [String.toList_append]
  rw [pieces, whole, List.splitOn_append_cons_self, List.map_append]
  rfl

theorem pieces_of_isPiece {name : String} (isPiece : IsPiece name) : pieces name = [name] := by
  rw [pieces, List.splitOn_eq_singleton isPiece, List.map_singleton, String.ofList_toList]

theorem ofPieces_pieces (path : String) : ofPieces (pieces path) = path := by
  apply String.toList_injective
  rw [ofPieces, String.toList_intercalate, pieces, List.map_map]
  have texts : (String.toList ∘ String.ofList) = id := funext fun l => String.toList_ofList
  rw [texts, List.map_id]
  exact List.intercalate_splitOn '/'

theorem pieces_ofPieces {names : List String} (some : names ≠ [])
    (arePieces : ∀ name ∈ names, IsPiece name) : pieces (ofPieces names) = names := by
  have apart : List.splitOn '/' (['/'].intercalate (names.map String.toList)) =
      names.map String.toList := by
    refine List.splitOn_intercalate '/' ?_ (by simpa using some)
    exact List.forall_mem_map.mpr arePieces
  rw [pieces, ofPieces, String.toList_intercalate]
  change (List.splitOn '/' (['/'].intercalate _)).map String.ofList = names
  rw [apart, List.map_map]
  have texts : (String.ofList ∘ String.toList) = id := funext fun s => String.ofList_toList
  rw [texts, List.map_id]

theorem not_mem_of_mem_splitOn {a : Char} {text part : List Char} (member : part ∈ text.splitOn a) :
    a ∉ part := by
  induction text generalizing part with
  | nil => simp_all
  | cons c text ih =>
      rw [List.splitOn_cons_eq_if_modifyHead] at member
      obtain ⟨first, others, parts⟩ := List.exists_cons_of_ne_nil (List.splitOn_ne_nil a text)
      rw [parts] at member ih
      obtain ⟨inFirst, inOthers⟩ := List.forall_mem_cons.mp fun _ => ih
      split at member
      · rcases List.mem_cons.mp member with rfl | later
        · exact List.not_mem_nil
        · exact ih later
      · rename_i differs
        rcases List.mem_cons.mp member with rfl | later
        · exact List.not_mem_cons_of_ne_of_not_mem (fun same => differs (by simp [same])) inFirst
        · exact inOthers part later

theorem isPiece_of_mem_pieces {path piece : String} (member : piece ∈ pieces path) :
    IsPiece piece := by
  obtain ⟨part, isPart, rfl⟩ := List.mem_map.mp member
  rw [IsPiece, String.toList_ofList]
  exact not_mem_of_mem_splitOn isPart

theorem steps_append_slash (before after : String) :
    steps (before ++ "/" ++ after) = steps before ++ steps after := by
  rw [steps, pieces_append_slash, List.filter_append]
  rfl

/-- A name that leads from a directory to an entry of its own. -/
structure IsEntry (name : String) : Prop where
  isPiece : IsPiece name
  notIdle : isIdle name = false
  notUp : (name == "..") = false

theorem IsEntry.steps {name : String} (isEntry : IsEntry name) : steps name = [name] := by
  rw [Path.steps, pieces_of_isPiece isEntry.isPiece, List.filter_singleton, isEntry.notIdle]
  rfl

/-- It stays one with an ending. -/
theorem IsPiece.isEntry_append {name : String} (isPiece : IsPiece name) {ending : String}
    (isEnding : IsPiece ending) (long : 2 < ending.length) : IsEntry (name ++ ending) := by
  have size : 2 < (name ++ ending).length := by
    rw [String.length_append]
    omega
  have differs (short : String) (isShort : short.length ≤ 2) : ((name ++ ending) == short) = false := by
    rw [beq_eq_false_iff_ne]
    rintro same
    rw [same] at size
    omega
  refine ⟨?_, ?_, differs ".." (by decide)⟩
  · rw [IsPiece, String.toList_append, List.mem_append]
    exact not_or.mpr ⟨isPiece, isEnding⟩
  · rw [isIdle, differs "" (by decide), differs "." (by decide)]
    rfl

theorem isEntry_tmp : IsEntry ".tmp" := ⟨by decide, by decide, by decide⟩

theorem exists_of_endsWith_slash {path : String} (ends : path.endsWith "/" = true) :
    ∃ start, path = start ++ "/" := by
  rw [← String.endsWith_toSlice, String.Slice.endsWith_string_iff] at ends
  obtain ⟨start, whole⟩ := ends
  refine ⟨String.ofList start, String.toList_injective ?_⟩
  rw [String.toList_append, String.toList_ofList, whole, String.copy_toSlice]

theorem pieces_join {name : String} (isPiece : IsPiece name) (directory : String) :
    ∃ before, pieces (join directory name) = before ++ [name] ∧
      (before.filter fun piece => !isIdle piece) = steps directory := by
  rw [join]
  split
  · rename_i bare
    rcases (Bool.or_eq_true _ _).mp bare with none | ends
    · obtain rfl := String.isEmpty_iff.mp none
      rw [String.empty_append, pieces_of_isPiece isPiece]
      exact ⟨[], rfl, rfl⟩
    · obtain ⟨start, rfl⟩ := exists_of_endsWith_slash ends
      refine ⟨pieces start, by rw [pieces_append_slash, pieces_of_isPiece isPiece], ?_⟩
      have parts := steps_append_slash start ""
      rw [String.append_empty] at parts
      rw [parts]
      exact (List.append_nil _).symm
  · exact ⟨pieces directory, by rw [pieces_append_slash, pieces_of_isPiece isPiece], rfl⟩

theorem steps_join {name : String} (isEntry : IsEntry name) (directory : String) :
    steps (join directory name) = steps directory ++ [name] := by
  obtain ⟨before, parts, kept⟩ := pieces_join isEntry.isPiece directory
  rw [steps, parts, List.filter_append, kept, List.filter_singleton, isEntry.notIdle]
  rfl

theorem namesDirectory_join {name : String} (isEntry : IsEntry name) (directory : String) :
    namesDirectory (join directory name) = false := by
  obtain ⟨before, parts, -⟩ := pieces_join isEntry.isPiece directory
  rw [namesDirectory, parts, List.getLast?_concat, Option.any_some, isEntry.notIdle]

theorem isPiece_of_mem_steps {path step : String} (member : step ∈ steps path) : IsPiece step :=
  isPiece_of_mem_pieces (List.mem_of_mem_filter member)

/-! The temporary path. -/

/-- The path ends in the name of an entry. -/
def hasFileName (path : String) : Bool := (steps path).getLast?.any (· != "..")

theorem trimmed_sublist (l : List String) : (trimmed l).Sublist l := by
  cases l with
  | nil => exact .slnil
  | cons first rest =>
      rw [trimmed]
      refine List.Sublist.cons_cons first ?_
      have kept := (List.dropWhile_sublist isIdle (l := rest.reverse)).reverse
      rwa [List.reverse_reverse] at kept

theorem filter_dropWhile_isIdle (l : List String) :
    (l.dropWhile isIdle).filter (fun piece => !isIdle piece) = l.filter fun piece => !isIdle piece := by
  induction l with
  | nil => rfl
  | cons piece l ih =>
      rw [List.dropWhile_cons, List.filter_cons]
      cases idle : isIdle piece with
      | true => exact ih
      | false => simp [idle]

theorem filter_trimmed (l : List String) :
    (trimmed l).filter (fun piece => !isIdle piece) = l.filter fun piece => !isIdle piece := by
  cases l with
  | nil => rfl
  | cons first rest =>
      rw [trimmed, List.filter_cons, List.filter_cons, List.filter_reverse, filter_dropWhile_isIdle,
        ← List.filter_reverse, List.reverse_reverse]

theorem notIdle_of_trimmed {l before : List String} {last : String}
    (parts : (trimmed l).reverse = last :: before) (more : before ≠ []) : isIdle last = false := by
  cases l with
  | nil => cases parts
  | cons first rest =>
      rw [trimmed, List.reverse_cons, List.reverse_reverse] at parts
      have head := List.head?_dropWhile_not isIdle rest.reverse
      cases kept : rest.reverse.dropWhile isIdle with
      | nil =>
          rw [kept] at parts
          cases parts
          exact absurd rfl more
      | cons _ _ =>
          rw [kept] at parts head
          cases parts
          exact head

/-- Steps of a path that is put together from the pieces of a directory and the name of an entry. -/
theorem steps_ofPieces_trimmed {around : List String} {name : String}
    (arePieces : ∀ piece ∈ around, IsPiece piece) (isEntry : IsEntry name) :
    namesDirectory (ofPieces (trimmed around ++ [name])) = false ∧
      steps (ofPieces (trimmed around ++ [name])) =
        around.filter (fun piece => !isIdle piece) ++ [name] := by
  have together : pieces (ofPieces (trimmed around ++ [name])) = trimmed around ++ [name] := by
    refine pieces_ofPieces (List.concat_ne_nil _ _) (List.forall_mem_append.mpr ⟨?_, ?_⟩)
    · exact fun piece member => arePieces piece ((trimmed_sublist _).subset member)
    · exact List.forall_mem_singleton.mpr isEntry.isPiece
  constructor
  · rw [namesDirectory, together, List.getLast?_concat, Option.any_some, isEntry.notIdle]
  · rw [steps, together, List.filter_append, filter_trimmed, List.filter_singleton, isEntry.notIdle]
    rfl

/-- It has a name of its own in the directory of the file, or lies within the directory that a path
without a file name leads to. -/
theorem steps_temporary (path : String) :
    namesDirectory (temporary path) = false ∧
    ((∃ before last, IsEntry last ∧ steps path = before ++ [last] ∧
      steps (temporary path) = before ++ [last ++ ".tmp"]) ∨
    (steps path = [] ∨ ∃ before, steps path = before ++ [".."]) ∧
      steps (temporary path) = steps path ++ [".tmp"]) := by
  have inside (l : List String) (whole : (trimmed (pieces path)).reverse = l) :
      steps path = l.reverse.filter fun piece => !isIdle piece := by
    rw [steps, ← filter_trimmed, ← whole, List.reverse_reverse]
  rw [temporary]
  split
  · rename_i none
    have nowhere : steps path = [] := inside [] none
    exact ⟨namesDirectory_join isEntry_tmp path, .inr ⟨.inl nowhere, steps_join isEntry_tmp path⟩⟩
  · rename_i last before parts
    -- Idle pieces are dropped from the end but not from the start, so that `last` is idle only by itself.
    have whole := inside _ parts
    rw [List.reverse_cons, List.filter_append] at whole
    split
    · rename_i nameless
      refine ⟨namesDirectory_join isEntry_tmp path, .inr ⟨?_, steps_join isEntry_tmp path⟩⟩
      rcases (Bool.or_eq_true _ _).mp nameless with up | bare
      · refine .inr ⟨_, whole.trans (congrArg _ ?_)⟩
        rw [beq_iff_eq.mp up]
        rfl
      · obtain ⟨none, idle⟩ := (Bool.and_eq_true _ _).mp bare
        left
        rw [whole, List.isEmpty_iff.mp none, List.filter_singleton, idle]
        rfl
    · rename_i named
      rw [Bool.or_eq_true, not_or, Bool.and_eq_true, not_and, Bool.not_eq_true] at named
      obtain ⟨notUp, notBare⟩ := named
      have notIdle : isIdle last = false := by
        cases before with
        | nil => exact Bool.eq_false_iff.mpr (notBare rfl)
        | cons _ _ => exact notIdle_of_trimmed parts (List.cons_ne_nil _ _)
      have arePieces (piece : String) (member : piece ∈ last :: before) : IsPiece piece := by
        rw [← parts, List.mem_reverse] at member
        exact isPiece_of_mem_pieces ((trimmed_sublist _).subset member)
      have isPiece := arePieces last List.mem_cons_self
      have isEntry : IsEntry (last ++ ".tmp") :=
        isPiece.isEntry_append isEntry_tmp.isPiece (by decide)
      have around (piece : String) (member : piece ∈ before.reverse) : IsPiece piece :=
        arePieces piece (List.mem_cons_of_mem _ (List.mem_reverse.mp member))
      have besides := steps_ofPieces_trimmed around isEntry
      refine ⟨besides.1, .inl ⟨_, last, ⟨isPiece, notIdle, notUp⟩, ?_, besides.2⟩⟩
      rw [whole, List.filter_singleton, notIdle]
      rfl

end Path

namespace Files

open Coordination.Path (IsEntry IsPiece steps)

variable {f : Files} {path place : String}

theorem walk?_cons (f : Files) (place step : String) (steps : List String) :
    f.walk? place (step :: steps) =
      if f.isDirectory (next place step) then f.walk? (next place step) steps else none := rfl

theorem walk?_append (f : Files) (place : String) (first second : List String) :
    f.walk? place (first ++ second) = (f.walk? place first).bind (f.walk? · second) := by
  induction first generalizing place with
  | nil => rfl
  | cons step first ih =>
      rw [List.cons_append, walk?_cons, walk?_cons]
      cases f.isDirectory (next place step) with
      | true => exact ih _
      | false => rfl

theorem next_of_entry {name : String} (isEntry : IsEntry name) (around : String) :
    next around name = child around name := by
  rw [next, isEntry.notUp]
  rfl

theorem placeOf?_concat (f : Files) (before : List String) (last : String) :
    f.placeOf? (before ++ [last]) = (f.walk? "" before).map fun around => next around last := by
  rw [placeOf?, List.reverse_append, List.reverse_singleton, List.singleton_append]
  dsimp only
  rw [List.reverse_reverse]
  cases f.walk? "" before <;> rfl

theorem place?_of_steps {before : List String} {last : String} (parts : steps path = before ++ [last])
    (f : Files) :
    f.place? path = (f.walk? "" before).map fun around => next around last := by
  rw [place?, parts, placeOf?_concat]

theorem place?_of_entry {before : List String} {name : String} (isEntry : IsEntry name)
    (parts : steps path = before ++ [name]) (f : Files) :
    f.place? path = (f.walk? "" before).map fun around => child around name := by
  simp only [place?_of_steps parts, next_of_entry isEntry]

theorem place?_join {name : String} (isEntry : IsEntry name) (f : Files) (directory : String) :
    f.place? (Path.join directory name) =
      (f.walk? "" (steps directory)).map fun around => child around name :=
  place?_of_entry isEntry (Path.steps_join isEntry directory) f

theorem child_append (around name ending : String) :
    child around (name ++ ending) = child around name ++ ending := by
  rw [child, child]
  split
  · rfl
  · simp only [String.append_assoc]

theorem parent_child {name : String} (isPiece : IsPiece name) (around : String) :
    parent (child around name) = around := by
  rw [parent, child]
  split
  · rename_i root
    rw [Path.pieces_of_isPiece isPiece, String.isEmpty_iff.mp root]
    rfl
  · rw [Path.pieces_append_slash, Path.pieces_of_isPiece isPiece, List.dropLast_concat,
      Path.ofPieces_pieces]

/-! Places that are directories, and within directories up to the root. -/

inductive Rooted (directories : String → Bool) : String → Prop
  | root : Rooted directories ""
  | child {around name : String} (rooted : Rooted directories around) (isPiece : IsPiece name)
      (there : directories (child around name) = true) : Rooted directories (child around name)

section Rooted

variable {directories : String → Bool}

theorem Rooted.isDirectory (rooted : Rooted directories place) (root : directories "" = true) :
    directories place = true := by
  cases rooted with
  | root => exact root
  | child rooted isPiece there => exact there

theorem Rooted.parent (rooted : Rooted directories place) : Rooted directories (parent place) := by
  cases rooted with
  | root => exact .root
  | child rooted isPiece there => rwa [parent_child isPiece]

theorem Rooted.next {step : String} (rooted : Rooted directories place) (isPiece : IsPiece step)
    (there : directories (next place step) = true) : Rooted directories (next place step) := by
  rw [Files.next] at there ⊢
  split
  · exact rooted.parent
  · rename_i down
    rw [if_neg down] at there
    exact .child rooted isPiece there

end Rooted

theorem Rooted.walk? {steps : List String} {last : String} (rooted : Rooted f.isDirectory place)
    (arePieces : ∀ step ∈ steps, IsPiece step) (leads : f.walk? place steps = some last) :
    Rooted f.isDirectory last := by
  induction steps generalizing place with
  | nil =>
      cases leads
      exact rooted
  | cons step steps ih =>
      obtain ⟨isPiece, others⟩ := List.forall_mem_cons.mp arePieces
      rw [walk?_cons] at leads
      cases there : f.isDirectory (Files.next place step) with
      | false => simp [there] at leads
      | true =>
          rw [there, if_pos rfl] at leads
          exact ih (rooted.next isPiece there) others leads

/-! The place of the temporary path. -/

/-- Where the temporary file of a path lies that leads to a place. -/
def besides (path place : String) : String :=
  if Path.hasFileName path then place ++ ".tmp" else child place ".tmp"

theorem besides_ne (path place : String) : besides path place ≠ place := by
  intro same
  have sizes := congrArg String.length same
  have long : ".tmp".length = 4 := by decide
  rw [besides] at sizes
  split at sizes
  · rw [String.length_append] at sizes
    omega
  · rw [child] at sizes
    split at sizes
    · rename_i root
      rw [String.isEmpty_iff.mp root] at sizes
      exact absurd sizes (by decide)
    · rw [String.length_append, String.length_append] at sizes
      omega

/-- However one goes through directories: the temporary path leads to the place besides that of the path, if
a path leads from its last directory to where its last step does, and up from a directory is where it
lies. -/
theorem leads_temporary (directory? leads? : List String → Option String)
    (root : directory? [] = some "" ∧ leads? [] = some "")
    (onward : ∀ before last,
      leads? (before ++ [last]) = (directory? before).map fun around => next around last)
    (upward : ∀ before, (∀ step ∈ before, IsPiece step) →
      directory? (before ++ [".."]) = (directory? before).map parent) (path : String) :
    leads? (steps (Path.temporary path)) = (leads? (steps path)).map (besides path) := by
  have entry {name : String} (isEntry : IsEntry name) (before : List String) :
      leads? (before ++ [name]) = (directory? before).map fun around => child around name := by
    simp only [onward, next_of_entry isEntry]
  obtain ⟨-, ⟨before, last, isEntry, parts, whole⟩ | ⟨nameless, whole⟩⟩ := Path.steps_temporary path
  · have ending : IsEntry (last ++ ".tmp") :=
      isEntry.isPiece.isEntry_append Path.isEntry_tmp.isPiece (by decide)
    have named : Path.hasFileName path = true := by
      rw [Path.hasFileName, parts, List.getLast?_concat, Option.any_some, bne, isEntry.notUp]
      rfl
    rw [whole, parts, entry ending, entry isEntry, Option.map_map]
    simp only [Function.comp_def, besides, named, if_true, child_append]
  · rw [whole, entry Path.isEntry_tmp]
    rcases nameless with none | ⟨before, up⟩
    · have unnamed : Path.hasFileName path = false := by
        rw [Path.hasFileName, none]
        rfl
      rw [none, root.1, root.2]
      simp only [Option.map_some, besides, unnamed, Bool.false_eq_true, if_false]
    · have arePieces (step : String) (member : step ∈ before) : IsPiece step :=
        Path.isPiece_of_mem_steps (up ▸ List.mem_append_left _ member)
      have unnamed : Path.hasFileName path = false := by
        rw [Path.hasFileName, up, List.getLast?_concat]
        rfl
      rw [up, upward before arePieces, onward, Option.map_map, Option.map_map]
      simp only [Function.comp_def, besides, unnamed, Bool.false_eq_true, if_false, next,
        beq_self_eq_true, if_true]

theorem walk?_up {before : List String} (arePieces : ∀ step ∈ before, IsPiece step) (f : Files) :
    f.walk? "" (before ++ [".."]) = (f.walk? "" before).map parent := by
  rw [walk?_append]
  cases leads : f.walk? "" before with
  | none => rfl
  | some around =>
      have above := (Rooted.root.walk? arePieces leads).parent.isDirectory rfl
      simp only [Option.bind_some, Option.map_some, walk?, next, beq_self_eq_true, if_true, above]

theorem place?_temporary (f : Files) (path : String) :
    f.place? (Path.temporary path) = (f.place? path).map (besides path) := by
  rw [place?, place?]
  exact leads_temporary (f.walk? "") f.placeOf? ⟨rfl, rfl⟩ (placeOf?_concat f)
    (fun before arePieces => walk?_up arePieces f) path

/-- It is another place. -/
theorem place_ne_of_temporary {within : String} (leads : f.place? path = some within)
    (leadsTo : f.place? (Path.temporary path) = some place) : place ≠ within := by
  rw [place?_temporary, leads, Option.map_some] at leadsTo
  rw [← Option.some.inj leadsTo]
  exact besides_ne path within

end Files

end Coordination
