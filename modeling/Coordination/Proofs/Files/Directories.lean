import Coordination.Proofs.Files.Path

/-!
Making directories, and what lies in one. A directory that has been made is there, and making it again
changes nothing.
-/

namespace Coordination.Files

open Coordination.Path (IsEntry IsPiece steps)

variable {f after : Files} {path place name : String}

/-- Place of the directory that a path leads to. -/
def directory? (f : Files) (path : String) : Option String := f.walk? "" (steps path)

theorem SameDirectories.directory? (same : SameDirectories f after) (path : String) :
    after.directory? path = f.directory? path := same.walk? "" (steps path)

theorem place?_join_of_directory? (leads : f.directory? path = some place) (isEntry : IsEntry name) :
    f.place? (Path.join path name) = some (child place name) := by
  rw [place?_join isEntry, ← directory?, leads, Option.map_some]

/-! Places of children. -/

theorem child_not_root (isEntry : IsEntry name) (place : String) : (child place name).isEmpty = false := by
  have some : name ≠ "" := by
    rintro rfl
    exact absurd isEntry.notIdle (by decide)
  rw [child]
  split
  · simpa using some
  · rw [Bool.eq_false_iff]
    intro none
    have sizes := congrArg String.length (String.isEmpty_iff.mp none)
    simp at sizes

theorem pieces_child (isPiece : IsPiece name) (place : String) :
    Path.pieces (child place name) =
      if place.isEmpty then [name] else Path.pieces place ++ [name] := by
  rw [child]
  split
  · rw [Path.pieces_of_isPiece isPiece]
  · rw [Path.pieces_append_slash, Path.pieces_of_isPiece isPiece]

theorem getLast?_pieces_child (isPiece : IsPiece name) (place : String) :
    (Path.pieces (child place name)).getLast? = some name := by
  rw [pieces_child isPiece]
  split
  · rfl
  · exact List.getLast?_concat

theorem child_injective {other : String} (isPiece : IsPiece name) (isOther : IsPiece other)
    (same : child place name = child place other) : name = other := by
  have last := getLast?_pieces_child isPiece place
  rw [same, getLast?_pieces_child isOther] at last
  exact (Option.some.inj last).symm

/-! Names. -/

/-- Everything that is there has a name. -/
def Named (f : Files) : Prop :=
  ∀ place node, f.nodes.get? place = some node → (Path.pieces place).all isName = true

theorem isName_of_append {ending : String} (named : isName (name ++ ending) = true) :
    isName name = true := by
  rw [isName, Bool.and_eq_true, decide_eq_true_eq, Bool.not_eq_true', List.contains_eq_mem,
    decide_eq_false_iff_not] at named ⊢
  obtain ⟨short, clean⟩ := named
  rw [String.utf8ByteSize_append] at short
  rw [String.toList_append, List.mem_append, not_or] at clean
  exact ⟨by omega, clean.1⟩

theorem all_isName_root : (Path.pieces "").all isName = true := by
  decide +kernel

theorem Rooted.named (rooted : Rooted f.isDirectory place) (named : Named f) :
    (Path.pieces place).all isName = true := by
  cases rooted with
  | root => exact all_isName_root
  | @child around name rooted isPiece isDirectory =>
      rw [Files.isDirectory, nodeAt?] at isDirectory
      split at isDirectory
      · rename_i root
        rw [String.isEmpty_iff.mp root]
        exact all_isName_root
      · exact named _ _ (beq_iff_eq.mp isDirectory)

theorem all_isName_child (named : (Path.pieces place).all isName = true) (isPiece : IsPiece name)
    (isName : isName name = true) : (Path.pieces (child place name)).all Files.isName = true := by
  rw [pieces_child isPiece]
  split
  · simpa using isName
  · rw [List.all_append, named]
    simpa using isName

/-- A place in a directory for a file, where there is no directory. -/
theorem filePlace?_join (leads : f.directory? path = some place)
    (named : (Path.pieces place).all isName = true) (isEntry : IsEntry name)
    (isName : isName name = true) (free : f.isDirectory (child place name) = false) :
    f.filePlace? (Path.join path name) = some (child place name) := by
  have ofFile := Path.namesDirectory_join isEntry path
  rw [filePlace?, place?_join_of_directory? leads isEntry]
  simp only [Option.bind_eq_bind, Option.bind_some, free, ofFile, Bool.or_self,
    all_isName_child named isEntry.isPiece isName, if_true]
  rfl

/-! Making directories. -/

theorem Rooted.mono (rooted : Rooted f.isDirectory place)
    (more : ∀ place, f.isDirectory place = true → after.isDirectory place = true) :
    Rooted after.isDirectory place := by
  induction rooted with
  | root => exact .root
  | child rooted isPiece isDirectory ih => exact .child ih isPiece (more _ isDirectory)

theorem isDirectory_insert (place other : String) (isDirectory : f.isDirectory other = true) :
    (⟨f.nodes.insert place .directory⟩ : Files).isDirectory other = true := by
  rw [Files.isDirectory, nodeAt?] at isDirectory ⊢
  split
  · rfl
  · rename_i notRoot
    rw [if_neg notRoot] at isDirectory
    dsimp only
    rw [Table.get?_insert]
    split
    · rfl
    · exact isDirectory

/-- Making directories leads to the last one. -/
structure Made (f : Files) (place : String) (steps : List String) (after : Files) (last : String) :
    Prop where
  leads : after.walk? place steps = some last
  rooted : Rooted after.isDirectory last
  kept : ∀ other, Rooted f.isDirectory other → Rooted after.isDirectory other
  named : Named f → Named after

theorem named_insert (named : Named f) (isName : (Path.pieces place).all Files.isName = true)
    (node : FileNode) : Named ⟨f.nodes.insert place node⟩ := by
  intro other found there
  dsimp only at there
  rw [Table.get?_insert] at there
  split at there
  · rename_i same
    rw [same]
    exact isName
  · exact named other found there

theorem makeStep?_next {step next : String} (rooted : Rooted f.isDirectory place) (isPiece : IsPiece step)
    (made : f.makeStep? place step = some (after, next)) :
    next = Files.next place step ∧ Rooted after.isDirectory next ∧
      (∀ other, Rooted f.isDirectory other → Rooted after.isDirectory other) ∧ (Named f → Named after) := by
  rw [makeStep?] at made
  rw [Files.next]
  split at made
  · rename_i up
    cases made
    rw [if_pos up]
    exact ⟨rfl, rooted.parent, fun _ => id, id⟩
  · rename_i down
    rw [if_neg down]
    dsimp only at made
    split at made
    · rename_i there
      cases made
      refine ⟨rfl, .child rooted isPiece ?_, fun _ => id, id⟩
      rw [isDirectory, there]
      rfl
    · cases made
    · rename_i nobody
      split at made
      · rename_i isName
        cases made
        have more (other : String) := isDirectory_insert (f := f) (child place step) other
        refine ⟨rfl, .child (rooted.mono more) isPiece ?_, fun other rooted => rooted.mono more, ?_⟩
        · rw [isDirectory, nodeAt?]
          split
          · rfl
          · dsimp only
            rw [Table.get?_insert, if_pos rfl]
            rfl
        · intro named
          exact named_insert named (all_isName_child (rooted.named named) isPiece isName) _
      · cases made

theorem made_of_makeSteps {steps : List String} (rooted : Rooted f.isDirectory place)
    (arePieces : ∀ step ∈ steps, IsPiece step) (done : f.makeSteps place steps = (true, after)) :
    ∃ last, Made f place steps after last := by
  induction steps generalizing f place with
  | nil =>
      cases done
      exact ⟨place, rfl, rooted, fun _ => id, id⟩
  | cons step steps ih =>
      obtain ⟨isPiece, others⟩ := List.forall_mem_cons.mp arePieces
      rw [makeSteps] at done
      split at done
      · rename_i middle next made
        obtain ⟨rfl, reached, kept, named⟩ := makeStep?_next rooted isPiece made
        obtain ⟨last, leads, rootedLast, keptLast, namedLast⟩ := ih reached others done
        refine ⟨last, ?_, rootedLast, fun other => keptLast other ∘ kept other, namedLast ∘ named⟩
        rw [walk?_cons, (keptLast _ reached).isDirectory rfl, if_pos rfl]
        exact leads
      · cases done

theorem makeSteps_of_walk? {steps : List String} {last : String}
    (leads : f.walk? place steps = some last) : f.makeSteps place steps = (true, f) := by
  induction steps generalizing place with
  | nil => rfl
  | cons step steps ih =>
      rw [walk?_cons] at leads
      split at leads
      · rename_i isDirectory
        have stays : f.makeStep? place step = some (f, Files.next place step) := by
          rw [makeStep?]
          rw [Files.next] at isDirectory ⊢
          split
          · rfl
          · rename_i down
            rw [if_neg down, Files.isDirectory, beq_iff_eq] at isDirectory
            simp only [isDirectory]
        rw [makeSteps, stays]
        exact ih leads
      · cases leads

theorem made_of_makeDirectories (done : f.makeDirectories path = (true, after)) :
    ∃ place, Made f "" (steps path) after place := by
  rw [makeDirectories] at done
  split at done
  · cases done
  · exact made_of_makeSteps .root (fun _ => Path.isPiece_of_mem_steps) done

/-- A directory that is there is left as it is. -/
theorem makeDirectories_again (done : f.makeDirectories path = (true, after)) {later : Files}
    (leads : later.directory? path = some place) : later.makeDirectories path = (true, later) := by
  rw [makeDirectories] at done ⊢
  split at done
  · cases done
  · rename_i clean
    rw [if_neg clean]
    exact makeSteps_of_walk? leads

/-! What lies in a directory. -/

theorem mem_names_iff (f : Files) (place name : String) :
    name ∈ f.names place ↔ ∃ key node, f.nodes.get? key = some node ∧ parent key = place ∧
      (Path.pieces key).getLast? = some name := by
  rw [names, List.mem_filterMap]
  constructor
  · rintro ⟨key, member, last⟩
    obtain ⟨there, within⟩ := List.mem_filter.mp member
    obtain ⟨node, found⟩ := (f.nodes.mem_keys_iff key).mp there
    exact ⟨key, node, found, beq_iff_eq.mp within, last⟩
  · rintro ⟨key, node, found, within, last⟩
    have there := (f.nodes.mem_keys_iff key).mpr ⟨node, found⟩
    exact ⟨key, List.mem_filter.mpr ⟨there, beq_iff_eq.mpr within⟩, last⟩

theorem get?_eq_none_of_names_eq_nil (nobody : f.names place = []) {key : String}
    (within : parent key = place) : f.nodes.get? key = none := by
  rw [Option.eq_none_iff_forall_ne_some]
  intro node found
  have some : Path.pieces key ≠ [] := by
    rw [Path.pieces, ne_eq, List.map_eq_nil_iff]
    exact List.splitOn_ne_nil _ _
  have member := (mem_names_iff f place _).mpr
    ⟨key, node, found, within, List.getLast?_eq_some_getLast some⟩
  rw [nobody] at member
  cases member

/-- Where the place of an entry is made of its name, no name is listed twice. -/
theorem nodup_names (determined : ∀ key node, f.nodes.get? key = some node → parent key = place →
    ∀ name, (Path.pieces key).getLast? = some name → key = child place name) :
    (f.names place).Nodup := by
  have distinct : f.nodes.keys.Nodup := f.nodes.ascending.nodup_keys
  have determines (key : String) (member : key ∈ f.nodes.keys.filter fun key => parent key == place)
      (name : String) (last : (Path.pieces key).getLast? = some name) : key = child place name := by
    obtain ⟨there, within⟩ := List.mem_filter.mp member
    obtain ⟨node, found⟩ := (f.nodes.mem_keys_iff key).mp there
    exact determined key node found (beq_iff_eq.mp within) name last
  rw [names, List.Nodup, List.pairwise_filterMap]
  refine (distinct.filter _).imp_of_mem ?_
  rintro first second isFirst isSecond differs name last other alsoLast rfl
  have same : first = second :=
    (determines first isFirst name last).trans (determines second isSecond name alsoLast).symm
  exact differs same

end Coordination.Files
