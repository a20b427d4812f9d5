import Coordination.Files.Volume
import Coordination.Proofs.Files.Path

/-!
Ways through a volume. They depend on its directories and links alone, and the temporary path of a file
leads besides it whatever links there are.
-/

namespace Coordination

/-- One can go on from it. -/
def Entry.leadsOn : Entry → Bool
  | .directory | .link _ => true
  | .file _ | .special => false

namespace Volume

open Files (next besides Rooted)
open Coordination.Path (IsPiece steps)

variable {v w : Volume} {path place goal : String}

/-! Entries and contents. -/

def isDirectory (v : Volume) (place : String) : Bool := v.entryAt? place == some .directory

theorem not_root_of_entryAt? (notDirectory : v.entryAt? place ≠ some .directory) :
    place.isEmpty = false := by
  cases root : place.isEmpty with
  | false => rfl
  | true => simp [entryAt?, root] at notDirectory

theorem entryAt?_setEntry (notRoot : place.isEmpty = false) (entry : Entry) (other : String) :
    (v.setEntry place entry).entryAt? other =
      if other = place then some entry else v.entryAt? other := by
  rw [entryAt?, entryAt?, setEntry]
  dsimp only
  rw [Table.get?_insert]
  by_cases same : other = place
  · subst same
    simp [notRoot]
  · simp [same]

theorem entryAt?_erase (notRoot : place.isEmpty = false) (other : String) :
    (v.erase place).entryAt? other = if other = place then none else v.entryAt? other := by
  rw [entryAt?, entryAt?, erase]
  dsimp only
  rw [Table.get?_erase]
  by_cases same : other = place
  · subst same
    simp [notRoot]
  · simp [same]

theorem contentOf_setContent (v : Volume) (number : Nat) (content : Bytes) (other : Nat) :
    (v.setContent number content).contentOf other =
      if other = number then content else v.contentOf other := by
  rw [contentOf, contentOf, setContent]
  dsimp only
  rw [Table.get?_insert]
  split <;> rfl

theorem lt_fresh {number : Nat} (there : v.entryAt? place = some (.file number)) :
    number < v.fresh := by
  have listed : number ∈ v.numbers := by
    rw [entryAt?] at there
    split at there
    · cases there
    · exact List.mem_filterMap.mpr ⟨_, (v.entries.mem_values_iff _).mpr ⟨place, there⟩, rfl⟩
  exact Nat.lt_succ_of_le (List.le_max?_getD_of_mem listed)

/-! Ways. -/

/-- The same directories and the same links. -/
def SameWays (v w : Volume) : Prop :=
  ∀ place, (w.entryAt? place).filter Entry.leadsOn = (v.entryAt? place).filter Entry.leadsOn

theorem SameWays.isDirectory (same : SameWays v w) (place : String) :
    w.isDirectory place = v.isDirectory place := by
  have there (u : Volume) : u.isDirectory place =
      ((u.entryAt? place).filter Entry.leadsOn == some .directory) := by
    rw [Volume.isDirectory]
    cases u.entryAt? place with
    | none => rfl
    | some entry => cases entry <;> rfl
  rw [there, there, same]

variable {aim : Aim} {turn turn' : String → String → List String → Option String}

theorem walkWith_cons (v : Volume) (aim : Aim)
    (turn : String → String → List String → Option String) (place step : String)
    (rest : List String) :
    v.walkWith aim turn place (step :: rest) =
      match (v.entryAt? (next place step)).filter Entry.leadsOn with
      | some .directory => v.walkWith aim turn (next place step) rest
      | some (.link target) =>
          if rest = [] ∧ aim = .name then some (next place step) else turn place target rest
      | some (.file _) | some .special | none =>
          if rest = [] ∧ aim ≠ .directory then some (next place step) else none := by
  rw [walkWith]
  cases v.entryAt? (next place step) with
  | none => rfl
  | some entry => cases entry <;> rfl

theorem SameWays.walkWith (same : SameWays v w) (aim : Aim)
    (turn : String → String → List String → Option String) (place : String)
    (steps : List String) : w.walkWith aim turn place steps = v.walkWith aim turn place steps := by
  induction steps generalizing place with
  | nil => rfl
  | cons step rest induction => rw [walkWith_cons, walkWith_cons, same, induction]

theorem SameWays.walk (same : SameWays v w) (aim : Aim) (links : Nat) (place : String)
    (steps : List String) : w.walk aim links place steps = v.walk aim links place steps := by
  induction links generalizing aim place steps with
  | zero => exact same.walkWith aim _ place steps
  | succ links induction =>
      rw [Volume.walk, Volume.walk, same.walkWith]
      simp only [induction]

theorem SameWays.place? (same : SameWays v w) (path : String) : w.place? path = v.place? path :=
  same.walk _ _ _ _

theorem SameWays.target? (same : SameWays v w) (path : String) : w.target? path = v.target? path :=
  same.walk _ _ _ _

/-! From the last directory to the last name. -/

theorem walkWith_name_concat {last : String}
    (turns : ∀ around target rest,
      turn around target (rest ++ [last]) = (turn' around target rest).map (next · last))
    (place : String) (before : List String) :
    v.walkWith .name turn place (before ++ [last]) =
      (v.walkWith .directory turn' place before).map (next · last) := by
  induction before generalizing place with
  | nil =>
      rw [List.nil_append, walkWith, walkWith, Option.map_some]
      cases v.entryAt? (next place last) with
      | none => rfl
      | some entry => cases entry <;> rfl
  | cons step before induction =>
      rw [List.cons_append, walkWith, walkWith]
      cases v.entryAt? (next place step) with
      | none => simp
      | some entry =>
          cases entry with
          | directory => exact induction _
          | link target => simp [turns]
          | file number => simp
          | special => simp

theorem walk_name_concat (v : Volume) (links : Nat) (place : String) (before : List String)
    (last : String) :
    v.walk .name links place (before ++ [last]) =
      (v.walk .directory links place before).map (next · last) := by
  induction links generalizing place before with
  | zero => exact walkWith_name_concat (fun _ _ _ => rfl) place before
  | succ links induction =>
      refine walkWith_name_concat (fun around target rest => ?_) place before
      have onward := induction (origin around target) (steps target ++ rest)
      rw [List.append_assoc] at onward
      simpa using onward

theorem walkWith_up (turns : ∀ around target rest, Rooted v.isDirectory around →
      (∀ step ∈ rest, IsPiece step) →
      turn around target (rest ++ [".."]) = (turn around target rest).map Files.parent)
    (rooted : Rooted v.isDirectory place) {before : List String}
    (arePieces : ∀ step ∈ before, IsPiece step) :
    v.walkWith .directory turn place (before ++ [".."]) =
      (v.walkWith .directory turn place before).map Files.parent := by
  induction before generalizing place with
  | nil =>
      have above := rooted.parent.isDirectory rfl
      rw [isDirectory, beq_iff_eq] at above
      simp only [List.nil_append, walkWith, next, beq_self_eq_true, if_true, above, Option.map_some]
  | cons step before induction =>
      obtain ⟨isPiece, others⟩ := List.forall_mem_cons.mp arePieces
      rw [List.cons_append, walkWith, walkWith]
      cases there : v.entryAt? (next place step) with
      | none => simp
      | some entry =>
          cases entry with
          | directory =>
              have isDirectory : v.isDirectory (next place step) = true := beq_iff_eq.mpr there
              exact induction (rooted.next isPiece isDirectory) others
          | link target => simp [turns _ _ _ rooted others]
          | file number => simp
          | special => simp

theorem walk_up (links : Nat) (rooted : Rooted v.isDirectory place) {before : List String}
    (arePieces : ∀ step ∈ before, IsPiece step) :
    v.walk .directory links place (before ++ [".."]) =
      (v.walk .directory links place before).map Files.parent := by
  induction links generalizing place before with
  | zero => exact walkWith_up (fun _ _ _ _ _ => rfl) rooted arePieces
  | succ links induction =>
      refine walkWith_up (fun around target rest rooted others => ?_) rooted arePieces
      have start : Rooted v.isDirectory (origin around target) := by
        rw [origin]
        split
        · exact .root
        · exact rooted
      have allPieces : ∀ step ∈ steps target ++ rest, IsPiece step :=
        List.forall_mem_append.mpr ⟨fun step => Path.isPiece_of_mem_steps, others⟩
      have up := induction start allPieces
      rw [List.append_assoc] at up
      simpa using up

theorem place?_temporary (v : Volume) (path : String) :
    v.place? (Path.temporary path) = (v.place? path).map (besides path) :=
  Files.leads_temporary (v.walk .directory maxLinks "") (v.walk .name maxLinks "") ⟨rfl, rfl⟩
    (v.walk_name_concat maxLinks "") (fun _ => walk_up maxLinks .root) path

/-- It is another place. -/
theorem place_ne_of_temporary (leads : v.place? path = some goal)
    (leadsTo : v.place? (Path.temporary path) = some place) : place ≠ goal := by
  rw [place?_temporary, leads, Option.map_some] at leadsTo
  rw [← Option.some.inj leadsTo]
  exact Files.besides_ne path goal

/-! A name without a link behind it. -/

theorem walkWith_target_eq
    (turns : ∀ around target rest, rest ≠ [] →
      (∀ place link, turn around target rest = some place → v.entryAt? place ≠ some (.link link)) →
      turn' around target rest = turn around target rest)
    (place : String) (steps : List String)
    (noLink : ∀ last link, v.walkWith .name turn place steps = some last →
      v.entryAt? last ≠ some (.link link)) :
    v.walkWith .target turn' place steps = v.walkWith .name turn place steps := by
  induction steps generalizing place with
  | nil => rfl
  | cons step rest induction =>
      rw [walkWith] at noLink
      rw [walkWith, walkWith]
      cases there : v.entryAt? (next place step) with
      | none => simp
      | some entry =>
          rw [there] at noLink
          cases entry with
          | directory => exact induction _ noLink
          | link target =>
              have more : rest ≠ [] := by
                rintro rfl
                exact noLink _ target rfl there
              simp only [more, false_and, if_false] at noLink ⊢
              exact turns place target rest more noLink
          | file number => simp
          | special => simp

theorem walk_target_eq (links : Nat) (place : String) (steps : List String)
    (noLink : ∀ last link, v.walk .name links place steps = some last →
      v.entryAt? last ≠ some (.link link)) :
    v.walk .target links place steps = v.walk .name links place steps := by
  induction links generalizing place steps with
  | zero => exact walkWith_target_eq (fun _ _ _ _ _ => rfl) place steps noLink
  | succ links induction =>
      refine walkWith_target_eq (fun around target rest more noLink => ?_) place steps noLink
      simp only [more, false_and, if_false] at noLink ⊢
      exact induction _ _ noLink

theorem target?_eq_place? (ofFile : Path.namesDirectory path = false)
    (noLink : ∀ last link, v.place? path = some last → v.entryAt? last ≠ some (.link link)) :
    v.target? path = v.place? path := by
  rw [target?, ofFile, if_neg Bool.false_ne_true]
  exact walk_target_eq _ _ _ noLink

end Volume

end Coordination
