import Coordination.Proofs.Files.Tree

/-!
A temporary file that is made next to the place of another one, filled, and moved there. The temporary name
has to stand for itself alone, and no link may lead from the other place to it.
-/

namespace Coordination

namespace Volume

open Files (FileStep isName)

variable {v w : Volume} {f : Files} {path source target place goal : String} {number : Nat}
  {content : Bytes}

/-! Volumes that a file can be replaced on. -/

/-- There is nothing, a directory, or a file that has no other name. -/
def Plain (v : Volume) (place : String) : Prop :=
  v.entryAt? place = none ∨ v.entryAt? place = some .directory ∨
    ∃ number, v.entryAt? place = some (.file number) ∧
      ∀ other, v.entryAt? other = some (.file number) → other = place

/-- The temporary name stands for itself alone, and a link at the path neither leads there nor is on its own
way. -/
structure Clear (v : Volume) (path : String) : Prop where
  plain : ∀ place, v.place? (Path.temporary path) = some place → v.Plain place
  apart : ∀ place, v.place? (Path.temporary path) = some place → v.target? path ≠ some place
  onward : ∀ place target, v.place? path = some place → v.entryAt? place = some (.link target) →
    (v.erase place).place? path = some place

theorem Plain.not_link (plain : v.Plain place) (target : String) :
    v.entryAt? place ≠ some (.link target) := by
  rcases plain with nobody | directory | ⟨number, there, -⟩ <;> simp [*]

/-- Without links every path will do. -/
theorem clear_of_shows (shows : v.Shows f) (path : String) : v.Clear path where
  plain place _ := by
    have here := shows.looks place
    generalize there : v.entryAt? place = entry, f.nodeAt? place = node at here
    cases here with
    | nothing => exact .inl there
    | directory => exact .inr (.inl there)
    | file number => exact .inr (.inr ⟨number, there, fun _ alsoThere => shows.single there alsoThere⟩)
  apart place temporary leads := by
    rw [shows.target?, Option.filter_eq_some_iff] at leads
    rw [shows.place?] at temporary
    exact Files.place_ne_of_temporary leads.1 temporary rfl
  onward place target _ link := absurd link (shows.not_link place target)

theorem sameWays_erase (notRoot : place.isEmpty = false)
    (free : (v.entryAt? place).filter Entry.leadsOn = none) : SameWays v (v.erase place) := by
  intro other
  rw [entryAt?_erase notRoot]
  split
  · rename_i same
    rw [same, free]
    rfl
  · rfl

theorem Clear.place?_erase (clear : v.Clear path) (leads : v.place? path = some place)
    (free : v.entryAt? place ≠ some .directory) : (v.erase place).place? path = some place := by
  have notRoot := not_root_of_entryAt? free
  have unled (nowhere : (v.entryAt? place).filter Entry.leadsOn = none) :
      (v.erase place).place? path = some place :=
    ((sameWays_erase notRoot nowhere).place? path).trans leads
  cases there : v.entryAt? place with
  | none => exact unled (by rw [there]; rfl)
  | some entry =>
      cases entry with
      | directory => exact absurd there free
      | file number => exact unled (by rw [there]; rfl)
      | link target => exact clear.onward place target leads there
      | special => exact unled (by rw [there]; rfl)

theorem openPlace?_eq_some (opened : v.openPlace? path = some place) :
    v.target? path = some place ∧ (Path.pieces place).all isName = true := by
  obtain ⟨_, leads, kept⟩ := Option.bind_eq_some_iff.mp opened
  split at kept
  · cases kept
    exact ⟨leads, ‹_›⟩
  · cases kept

theorem namePlace?_eq_some (named : v.namePlace? path = some place) :
    v.place? path = some place ∧ Path.namesDirectory path = false := by
  obtain ⟨_, leads, kept⟩ := Option.bind_eq_some_iff.mp named
  split at kept
  · rename_i good
    cases kept
    rw [Bool.and_eq_true, Bool.not_eq_true'] at good
    exact ⟨leads, good.1⟩
  · cases kept

theorem SameWays.openPlace? (same : SameWays v w) (path : String) :
    w.openPlace? path = v.openPlace? path := by
  rw [Volume.openPlace?, Volume.openPlace?, same.target?]

theorem SameWays.namePlace? (same : SameWays v w) (path : String) :
    w.namePlace? path = v.namePlace? path := by
  rw [Volume.namePlace?, Volume.namePlace?, same.place?]

theorem Clear.leads_of_opened (clear : v.Clear path)
    (opened : v.openPlace? (Path.temporary path) = some place) :
    v.place? (Path.temporary path) = some place ∧
      v.namePlace? (Path.temporary path) = some place := by
  obtain ⟨leads, named⟩ := openPlace?_eq_some opened
  have ofFile := (Path.steps_temporary path).1
  rw [target?_eq_place? ofFile fun last link leads => (clear.plain last leads).not_link link] at leads
  refine ⟨leads, ?_⟩
  rw [Volume.namePlace?, leads, Option.bind_eq_bind, Option.bind_some, ofFile, named]
  rfl

/-! The temporary file. -/

/-- A file with some content is made at a place, where it has its only name. -/
structure Staged (v : Volume) (place : String) (number : Nat) (content : Bytes) (w : Volume) : Prop where
  free : (v.entryAt? place).filter Entry.leadsOn = none
  entryAt? : ∀ other, w.entryAt? other =
    if other = place then some (.file number) else v.entryAt? other
  filled : w.contentOf number = content
  kept : ∀ other, other ≠ number → w.contentOf other = v.contentOf other
  alone : ∀ other, other ≠ place → v.entryAt? other ≠ some (.file number)

theorem staged_of_create (plain : v.Plain place) (opened : v.openPlace? path = some place)
    (done : v.perform (.create path) = some w) : ∃ number, Staged v place number [] w := by
  rw [perform, opened, Option.bind_eq_bind, Option.bind_some] at done
  rcases plain with nobody | directory | ⟨number, there, single⟩
  · rw [nobody] at done
    cases done
    have notRoot : place.isEmpty = false := by
      refine not_root_of_entryAt? (v := v) ?_
      simp [nobody]
    refine ⟨v.fresh, by rw [nobody]; rfl, fun other => entryAt?_setEntry notRoot _ other, ?_, ?_, ?_⟩
    · exact (contentOf_setContent v v.fresh [] v.fresh).trans (if_pos rfl)
    · exact fun other apart => (contentOf_setContent v v.fresh [] other).trans (if_neg apart)
    · exact fun other _ there => Nat.lt_irrefl _ (lt_fresh there)
  · rw [directory] at done
    cases done
  · rw [there] at done
    cases done
    refine ⟨number, by rw [there]; rfl, fun other => ?_, ?_, ?_, fun other apart alsoThere => ?_⟩
    · change v.entryAt? other = _
      split
      · rename_i same
        exact same ▸ there
      · rfl
    · rw [contentOf_setContent, if_pos rfl]
    · exact fun other apart => by rw [contentOf_setContent, if_neg apart]
    · exact apart (single other alsoThere)

section

variable (staged : Staged v place number content w)

include staged

theorem Staged.entryAt?_self : w.entryAt? place = some (.file number) := by
  rw [staged.entryAt?, if_pos rfl]

theorem Staged.notDirectory : v.entryAt? place ≠ some .directory := by
  intro directory
  have free := staged.free
  rw [directory] at free
  cases free

theorem Staged.notRoot : place.isEmpty = false := not_root_of_entryAt? staged.notDirectory

theorem Staged.sameWays : SameWays v w := by
  intro other
  rw [staged.entryAt?]
  split
  · rename_i same
    rw [same, staged.free]
    rfl
  · rfl

theorem Staged.setContent (more : Bytes) : Staged v place number more (w.setContent number more) where
  free := staged.free
  entryAt? := staged.entryAt?
  filled := by rw [contentOf_setContent, if_pos rfl]
  kept other apart := by rw [contentOf_setContent, if_neg apart, staged.kept other apart]
  alone := staged.alone

theorem Staged.perform_append (opened : v.openPlace? path = some place) (bytes : Bytes) :
    ∃ next, w.perform (.append path bytes) = some next ∧
      Staged v place number (content ++ bytes) next := by
  refine ⟨_, ?_, staged.setContent (content ++ bytes)⟩
  rw [perform, staged.sameWays.openPlace?, opened, Option.bind_eq_bind, Option.bind_some,
    staged.entryAt?_self, ← staged.filled]

theorem Staged.perform_rename (named : v.namePlace? source = some place)
    (differs : ∀ goal, v.place? target = some goal → place ≠ goal) :
    w.perform (.rename source target) = none ∨
      ∃ goal, v.namePlace? target = some goal ∧ v.entryAt? goal ≠ some .directory ∧
        w.perform (.rename source target) =
          some ((w.erase place).setEntry goal (.file number)) := by
  rw [perform, staged.sameWays.namePlace?, staged.sameWays.namePlace?, named, Option.bind_eq_bind,
    Option.bind_some]
  cases leads : v.namePlace? target with
  | none => exact .inl rfl
  | some goal =>
      have apart := differs goal (namePlace?_eq_some leads).1
      simp only [Option.bind_eq_bind, Option.bind_some, staged.entryAt?_self, staged.entryAt? goal,
        if_neg apart.symm]
      by_cases directory : v.entryAt? goal = some .directory
      · exact .inl (by simp [directory])
      · have two : areOneFile (.file number) (v.entryAt? goal) = false :=
          Bool.eq_false_iff.mpr (mt entryAt?_of_areOneFile (staged.alone goal apart.symm))
        exact .inr ⟨goal, rfl, directory, by simp [directory, apart, two]⟩

/-! Once it is moved. -/

theorem Staged.entryAt?_moved (free : v.entryAt? goal ≠ some .directory) (other : String) :
    ((w.erase place).setEntry goal (.file number)).entryAt? other =
      if other = goal then some (.file number)
      else if other = place then none else v.entryAt? other := by
  rw [entryAt?_setEntry (not_root_of_entryAt? free), entryAt?_erase staged.notRoot, staged.entryAt?]
  split
  · rfl
  · split <;> rfl

theorem Staged.sameWays_moved (free : v.entryAt? goal ≠ some .directory) :
    SameWays (v.erase goal) ((w.erase place).setEntry goal (.file number)) := by
  intro other
  rw [staged.entryAt?_moved free, entryAt?_erase (not_root_of_entryAt? free)]
  split
  · rfl
  · split
    · rename_i same
      rw [same, staged.free]
      rfl
    · rfl

/-- The path leads to the moved file, also where a link has made way for it. -/
theorem Staged.place?_moved (clear : v.Clear path) (leads : v.place? path = some goal)
    (free : v.entryAt? goal ≠ some .directory) :
    ((w.erase place).setEntry goal (.file number)).place? path = some goal :=
  ((staged.sameWays_moved free).place? path).trans (clear.place?_erase leads free)

end

theorem find?_of_entryAt? (leads : v.place? path = some place)
    (ofFile : Path.namesDirectory path = false)
    (noLink : ∀ target, v.entryAt? place ≠ some (.link target)) :
    v.find? path = (v.entryAt? place).bind v.sight? := by
  have only (last target : String) (leadsTo : v.place? path = some last) :
      v.entryAt? last ≠ some (.link target) :=
    Option.some.inj (leads.symm.trans leadsTo) ▸ noLink target
  rw [find?, target?_eq_place? ofFile only, leads]
  rfl

end Volume

end Coordination
