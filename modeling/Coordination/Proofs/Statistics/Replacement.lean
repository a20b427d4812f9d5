import Coordination.Proofs.Files.Staging
import Coordination.Proofs.Statistics.Archive
import Coordination.Statistics.Archive.Attempt

/-!
An archive that is written takes the place of the former one at once, whatever fails on the way. Up to the
last step nothing but the temporary file is touched, and the last step is done or it is not. Links that
come between the path and the temporary name lead it astray.
-/

namespace Coordination.Archive

open Files (FileStep Fate)
open Volume (Staged)

variable {v w : Volume} {path place : String} {number : Nat} {content whole left : Bytes}
  {written : List Bytes} {t : Attempt}

/-- What an attempt to write at a path comes to. -/
inductive Stands (v : Volume) (path : String) (whole : Bytes) : Attempt → Prop
  | untouched {done : List FileStep} {ending : Ending}
      (unmoved : .rename (Path.temporary path) path ∉ done) (unfinished : ending ≠ .finished) :
      Stands v path whole ⟨v, done, ending⟩
  | begun {place : String} {number : Nat} {content : Bytes} {w : Volume} {done : List FileStep}
      {ending : Ending} (leads : v.place? (Path.temporary path) = some place)
      (staged : Staged v place number content w)
      (unmoved : .rename (Path.temporary path) path ∉ done) (unfinished : ending ≠ .finished) :
      Stands v path whole ⟨w, done, ending⟩
  | moved {place goal : String} {number : Nat} {w : Volume} {done : List FileStep} {ending : Ending}
      (leads : v.place? (Path.temporary path) = some place) (isGoal : v.namePlace? path = some goal)
      (free : v.entryAt? goal ≠ some .directory) (staged : Staged v place number whole w)
      (last : .rename (Path.temporary path) path ∈ done) (unfailed : ∀ flaw, ending ≠ .failed flaw) :
      Stands v path whole ⟨(w.erase place).setEntry goal (.file number), done, ending⟩

theorem Stands.cons {step : FileStep} (stands : Stands v path whole t)
    (another : step ≠ .rename (Path.temporary path) path) :
    Stands v path whole { t with done := step :: t.done } := by
  have still {done : List FileStep} (unmoved : .rename (Path.temporary path) path ∉ done) :
      .rename (Path.temporary path) path ∉ step :: done :=
    List.not_mem_cons_of_ne_of_not_mem another.symm unmoved
  cases stands with
  | untouched unmoved unfinished => exact .untouched (still unmoved) unfinished
  | begun leads staged unmoved unfinished => exact .begun leads staged (still unmoved) unfinished
  | moved leads isGoal free staged last unfailed =>
      exact .moved leads isGoal free staged (List.mem_cons_of_mem _ last) unfailed

/-! The steps, from the last one back to the first. -/

theorem stands_rename (leads : v.place? (Path.temporary path) = some place)
    (named : v.namePlace? (Path.temporary path) = some place) (staged : Staged v place number whole w)
    (fates : Nat → Fate) (flaw : WriteFlaw) :
    Stands v path whole
      (attemptSteps w fates [(.rename (Path.temporary path) path, flaw)]) := by
  rw [attemptSteps]
  split
  · exact .begun leads staged List.not_mem_nil nofun
  · exact .begun leads staged List.not_mem_nil nofun
  · rcases staged.perform_rename named fun goal leadsTo => Volume.place_ne_of_temporary leadsTo leads with
      stuck | ⟨goal, isGoal, free, moved⟩
    · rw [stuck]
      exact .begun leads staged List.not_mem_nil nofun
    · rw [moved]
      dsimp only
      rw [attemptSteps]
      split <;> exact .moved leads isGoal free staged List.mem_cons_self nofun

theorem stands_append {steps : List (FileStep × WriteFlaw)} {piece : Bytes}
    (leads : v.place? (Path.temporary path) = some place)
    (opened : v.openPlace? (Path.temporary path) = some place)
    (staged : Staged v place number content w)
    (onward : ∀ next fates, Staged v place number (content ++ piece) next →
      Stands v path whole (attemptSteps next fates steps)) (fates : Nat → Fate) (flaw : WriteFlaw) :
    Stands v path whole
      (attemptSteps w fates ((.append (Path.temporary path) piece, flaw) :: steps)) := by
  have stopped (count : Nat) {ending : Ending} (unfinished : ending ≠ .finished) :
      Stands v path whole
        ⟨w.partly count (.append (Path.temporary path) piece), [], ending⟩ := by
    obtain ⟨next, appended, grown⟩ := staged.perform_append opened (piece.take count)
    rw [Volume.partly, appended]
    exact .begun leads grown List.not_mem_nil unfinished
  rw [attemptSteps]
  split
  · exact stopped _ nofun
  · exact stopped _ nofun
  · obtain ⟨next, appended, grown⟩ := staged.perform_append opened piece
    rw [appended]
    exact (onward next _ grown).cons nofun

theorem stands_appends (leads : v.place? (Path.temporary path) = some place)
    (opened : v.openPlace? (Path.temporary path) = some place)
    (named : v.namePlace? (Path.temporary path) = some place)
    (staged : Staged v place number content w) (fates : Nat → Fate) :
    Stands v path (content ++ (written.flatten ++ left))
      (attemptSteps w fates (reportedSteps path written left).tail) := by
  induction written generalizing content w fates with
  | nil =>
      refine stands_append leads opened staged (fun next fates grown => ?_) fates _
      exact stands_rename leads named grown fates _
  | cons piece written induction =>
      rw [List.flatten_cons, List.append_assoc, ← List.append_assoc]
      exact stands_append leads opened staged (fun next fates grown => induction grown fates) fates _

theorem attempt_stands (clear : v.Clear path) (written : List Bytes) (left : Bytes)
    (fates : Nat → Fate) :
    Stands v path (written.flatten ++ left) (attempt path written left fates v) := by
  have steps : reportedSteps path written left =
      (.create (Path.temporary path), .notCreated (Path.temporary path)) ::
        (reportedSteps path written left).tail := rfl
  rw [attempt, steps, attemptSteps]
  split
  · exact .untouched List.not_mem_nil nofun
  · exact .untouched List.not_mem_nil nofun
  · cases created : v.perform (.create (Path.temporary path)) with
    | none => exact .untouched List.not_mem_nil nofun
    | some next =>
        obtain ⟨place, opened, -⟩ := Option.bind_eq_some_iff.mp created
        obtain ⟨leads, named⟩ := clear.leads_of_opened opened
        obtain ⟨number, staged⟩ := Volume.staged_of_create (clear.plain place leads) opened created
        exact (stands_appends leads opened named staged _).cons nofun

/-! What a reader finds. -/

theorem Stands.find?_of_moved (stands : Stands v path whole t) (clear : v.Clear path)
    (last : .rename (Path.temporary path) path ∈ t.done) :
    t.volume.find? path = some (.file whole) := by
  cases stands with
  | untouched unmoved unfinished => exact absurd last unmoved
  | begun leads staged unmoved unfinished => exact absurd last unmoved
  | @moved place goal number w _ _ leads isGoal free staged last unfailed =>
      obtain ⟨leadsTo, ofFile⟩ := Volume.namePlace?_eq_some isGoal
      have stillLeads := staged.place?_moved clear leadsTo free
      have there := staged.entryAt?_moved free goal
      rw [if_pos rfl] at there
      rw [Volume.find?_of_entryAt? stillLeads ofFile (by simp [there]), there]
      exact congrArg (fun content => some (Volume.Sight.file content)) staged.filled

theorem Stands.find?_of_not_moved (stands : Stands v path whole t) (clear : v.Clear path)
    (unmoved : .rename (Path.temporary path) path ∉ t.done) : t.volume.find? path = v.find? path := by
  cases stands with
  | untouched unmoved unfinished => rfl
  | @begun place number content w _ _ leads staged unmoved unfinished =>
      rw [Volume.find?, Volume.find?, staged.sameWays.target?]
      cases leadsTo : v.target? path with
      | none => rfl
      | some last =>
          have differs : last ≠ place := by
            rintro rfl
            exact clear.apart last leads leadsTo
          rw [Option.bind_eq_bind, Option.bind_some, Option.bind_eq_bind, Option.bind_some,
            staged.entryAt?, if_neg differs]
          cases there : v.entryAt? last with
          | none => rfl
          | some entry =>
              cases entry with
              | directory | link target | special => rfl
              | file another =>
                  have apart : another ≠ number := by
                    rintro rfl
                    exact staged.alone last differs there
                  have same := staged.kept another apart
                  exact congrArg (fun content => some (Volume.Sight.file content)) same
  | moved leads isGoal free staged last unfailed => exact absurd last unmoved

theorem Stands.finished (stands : Stands v path whole t) (clear : v.Clear path)
    (finished : t.ending = .finished) :
    .rename (Path.temporary path) path ∈ t.done ∧
      t.volume.find? (Path.temporary path) = none ∧
      ∀ place, v.place? (Path.temporary path) = some place → t.volume.entryAt? place = none := by
  cases stands with
  | untouched unmoved unfinished | begun leads staged unmoved unfinished => exact absurd finished unfinished
  | @moved place goal number w _ _ leads isGoal free staged last unfailed =>
      obtain ⟨leadsTo, ofFile⟩ := Volume.namePlace?_eq_some isGoal
      have stillLeads := staged.place?_moved clear leadsTo free
      have alsoLeads : ((w.erase place).setEntry goal (.file number)).place? (Path.temporary path) =
          some place := by
        rw [Volume.place?_temporary, stillLeads, ← leadsTo, ← Volume.place?_temporary, leads]
      have gone := staged.entryAt?_moved free place
      rw [if_neg (Volume.place_ne_of_temporary leadsTo leads), if_pos rfl] at gone
      refine ⟨last, ?_, fun other leadsToOther => ?_⟩
      · rw [Volume.find?_of_entryAt? alsoLeads (Path.steps_temporary path).1 (by simp [gone]), gone]
        rfl
      · exact Option.some.inj (leads.symm.trans leadsToOther) ▸ gone

theorem Stands.failed {flaw : WriteFlaw} (stands : Stands v path whole t)
    (failed : t.ending = .failed flaw) : .rename (Path.temporary path) path ∉ t.done := by
  cases stands with
  | untouched unmoved unfinished | begun leads staged unmoved unfinished => exact unmoved
  | moved leads isGoal free staged last unfailed => exact absurd failed (unfailed flaw)

/-! What stays. -/

theorem Stands.elsewhere (stands : Stands v path whole t)
    (apart : v.place? (Path.temporary path) ≠ some place)
    (alsoApart : .rename (Path.temporary path) path ∈ t.done → v.place? path ≠ some place) :
    t.volume.entryAt? place = v.entryAt? place ∧
      ∀ number, v.entryAt? place = some (.file number) →
        t.volume.contentOf number = v.contentOf number := by
  cases stands with
  | untouched unmoved unfinished => exact ⟨rfl, fun _ _ => rfl⟩
  | @begun temporary number content w _ _ leads staged unmoved unfinished =>
      have differs : place ≠ temporary := fun same => apart (same ▸ leads)
      refine ⟨by rw [staged.entryAt?, if_neg differs], fun another there => staged.kept another ?_⟩
      rintro rfl
      exact staged.alone place differs there
  | @moved temporary goal number w _ _ leads isGoal free staged last unfailed =>
      have differs : place ≠ temporary := fun same => apart (same ▸ leads)
      have notGoal : place ≠ goal := fun same =>
        alsoApart last (same ▸ (Volume.namePlace?_eq_some isGoal).1)
      have same := staged.entryAt?_moved free place
      rw [if_neg notGoal, if_neg differs] at same
      refine ⟨same, fun another there => staged.kept another ?_⟩
      rintro rfl
      exact staged.alone place differs there

theorem Stands.isDirectory (stands : Stands v path whole t) (place : String) :
    t.volume.isDirectory place = v.isDirectory place := by
  cases stands with
  | untouched unmoved unfinished => rfl
  | begun leads staged unmoved unfinished => exact staged.sameWays.isDirectory place
  | @moved temporary goal _ _ _ _ leads isGoal free staged last unfailed =>
      rw [(staged.sameWays_moved free).isDirectory, Volume.isDirectory, Volume.isDirectory,
        Volume.entryAt?_erase (Volume.not_root_of_entryAt? free)]
      split
      · rename_i same
        rw [same]
        exact (beq_eq_false_iff_ne.mpr free).symm
      · rfl

/-! An attempt that nothing stops, where there are no links. -/

section

variable {f : Files}

theorem map_reportedSteps (path : String) (written : List Bytes) (left : Bytes) :
    (reportedSteps path written left).map (·.1) =
      writeSteps path (written ++ [left]) := by
  simp [reportedSteps, writeSteps, Function.comp_def]

theorem attemptSteps_undisturbed (shows : v.Shows f) (steps : List (FileStep × WriteFlaw)) :
    ∃ after stuck,
      f.performAll (steps.map (·.1)) = (after, stuck) ∧
      (attemptSteps v (fun _ => .done) steps).volume.Shows after ∧
      (stuck = none ∧ (attemptSteps v (fun _ => .done) steps).ending = .finished ∨
        ∃ step flaw, stuck = some step ∧ (step, flaw) ∈ steps ∧
          (attemptSteps v (fun _ => .done) steps).ending = .failed flaw) := by
  induction steps generalizing v f with
  | nil => exact ⟨f, none, rfl, shows, .inl ⟨rfl, rfl⟩⟩
  | cons first steps induction =>
      obtain ⟨step, flaw⟩ := first
      have alike := Volume.perform_shows shows step
      rw [List.map_cons, Files.performAll, attemptSteps]
      generalize v.perform step = ahead, f.perform step = alsoAhead at alike
      cases alike with
      | none => exact ⟨f, some step, rfl, shows, .inr ⟨step, flaw, rfl, List.mem_cons_self, rfl⟩⟩
      | some nextShows =>
          obtain ⟨after, stuck, performed, afterShows, rest⟩ := induction nextShows
          refine ⟨after, stuck, performed, afterShows, rest.imp_right ?_⟩
          rintro ⟨last, reported, same, member, failed⟩
          exact ⟨last, reported, same, List.mem_cons_of_mem _ member, failed⟩

theorem attempt_undisturbed {a : Archive} (shows : v.Shows f)
    (whole : written.flatten ++ left = a.bytes) (path : String) :
    let t := attempt path written left (fun _ => .done) v
    ∃ result after, a.writeTo path f = (result, after) ∧ t.ending = .ofResult result ∧
      t.volume.Shows after := by
  have all : (written ++ [left]).flatten = a.bytes := by simpa using whole
  have same : f.performAll ((reportedSteps path written left).map (·.1)) =
      f.performAll (writeSteps path (pieces a.bytes)) := by
    rw [map_reportedSteps, performAll_writeSteps, performAll_writeSteps, all, flatten_pieces]
  obtain ⟨after, stuck, performed, afterShows, ends⟩ :=
    attemptSteps_undisturbed shows (reportedSteps path written left)
  have wrote := same.symm.trans performed
  rw [← attempt] at afterShows ends
  dsimp only
  rw [writeTo, wrote]
  obtain ⟨rfl, finished⟩ | ⟨step, flaw, rfl, member, failed⟩ := ends
  · exact ⟨.ok (), after, rfl, finished, afterShows⟩
  · refine ⟨_, after, rfl, failed.trans (congrArg Ending.failed ?_), afterShows⟩
    rcases eq_of_stuck wrote with rfl | rfl <;> simpa [reportedSteps, WriteFlaw.ofStep] using member

theorem readOn_of_shows (shows : v.Shows f) (path : String) : readOn path v = readFrom path f := by
  rw [readOn, readFrom, shows.find?]
  cases f.find? path with
  | none => rfl
  | some node => cases node <;> rfl

end

theorem readOn_of_find? {a : Archive} (short : a.Addressable)
    (there : v.find? path = some (.file a.bytes)) : readOn path v = .ok a := by
  rw [readOn, there]
  exact ofContent_bytes short path

/-- Whatever fails on the way, and wherever the process dies: a reader finds the former file or the whole new
archive, the latter just when the last step was done. -/
theorem replaced_at_once (a : Archive) (short : a.Addressable) (path : String) (written : List Bytes)
    (left : Bytes) (whole : written.flatten ++ left = a.bytes) (fates : Nat → Fate) (v : Volume)
    (clear : v.Clear path) :
    let t := attempt path written left fates v
    let temporary := Path.temporary path
    let moved := FileStep.rename temporary path ∈ t.done
    (moved → t.volume.find? path = some (.file a.bytes) ∧ readOn path t.volume = .ok a) ∧
    (¬ moved → t.volume.find? path = v.find? path ∧ readOn path t.volume = readOn path v) ∧
    (t.ending = .finished →
      moved ∧ readOn path t.volume = .ok a ∧ t.volume.find? temporary = none ∧
        ∀ place, v.place? temporary = some place → t.volume.entryAt? place = none) ∧
    (∀ flaw, t.ending = .failed flaw → ¬ moved ∧ t.volume.find? path = v.find? path) ∧
    (∀ place, t.volume.isDirectory place = v.isDirectory place) ∧
    (∀ place, v.place? temporary ≠ some place → (moved → v.place? path ≠ some place) →
      t.volume.entryAt? place = v.entryAt? place ∧
        ∀ number, v.entryAt? place = some (.file number) →
          t.volume.contentOf number = v.contentOf number) ∧
    (v.place? temporary = (v.place? path).map fun place =>
      if Path.hasFileName path then place ++ ".tmp" else Files.child place ".tmp") ∧
    ((∀ index, fates index = .done) → ∀ f, v.Shows f →
      ∃ result after, a.writeTo path f = (result, after) ∧ t.ending = .ofResult result ∧
        t.volume.Shows after ∧ readOn path t.volume = readFrom path after) := by
  intro t temporary moved
  have stands : Stands v path a.bytes t := whole ▸ attempt_stands clear written left fates
  refine ⟨fun last => ?_, fun unmoved => ?_, fun finished => ?_, fun flaw failed => ?_,
    stands.isDirectory, fun place => stands.elsewhere, Volume.place?_temporary v path,
    fun undisturbed f shows => ?_⟩
  · have there := stands.find?_of_moved clear last
    exact ⟨there, readOn_of_find? short there⟩
  · have same := stands.find?_of_not_moved clear unmoved
    exact ⟨same, by rw [readOn, readOn, same]⟩
  · obtain ⟨last, unseen, gone⟩ := stands.finished clear finished
    exact ⟨last, readOn_of_find? short (stands.find?_of_moved clear last), unseen, gone⟩
  · have unmoved := stands.failed failed
    exact ⟨unmoved, stands.find?_of_not_moved clear unmoved⟩
  · obtain rfl : fates = fun _ => .done := funext undisturbed
    obtain ⟨result, after, wrote, ending, afterShows⟩ := attempt_undisturbed shows whole path
    exact ⟨result, after, wrote, ending, afterShows, readOn_of_shows afterShows path⟩

/-- The path is a link to a former archive, a temporary file was left behind, and the process may die in the
last append. -/
theorem replaced_at_once_over_leftover :
    let a : Archive := ⟨1, "node", [], []⟩
    let former := (Volume.empty.setEntry "o" (.file 1)).setContent 1 [7]
    let v := (former.setEntry "n.bin" (.link "o")).setEntry "n.bin.tmp" (.file 2)
    let through := attempt "n.bin" [a.bytes.take 5] (a.bytes.drop 5) (fun _ => .done) v
    let torn := attempt "n.bin" [a.bytes.take 5] (a.bytes.drop 5)
      (fun index => if index = 2 then .cut 3 else .done) v
    a.Addressable ∧ [a.bytes.take 5].flatten ++ a.bytes.drop 5 = a.bytes ∧ v.Clear "n.bin" ∧
    (through.ending = .finished ∧ readOn "n.bin" through.volume = .ok a ∧
      through.volume.find? "n.bin.tmp" = none ∧ through.volume.find? "o" = some (.file [7])) ∧
    torn.ending = .died ∧ torn.volume.find? "n.bin" = some (.file [7]) := by
  intro a former v through torn
  have short : a.Addressable := by decide +kernel
  have whole : [a.bytes.take 5].flatten ++ a.bytes.drop 5 = a.bytes := by simp
  have leads : v.place? (Path.temporary "n.bin") = some "n.bin.tmp" := by decide +kernel
  have single (other : String) (there : v.entryAt? other = some (.file 2)) : other = "n.bin.tmp" := by
    rw [Volume.entryAt?_setEntry rfl] at there
    split at there
    · assumption
    · rw [Volume.entryAt?_setEntry rfl] at there
      split at there
      · cases there
      · change (Volume.empty.setEntry "o" (.file 1)).entryAt? other = _ at there
        rw [Volume.entryAt?_setEntry rfl] at there
        split at there
        · cases there
        · rw [Volume.entryAt?] at there
          split at there <;> cases there
  have clear : v.Clear "n.bin" := by
    refine ⟨fun place leadsTo => ?_, fun place leadsTo ends => ?_, fun place target leadsTo _ => ?_⟩
    · rw [← Option.some.inj (leads.symm.trans leadsTo)]
      exact .inr (.inr ⟨2, by decide, single⟩)
    · have past : v.target? "n.bin" = some "o" := by decide +kernel
      rw [← Option.some.inj (leads.symm.trans leadsTo), past] at ends
      exact absurd ends (by decide)
    · have here : v.place? "n.bin" = some "n.bin" := by decide +kernel
      rw [← Option.some.inj (here.symm.trans leadsTo)]
      decide +kernel
  obtain ⟨-, -, finishes, -⟩ :=
    replaced_at_once a short "n.bin" _ _ whole (fun _ => .done) v clear
  have finished : through.ending = .finished := by decide +kernel
  obtain ⟨last, reads, gone, -⟩ := finishes finished
  obtain ⟨-, unmoved, -⟩ := replaced_at_once a short "n.bin" _ _ whole
    (fun index => if index = 2 then .cut 3 else .done) v clear
  have stops : .rename (Path.temporary "n.bin") "n.bin" ∉ torn.done := by decide +kernel
  have formerly : v.find? "n.bin" = some (.file [7]) := by decide +kernel
  have temporary : Path.temporary "n.bin" = "n.bin.tmp" := by decide +kernel
  refine ⟨short, whole, clear, ⟨finished, reads, temporary ▸ gone, by decide +kernel⟩, ?_, ?_⟩
  · decide +kernel
  · exact (unmoved stops).1.trans formerly

/-- Links between the path and the temporary name lead the bytes astray: into a third file, into the file that
is to be replaced, or to where nobody reads them. Without a file name the temporary file is one within. -/
theorem misled_by_links :
    let a : Archive := ⟨1, "node", [], []⟩
    let write := fun path v => attempt path [] a.bytes (fun _ => .done) v
    let die := fun path v => attempt path [] a.bytes (fun index => if index = 1 then .cut 0 else .done) v
    let former := (Volume.empty.setEntry "n" (.file 1)).setContent 1 [7]
    -- The temporary name is a link to another file or to the path, a second name of the file at the path, or
    -- that of a device.
    let aside := (former.setEntry "o" (.file 2)).setEntry "n.tmp" (.link "o")
    let back := former.setEntry "n.tmp" (.link "n")
    let second := former.setEntry "n.tmp" (.file 1)
    let device := former.setEntry "n.tmp" .special
    -- The path is a link to the temporary name, or one that is passed on the way to it.
    let ahead := (former.setEntry "n.tmp" (.file 1)).setEntry "n" (.link "n.tmp")
    let directory := (Volume.empty.setEntry "d" .directory).setEntry "d/y" .directory
    let around := (directory.setEntry "d/x" (.link "y")).setEntry "l" (.link "d/x/..")
    ((write "n" aside).ending = .finished ∧ aside.find? "o" = some (.file []) ∧
      (write "n" aside).volume.find? "o" = some (.file a.bytes)) ∧
    ((write "n" back).ending = .finished ∧
      readOn "n" (write "n" back).volume = .error (.notOpened "n")) ∧
    ((write "n" second).ending = .finished ∧
      (write "n" second).volume.find? "n.tmp" = some (.file a.bytes)) ∧
    ((die "n" second).done = [.create "n.tmp"] ∧ second.find? "n" = some (.file [7]) ∧
      (die "n" second).volume.find? "n" = some (.file [])) ∧
    ((write "n" device).ending = .finished ∧
      readOn "n" (write "n" device).volume = .error (.notDecoded "n")) ∧
    ((die "n" ahead).done = [.create "n.tmp"] ∧ ahead.find? "n" = some (.file [7]) ∧
      (die "n" ahead).volume.find? "n" = some (.file [])) ∧
    ((write "l/x" around).ending = .finished ∧
      readOn "l/x" (write "l/x" around).volume = .error (.notOpened "l/x")) ∧
    ((write "d/.." directory).ending = .failed (.notMoved "d/..") ∧
      directory.find? ".tmp" = none ∧
      (write "d/.." directory).volume.find? ".tmp" = some (.file a.bytes)) := by
  decide +kernel

end Coordination.Archive
