import Coordination.Proofs.Files
import Coordination.Statistics.Archive.File
import Mathlib

/-!
The binary form of archives is told from what follows it, and nothing is read from a part of it. A reader
that has this of its pieces has it of the whole.
-/

namespace Coordination

/-! Texts and lists whose length fits 64 bits, as the length of all that is in memory does. -/

def AddressableText (s : String) : Prop := (Bytes.ofString s).length < 2 ^ 64

def AddressableList {α : Type} (Addressable : α → Prop) (items : List α) : Prop :=
  items.length < 2 ^ 64 ∧ ∀ a ∈ items, Addressable a

def MetricKind.Addressable : MetricKind → Prop
  | .derived numerator denominator => AddressableText numerator ∧ AddressableText denominator
  | _ => True

def Metric.Addressable (m : Metric) : Prop :=
  AddressableText m.name ∧ AddressableText m.unit ∧ m.kind.Addressable

def StatisticsType.Addressable (t : StatisticsType) : Prop :=
  AddressableText t.name ∧ AddressableList Metric.Addressable t.metrics

def Sample.Addressable (s : Sample) : Prop :=
  AddressableText s.typeName ∧ AddressableText s.instanceName ∧ s.values.length < 2 ^ 64

def Archive.Addressable (a : Archive) : Prop :=
  AddressableText a.host ∧ AddressableList StatisticsType.Addressable a.types ∧
    AddressableList Sample.Addressable a.samples

section

variable {α : Type} (Addressable : α → Prop) [DecidablePred Addressable]

instance : DecidablePred AddressableText := fun _ => inferInstanceAs (Decidable (_ < _))

instance : DecidablePred (AddressableList Addressable) := fun _ => inferInstanceAs (Decidable (_ ∧ _))

instance : DecidablePred MetricKind.Addressable
  | .derived .. => inferInstanceAs (Decidable (_ ∧ _))
  | .intCounter | .longCounter | .gauge => .isTrue trivial

instance : DecidablePred Metric.Addressable := fun _ => inferInstanceAs (Decidable (_ ∧ _))

instance : DecidablePred StatisticsType.Addressable := fun _ => inferInstanceAs (Decidable (_ ∧ _))

instance : DecidablePred Sample.Addressable := fun _ => inferInstanceAs (Decidable (_ ∧ _))

instance : DecidablePred Archive.Addressable := fun _ => inferInstanceAs (Decidable (_ ∧ _))

end

namespace Archive

namespace BinaryReader

variable {α β : Type}

/-- The reader takes `written` off the front of any bytes, and fails where a part of it is missing. -/
structure Reads (reader : BinaryReader α) (written : Bytes) (a : α) : Prop where
  whole : ∀ rest, reader.run (written ++ rest) = some (a, rest)
  cut : ∀ start missing, written = start ++ missing → missing ≠ [] → reader.run start = none

theorem Reads.pure (a : α) : Reads (Pure.pure a) [] a where
  whole _ := rfl
  cut _ _ whole strict := absurd (List.append_eq_nil_iff.mp whole.symm).2 strict

theorem Reads.bind {reader : BinaryReader α} {next : α → BinaryReader β} {first second : Bytes}
    {a : α} {b : β} (reads : Reads reader first a) (readsNext : Reads (next a) second b) :
    Reads (reader >>= next) (first ++ second) b where
  whole rest := by
    rw [StateT.run_bind, List.append_assoc, reads.whole]
    exact readsNext.whole rest
  cut start missing whole strict := by
    rw [StateT.run_bind]
    rcases List.append_eq_append_iff.mp whole with ⟨more, rfl, rfl⟩ | ⟨more, rfl, rfl⟩
    · rw [reads.whole]
      exact readsNext.cut more missing rfl strict
    · by_cases nothing : more = []
      · subst nothing
        have all := reads.whole []
        rw [List.append_nil, List.append_nil] at all
        rw [all]
        exact readsNext.cut [] second rfl strict
      · rw [reads.cut start more rfl nothing]
        rfl

/-- A reader that only gives another shape to what it has read. -/
theorem Reads.map {reader : BinaryReader α} {written : Bytes} {a : α} (reads : Reads reader written a)
    (f : α → β) : Reads (reader >>= fun a => Pure.pure (f a)) written (f a) := by
  have mapped : Reads (reader >>= fun a => Pure.pure (f a)) (written ++ []) (f a) :=
    reads.bind (Reads.pure (f a))
  rwa [List.append_nil] at mapped

/-! Numbers and texts. -/

theorem reads_natural {width n : Nat} (fits : n < Bytes.capacity width) :
    Reads (natural width) (Bytes.littleEndian width n) n where
  whole rest := by
    have taken : Bytes.take? width (Bytes.littleEndian width n ++ rest) = some (_, rest) :=
      Bytes.take?_eq_some_iff.mpr ⟨rfl, Bytes.length_littleEndian width n⟩
    change (Bytes.take? width _).map _ = _
    rw [taken, Option.map_some]
    dsimp only
    rw [Bytes.ofLittleEndian_littleEndian, Nat.mod_eq_of_lt fits]
  cut start missing whole strict := by
    have length := congrArg List.length whole
    rw [Bytes.length_littleEndian, List.length_append] at length
    have missed := List.length_pos_of_ne_nil strict
    change (Bytes.take? width start).map _ = none
    rw [Bytes.take?_of_length_lt (by omega), Option.map_none]

theorem reads_bool (b : Bool) : Reads bool (boolBytes b) b := by
  cases b with
  | false => exact (@reads_natural 1 0 (by decide)).bind (Reads.pure false)
  | true => exact (@reads_natural 1 1 (by decide)).bind (Reads.pure true)

theorem reads_length {length : Nat} (short : length < 2 ^ 64) :
    Reads (natural 8) (lengthBytes length) length :=
  reads_natural short

theorem reads_text {s : String} (short : AddressableText s) : Reads text (textBytes s) s := by
  refine (reads_length short).bind ⟨?_, ?_⟩
  · intro rest
    have taken := Bytes.take?_append (Bytes.ofString s) rest
    simp only [StateT.run, taken, Option.bind_eq_bind, Option.bind_some, Bytes.toString?_ofString]
    rfl
  · intro start missing whole strict
    have length := congrArg List.length whole
    rw [List.length_append] at length
    have missed := List.length_pos_of_ne_nil strict
    have absent : Bytes.take? (Bytes.ofString s).length start = none :=
      Bytes.take?_of_length_lt (by omega)
    simp only [StateT.run, absent]
    rfl

theorem reads_real (x : Binary64) : Reads real (realBytes x) x := by
  have bits : Reads (natural 8) (realBytes x) x.bits.toNat := reads_natural x.bits.toNat_lt
  have mapped := bits.map fun n => (⟨.ofNat n⟩ : Binary64)
  rwa [UInt64.ofNat_toNat] at mapped

/-! Lists. -/

theorem reads_times {item : BinaryReader α} {itemBytes : α → Bytes} {items : List α}
    (each : ∀ a ∈ items, Reads item (itemBytes a) a) :
    Reads (times item items.length) (items.flatMap itemBytes) items := by
  induction items with
  | nil => exact Reads.pure []
  | cons a items induction =>
      obtain ⟨first, others⟩ := List.forall_mem_cons.mp each
      exact first.bind ((induction others).map (a :: ·))

theorem reads_list {Addressable : α → Prop} {item : BinaryReader α} {itemBytes : α → Bytes}
    {items : List α} (short : AddressableList Addressable items)
    (each : ∀ {a}, Addressable a → Reads item (itemBytes a) a) :
    Reads (list item) (listBytes itemBytes items) items :=
  (reads_length short.1).bind (reads_times fun a member => each (short.2 a member))

/-! What an archive consists of. -/

theorem reads_kind {kind : MetricKind} (short : kind.Addressable) :
    Reads BinaryReader.kind (kindBytes kind) kind := by
  cases kind with
  | intCounter => exact (@reads_natural 4 0 (by decide)).bind (Reads.pure _)
  | longCounter => exact (@reads_natural 4 1 (by decide)).bind (Reads.pure _)
  | gauge => exact (@reads_natural 4 2 (by decide)).bind (Reads.pure _)
  | derived numerator denominator =>
      obtain ⟨numeratorShort, denominatorShort⟩ := short
      rw [kindBytes, List.append_assoc]
      exact (@reads_natural 4 3 (by decide)).bind
        ((reads_text numeratorShort).bind ((reads_text denominatorShort).map (MetricKind.derived _)))

theorem reads_metric {m : Metric} (short : m.Addressable) : Reads metric (metricBytes m) m := by
  obtain ⟨nameShort, unitShort, kindShort⟩ := short
  rw [metricBytes, List.append_assoc, List.append_assoc]
  exact (reads_text nameShort).bind ((reads_text unitShort).bind
    ((reads_bool m.largerIsBetter).bind ((reads_kind kindShort).map (Metric.mk _ _ _))))

theorem reads_type {t : StatisticsType} (short : t.Addressable) : Reads type (typeBytes t) t :=
  (reads_text short.1).bind ((reads_list short.2 reads_metric).map (StatisticsType.mk _))

theorem reads_sample {s : Sample} (short : s.Addressable) : Reads sample (sampleBytes s) s := by
  obtain ⟨typeShort, instanceShort, few⟩ := short
  have time : Reads (natural 8) (Bytes.littleEndian 8 s.timestampMs.toNat) s.timestampMs.toNat :=
    reads_natural s.timestampMs.toNat_lt
  have fewValues : AddressableList (fun _ => True) s.values := ⟨few, fun _ _ => trivial⟩
  have values : Reads (list real) (listBytes realBytes s.values) s.values :=
    reads_list fewValues fun _ => reads_real _
  have whole : Reads sample _ ⟨_, _, .ofNat s.timestampMs.toNat, _⟩ :=
    (reads_text typeShort).bind ((reads_text instanceShort).bind
      (time.bind (values.map (Sample.mk _ _ _))))
  rw [UInt64.ofNat_toNat] at whole
  rwa [sampleBytes, List.append_assoc, List.append_assoc]

theorem reads_archive {a : Archive} (short : a.Addressable) : Reads archive a.bytes a := by
  obtain ⟨hostShort, typesShort, samplesShort⟩ := short
  have process : Reads (natural 4) (Bytes.littleEndian 4 a.processId.toNat) a.processId.toNat :=
    reads_natural a.processId.toNat_lt
  have whole : Reads archive _ ⟨.ofNat a.processId.toNat, _, _, _⟩ :=
    process.bind ((reads_text hostShort).bind ((reads_list typesShort reads_type).bind
      ((reads_list samplesShort reads_sample).map (Archive.mk _ _ _))))
  rw [UInt32.ofNat_toNat] at whole
  rwa [bytes, List.append_assoc, List.append_assoc]

end BinaryReader

theorem ofBytes?_append {a : Archive} (short : a.Addressable) (rest : Bytes) :
    ofBytes? (a.bytes ++ rest) = some a := by
  rw [ofBytes?, (BinaryReader.reads_archive short).whole, Option.map_some]

theorem ofBytes?_of_cut {a : Archive} (short : a.Addressable) {start : Bytes}
    (cut : start <+: a.bytes) (strict : start ≠ a.bytes) : ofBytes? start = none := by
  obtain ⟨missing, whole⟩ := cut
  have some : missing ≠ [] := by
    rintro rfl
    exact strict (by rw [← whole, List.append_nil])
  rw [ofBytes?, (BinaryReader.reads_archive short).cut start missing whole.symm some, Option.map_none]

/-! Files. -/

theorem flatten_piecesWith (fuel : Nat) (bytes : Bytes) : (piecesWith fuel bytes).flatten = bytes := by
  induction fuel generalizing bytes with
  | zero => exact List.flatten_singleton
  | succ fuel induction =>
      rw [piecesWith, List.splitAt_eq]
      cases rest : bytes.drop pieceSize with
      | nil =>
          have all := List.take_append_drop pieceSize bytes
          rw [rest, List.append_nil] at all
          rw [List.flatten_singleton, all]
      | cons b rest' =>
          rw [List.flatten_cons, induction, ← rest, List.take_append_drop]

theorem flatten_pieces (bytes : Bytes) : (pieces bytes).flatten = bytes :=
  flatten_piecesWith bytes.length bytes

theorem writeTo_eq_ok_iff {a : Archive} {path : String} {f after : Files} :
    a.writeTo path f = (.ok (), after) ↔
      f.performAll (writeSteps path (pieces a.bytes)) = (after, none) := by
  rw [writeTo]
  split
  · rename_i last done
    rw [done]
    simp
  · rename_i last step stuck
    rw [stuck]
    simp

theorem find?_of_writeTo {a : Archive} {path : String} {f after : Files}
    (written : a.writeTo path f = (.ok (), after)) : after.find? path = some (.file a.bytes) := by
  have done := writeTo_eq_ok_iff.mp written
  obtain ⟨source, target⟩ := Files.filePlaces_of_moved done
  obtain ⟨last, performed, found⟩ := Files.performAll_moved (pieces a.bytes) source target
  cases (Prod.mk.inj (done.symm.trans performed)).1
  rwa [flatten_pieces] at found

/-- Only the first step and the last one can fail by themselves, whatever the pieces. -/
theorem performAll_writeSteps (f : Files) (path : String) (pieces : List Bytes) :
    f.performAll (writeSteps path pieces) =
      match f.filePlace? (Path.temporary path) with
      | none => (f, some (.create (Path.temporary path)))
      | some place =>
          match (f.setFile place pieces.flatten).perform (.rename (Path.temporary path) path) with
          | some last => (last, none)
          | none => (f.setFile place pieces.flatten, some (.rename (Path.temporary path) path)) := by
  cases isPlace : f.filePlace? (Path.temporary path) with
  | none =>
      rw [writeSteps, List.cons_append, Files.performAll, Files.perform, isPlace]
      rfl
  | some place =>
      have made := Files.performAll_written isPlace pieces
      rw [List.singleton_append] at made
      exact Files.performAll_concat made _

theorem eq_of_stuck {f last : Files} {path : String} {pieces : List Bytes} {step : Files.FileStep}
    (stuck : f.performAll (writeSteps path pieces) = (last, some step)) :
    step = .create (Path.temporary path) ∨ step = .rename (Path.temporary path) path := by
  rw [performAll_writeSteps] at stuck
  split at stuck
  · cases stuck
    exact .inl rfl
  · split at stuck
    · cases stuck
    · cases stuck
      exact .inr rfl

theorem ofContent_bytes {a : Archive} (short : a.Addressable) (path : String) :
    ofContent path a.bytes = .ok a := by
  have whole := ofBytes?_append short []
  rw [List.append_nil] at whole
  rw [ofContent, whole]

theorem readFrom_of_find? {a : Archive} (short : a.Addressable) {path : String} {f : Files}
    (there : f.find? path = some (.file a.bytes)) : readFrom path f = .ok a := by
  rw [readFrom, there]
  exact ofContent_bytes short path

theorem written_archives_read_back (a : Archive) (short : a.Addressable) (path : String) (f : Files) :
    ((∃ after, a.writeTo path f = (.ok (), after)) ↔
      (f.filePlace? (Path.temporary path)).isSome ∧ (f.filePlace? path).isSome) ∧
    (∀ after, a.writeTo path f = (.ok (), after) →
      after.find? path = some (.file a.bytes) ∧ readFrom path after = .ok a) ∧
    ∀ content, f.find? path = some (.file content) →
      (a.bytes <+: content → readFrom path f = .ok a) ∧
      (content <+: a.bytes → content ≠ a.bytes → readFrom path f = .error (.notDecoded path)) := by
  have readsOf (g : Files) (content : Bytes) (there : g.find? path = some (.file content)) :
      readFrom path g = ofContent path content := by rw [readFrom, there]
  have whole (rest : Bytes) : ofContent path (a.bytes ++ rest) = .ok a := by
    rw [ofContent, ofBytes?_append short]
  refine ⟨⟨?_, ?_⟩, ?_, ?_⟩
  · intro ⟨after, written⟩
    exact Files.filePlaces_of_moved (writeTo_eq_ok_iff.mp written)
  · intro ⟨source, target⟩
    obtain ⟨last, performed, -⟩ := Files.performAll_moved (pieces a.bytes) source target
    exact ⟨last, writeTo_eq_ok_iff.mpr performed⟩
  · intro after written
    have there := find?_of_writeTo written
    exact ⟨there, readFrom_of_find? short there⟩
  · intro content there
    rw [readsOf f content there]
    refine ⟨?_, ?_⟩
    · rintro ⟨rest, rfl⟩
      exact whole rest
    · intro cut strict
      rw [ofContent, ofBytes?_of_cut short cut strict]

/-- Values that equality of numbers cannot tell apart or holds to differ from themselves, and texts of
no character and of wide ones. -/
def extremes : Archive where
  processId := 4294967295
  host := "höst-☃"
  types := [⟨"", []⟩, ⟨"Cache", [⟨"hits", "", true, .intCounter⟩, ⟨"ratio", "%", false, .derived "hits" ""⟩]⟩]
  samples :=
    [⟨"Cache", "thread 1", 18446744073709551615, [⟨0x7ff8000000000000⟩, ⟨0xfff0000000000001⟩]⟩,
      ⟨"Cache", "", 0, [⟨0x8000000000000000⟩, ⟨0x7ff0000000000000⟩]⟩, ⟨"", "", 1, []⟩]

theorem written_extremes_read_back :
    extremes.Addressable ∧
    (∃ after, extremes.writeTo "node.bin" .empty = (.ok (), after) ∧
      readFrom "node.bin" after = .ok extremes) ∧
    readFrom "node.bin" (Files.empty.setFile "node.bin" (extremes.bytes ++ [0])) = .ok extremes ∧
    readFrom "node.bin" (Files.empty.setFile "node.bin" extremes.bytes.dropLast) =
      .error (.notDecoded "node.bin") := by
  have short : extremes.Addressable := by decide +kernel
  have readsBack := written_archives_read_back extremes short "node.bin"
  have plain : Files.IsPlainName "node.bin" := ⟨by decide +kernel, by decide, by decide, by cbv⟩
  have alsoPlain : Files.IsPlainName "node.bin.tmp" := ⟨by decide +kernel, by decide, by decide, by cbv⟩
  have temporary : Path.temporary "node.bin" = "node.bin.tmp" := by decide +kernel
  have places : (Files.empty.filePlace? (Path.temporary "node.bin")).isSome ∧
      (Files.empty.filePlace? "node.bin").isSome := by
    rw [temporary, plain.filePlace? (by decide), alsoPlain.filePlace? (by decide)]
    decide
  have found (content : Bytes) :
      (Files.empty.setFile "node.bin" content).find? "node.bin" = some (.file content) := by
    rw [plain.find?, Files.nodeAt?_setFile (by decide), if_pos rfl]
  obtain ⟨after, written⟩ := (readsBack .empty).1.mpr places
  have strict : extremes.bytes.dropLast ≠ extremes.bytes := by decide +kernel
  exact ⟨short, ⟨after, written, ((readsBack .empty).2.1 after written).2⟩,
    ((readsBack _).2.2 _ (found _)).1 (List.prefix_append _ _),
    ((readsBack _).2.2 _ (found _)).2 (List.dropLast_prefix _) strict⟩

end Archive

end Coordination
