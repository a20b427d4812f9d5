import Coordination.Proofs.Board.Host

/-!
What a call leaves alone. A call that fails changes nothing; one that succeeds changes at most the
board that it names, and of that board only what its method is about.
-/

namespace Coordination

namespace Host

/-- A method may change one counter, one entry, the whole map, one lock or nothing. -/
def Confined (method : Method) (args : List Json) (before after : Board) : Prop :=
  match method with
  | .counterAdd | .counterRaise | .counterZero =>
      ∃ id counters, args[1]? = some (CounterId.toJson id) ∧
        after = { before with counters } ∧
        ∀ other, other ≠ id → counters.read? other = before.counters.read? other
  | .mapPut =>
      ∃ key entries, args[1]? = some (.string key) ∧ after = { before with entries } ∧
        ∀ other, other ≠ key → entries.get? other = before.entries.get? other
  | .mapClear => ∃ entries, after = { before with entries }
  | .lock | .unlock =>
      ∃ name locks, args[1]? = some (.string name) ∧ after = { before with locks } ∧
        ∀ other, other ≠ name → locks.holder? other = before.locks.holder? other
  | .attach | .counterRead | .counterReadAll | .mapGet | .mapContains | .mapSize | .mapSnapshot =>
      after = before

/-- A board as it is made: counters at zero, no entries, all locks free. -/
def Untouched (schema : Schema) (b : Board) : Prop :=
  b.schema = schema ∧
    (∀ id, b.counters.read? id = if schema.hasCounter id then some 0 else none) ∧
    b.entries = .empty ∧
    ∀ name, b.locks.holder? name = if schema.hasLock name then some none else none

theorem untouched_fresh (name : String) (schema : Schema) :
    Untouched schema (.fresh name schema) := by
  refine ⟨rfl, ?_, rfl, ?_⟩
  · intro id
    simp only [Schema.hasCounter, decide_eq_true_eq]
    exact Counters.read?_fresh schema.counterCount id
  · intro lock
    exact Locks.holder?_ofNames schema.locks lock

/-! A method on a board. -/

theorem applyCounter_confined {b : Board} {operation : Counter → Int64 × Counter} {id : CounterId}
    {answer : Int64} {after : Board} (applied : b.applyCounter operation id = .ok (answer, after)) :
    ∃ counters, after = { b with counters } ∧
      ∀ other, other ≠ id → counters.read? other = b.counters.read? other := by
  rw [Board.applyCounter_eq] at applied
  cases changed : b.counters.change? operation id with
  | none => simp [changed] at applied
  | some result =>
      simp only [changed, Except.ok.injEq, Prod.mk.injEq] at applied
      obtain ⟨_, rfl⟩ := applied
      exact ⟨result.2, rfl, fun other apart => Counters.read?_change?_of_ne changed apart⟩

theorem release_confined {b after : Board} {name owner : String}
    (released : b.release name owner = .ok after) :
    ∃ locks, after = { b with locks } ∧
      ∀ other, other ≠ name → locks.holder? other = b.locks.holder? other := by
  cases found : b.locks.holder? name with
  | none => simp [Board.release_of_undeclared found] at released
  | some holder =>
      by_cases holds : holder = some owner
      · subst holds
        rw [Board.release_of_holder found] at released
        cases released
        refine ⟨_, rfl, fun other apart => ?_⟩
        rw [Locks.holder?_withHolder, if_neg apart]
      · simp [Board.release_of_other found holds] at released

theorem acquire_confined {b after : Board} {name owner : String} {timeout : Option UInt64}
    (acquired : b.acquire name owner timeout = some (.ok after)) :
    ∃ locks, after = { b with locks } ∧
      ∀ other, other ≠ name → locks.holder? other = b.locks.holder? other := by
  cases found : b.locks.holder? name with
  | none => simp [Board.acquire_of_undeclared found] at acquired
  | some holder =>
      cases holder with
      | none =>
          rw [Board.acquire_of_free found] at acquired
          cases acquired
          refine ⟨_, rfl, fun other apart => ?_⟩
          rw [Locks.holder?_withHolder, if_neg apart]
      | some holder => simp [Board.acquire_of_held found] at acquired

/-- What a method leaves of a board that it does not fail on. Only taking a lock may have to wait. -/
def Leaves (method : Method) (args : List Json) (before : Board) (answer : Option Json)
    (after : Board) : Prop :=
  match answer with
  | some _ => Confined method args before after
  | none => method = .lock ∧ after = before

/-- Every argument is read before anything is changed, and nothing can fail after that. -/
theorem spares_carryOut (b : Board) (method : Method) (args : List Json) :
    (carryOut method args).Spares b (Leaves method args b) := by
  cases method with
  | counterAdd =>
      refine .ofResult_bind fun id read => .ofResult_bind fun delta _ => .bind_pure ?_
      obtain ⟨_, given, decoded⟩ := argument_eq_ok_iff.mp read
      obtain rfl := CounterId.decoder_eq_ok_iff.mp decoded
      refine (b.spares_changeCounter _ id).mapFailure.mono fun sum after added => ?_
      obtain ⟨counters, shape, others⟩ := applyCounter_confined added
      exact ⟨id, counters, given, shape, others⟩
  | counterRaise =>
      refine .ofResult_bind fun id read => .ofResult_bind fun candidate _ => .bind_pure ?_
      obtain ⟨_, given, decoded⟩ := argument_eq_ok_iff.mp read
      obtain rfl := CounterId.decoder_eq_ok_iff.mp decoded
      refine (b.spares_counterRaise id candidate).mapFailure.mono fun larger after raised => ?_
      rw [Board.raiseCounter_eq, map_eq_ok_iff] at raised
      obtain ⟨⟨previous, changed⟩, applied, same⟩ := raised
      cases same
      obtain ⟨counters, shape, others⟩ := applyCounter_confined applied
      exact ⟨id, counters, given, shape, others⟩
  | counterZero =>
      refine .ofResult_bind fun id read => .bind_pure ?_
      obtain ⟨_, given, decoded⟩ := argument_eq_ok_iff.mp read
      obtain rfl := CounterId.decoder_eq_ok_iff.mp decoded
      refine (b.spares_changeCounter _ id).mapFailure.mono fun previous after zeroed => ?_
      obtain ⟨counters, shape, others⟩ := applyCounter_confined zeroed
      exact ⟨id, counters, given, shape, others⟩
  | mapPut =>
      refine .ofResult_bind fun key read => .ofResult_bind fun value _ => ?_
      obtain ⟨_, given, decoded⟩ := argument_eq_ok_iff.mp read
      obtain rfl := Json.Decoder.string_eq_ok_iff.mp decoded
      refine ⟨key, _, given, rfl, fun other apart => ?_⟩
      exact (Table.get?_insert b.entries key other value).trans (if_neg apart)
  | mapClear => exact ⟨_, rfl⟩
  | lock =>
      refine .ofResult_bind fun name read => .ofResult_bind fun owner _ =>
        .ofResult_bind fun timeout _ => .bind_pure ?_
      obtain ⟨_, given, decoded⟩ := argument_eq_ok_iff.mp read
      obtain rfl := Json.Decoder.string_eq_ok_iff.mp decoded
      refine (b.spares_lock name owner timeout).mapFailure.mono fun taken after locked => ?_
      cases taken with
      | false => exact ⟨rfl, locked.1⟩
      | true =>
          obtain ⟨locks, shape, others⟩ := acquire_confined locked
          exact ⟨name, locks, given, shape, others⟩
  | unlock =>
      refine .ofResult_bind fun name read => .ofResult_bind fun owner _ => .bind_pure ?_
      obtain ⟨_, given, decoded⟩ := argument_eq_ok_iff.mp read
      obtain rfl := Json.Decoder.string_eq_ok_iff.mp decoded
      refine (b.spares_unlock name owner).mapFailure.mono fun _ after released => ?_
      obtain ⟨locks, shape, others⟩ := release_confined released
      exact ⟨name, locks, given, shape, others⟩
  | counterRead =>
      exact .ofResult_bind fun id _ => .get_bind (.ofResult_bind fun value _ => .pure rfl)
  | mapGet | mapContains => exact .ofResult_bind fun key _ => .get_bind (.pure rfl)
  | counterReadAll | mapSize | mapSnapshot => exact .get_bind (.pure rfl)
  | attach => exact .throw _

/-! Only the board that a call names may change. -/

/-- The same board at another time. -/
def Continues (before after : Board) : Prop :=
  after.name = before.name ∧ after.schema = before.schema

theorem Confined.continues {method : Method} {args : List Json} {before after : Board}
    (confined : Confined method args before after) : Continues before after := by
  cases method with
  | counterAdd | counterRaise | counterZero | mapPut | lock | unlock =>
      obtain ⟨_, _, _, rfl, _⟩ := confined
      exact ⟨rfl, rfl⟩
  | mapClear =>
      obtain ⟨_, rfl⟩ := confined
      exact ⟨rfl, rfl⟩
  | attach | counterRead | counterReadAll | mapGet | mapContains | mapSize | mapSnapshot =>
      obtain rfl := confined
      exact ⟨rfl, rfl⟩

/-- What may have changed when a call has succeeded. -/
def Within (method : Method) (args : List Json) (before after : Host) : Prop :=
  ∃ name, args[0]? = some (.string name) ∧
    (∀ other, other ≠ name → after.boards.get? other = before.boards.get? other) ∧
    match before.boards.get? name with
    | some board => ∃ changed, after.boards.get? name = some changed ∧
        Confined method args board changed
    | none => method = .attach ∧ ∃ given schema fresh, args[1]? = some given ∧
        Schema.decoder given = .ok schema ∧ after.boards.get? name = some fresh ∧
        Untouched schema fresh

theorem within_replaceBoard {h : Host} {b changed : Board} {method : Method} {args : List Json}
    (given : args[0]? = some (.string b.name)) (found : h.boards.get? b.name = some b)
    (confined : Confined method args b changed) :
    Within method args h (h.replaceBoard changed) := by
  have sameName := confined.continues.1
  refine ⟨b.name, given, ?_, ?_⟩
  · intro other apart
    exact h.get?_replaceBoard_of_ne (sameName ▸ apart)
  · rw [found]
    refine ⟨changed, ?_, confined⟩
    rw [get?_replaceBoard, if_pos sameName.symm]

theorem within_attach {h after : Host} {name : String} {args : List Json} {v : Json} {schema : Schema}
    (given : args[0]? = some (.string name)) (schemaGiven : args[1]? = some v)
    (decoded : Schema.decoder v = .ok schema) (attached : h.attach name schema = .ok after) :
    Within .attach args h after := by
  refine ⟨name, given, ?_⟩
  rw [attach_eq] at attached
  cases found : h.boards.get? name with
  | some board =>
      simp only [found] at attached
      split at attached
      · cases attached
        exact ⟨fun _ _ => rfl, board, found, rfl⟩
      · cases attached
  | none =>
      simp only [found] at attached
      cases attached
      refine ⟨fun other apart => h.get?_replaceBoard_of_ne apart, rfl, v, schema,
        .fresh name schema, schemaGiven, decoded, ?_, untouched_fresh name schema⟩
      rw [get?_replaceBoard]
      exact if_pos rfl

theorem spares_attachBoard (h : Host) {name : String} {args : List Json}
    (given : args[0]? = some (.string name)) :
    (attachBoard name args).Spares h fun answer after =>
      answer = some .null ∧ Within .attach args h after := by
  refine .ofResult_bind fun schema read => .bind_pure ?_
  obtain ⟨v, schemaGiven, decoded⟩ := argument_eq_ok_iff.mp read
  exact (h.spares_ensureBoard name schema).mapFailure.mono fun _ after attached =>
    ⟨rfl, within_attach given schemaGiven decoded attached⟩

/-- How a call may leave the host: as it was if it fails or has to wait for a lock, and else changed
within its method. -/
def Left (h : Host) (method : String) (args : List Json) :
    Except Refusal (Option Json) × Host → Prop
  | (.error _, after) => after = h
  | (.ok none, after) => method = Method.lock.name ∧ after = h
  | (.ok (some _), after) => ∃ found : Method, method = found.name ∧ Within found args h after

theorem left_attachBoard (h : Host) {name : String} {args : List Json}
    (given : args[0]? = some (.string name)) :
    Left h Method.attach.name args ((attachBoard name args).on h) := by
  have spares := spares_attachBoard h given
  unfold InPlace.Spares at spares
  rcases ran : (attachBoard name args).on h with ⟨_ | answer, after⟩ <;> rw [ran] at spares
  · exact spares
  · obtain ⟨rfl, within⟩ := spares
    exact ⟨.attach, rfl, within⟩

theorem left_carryOut {h : Host} {b : Board} {found : Method} {args : List Json}
    (given : args[0]? = some (.string b.name)) (hosted : h.boards.get? b.name = some b) :
    Left h found.name args (Prod.map id h.replaceBoard ((carryOut found args).on b)) := by
  have spares := spares_carryOut b found args
  unfold InPlace.Spares at spares
  rcases ran : (carryOut found args).on b with ⟨_ | _ | v, after⟩ <;> rw [ran] at spares
  · obtain rfl := spares
    exact replaceBoard_of_hosted hosted
  · obtain ⟨rfl, rfl⟩ := spares
    exact ⟨rfl, replaceBoard_of_hosted hosted⟩
  · exact ⟨found, rfl, within_replaceBoard given hosted spares⟩

theorem left_handle (h : Host) (method : String) (args : List Json) :
    Left h method args ((handle method args).on h) := by
  refine handle_cases ?_ ?_ ?_ method args
  · intro method args refusal
    rfl
  · intro args name given
    exact left_attachBoard h given
  · intro found args b given hosted _
    exact left_carryOut given hosted

/-- A call that fails leaves the host as it was, and one that succeeds keeps within its method. Only
taking a lock may have to wait. -/
def Orderly (h : Host) (method : String) (args : List Json) : Option (Reaction Host) → Prop
  | none => method = Method.lock.name
  | some ⟨.crashed _, _, _⟩ => False
  | some ⟨.answered (.error _), after, _⟩ => after = h
  | some ⟨.answered (.ok _), after, _⟩ =>
      ∃ found : Method, method = found.name ∧ Within found args h after

theorem orderly_perform (h : Host) (method : String) (args : List Json) :
    Orderly h method args (h.perform method args) := by
  have left := h.left_handle method args
  rw [perform]
  rcases ran : (handle method args).on h with ⟨_ | _ | v, after⟩ <;> rw [ran] at left
  · exact left
  · exact left.1
  · exact left

/-! No board goes away or gets another schema. -/

def Keeps (before after : Host) : Prop :=
  ∀ name b, before.boards.get? name = some b →
    ∃ later, after.boards.get? name = some later ∧ Continues b later

theorem keeps_refl (h : Host) : h.Keeps h :=
  fun _ b found => ⟨b, found, rfl, rfl⟩

theorem keeps_replaceBoard {h : Host} {b later : Board} (hosted : h.boards.get? b.name = some b)
    (continues : Continues b later) : h.Keeps (h.replaceBoard later) := by
  intro name other found
  rw [get?_replaceBoard]
  split
  · rename_i same
    rw [same, continues.1, hosted] at found
    cases found
    exact ⟨later, rfl, continues⟩
  · exact ⟨other, found, rfl, rfl⟩

theorem keeps_attach {h after : Host} {name : String} {schema : Schema}
    (attached : h.attach name schema = .ok after) :
    h.Keeps after ∧ ∃ b, after.boards.get? name = some b ∧ b.schema = schema := by
  rw [attach_eq] at attached
  cases found : h.boards.get? name with
  | some board =>
      simp only [found] at attached
      split at attached
      · rename_i same
        cases attached
        exact ⟨h.keeps_refl, board, found, same⟩
      · cases attached
  | none =>
      simp only [found, Except.ok.injEq] at attached
      subst attached
      refine ⟨?_, .fresh name schema, ?_, rfl⟩
      · intro other b hosted
        have apart : other ≠ name := by
          rintro rfl
          rw [found] at hosted
          cases hosted
        exact ⟨b, (h.get?_replaceBoard_of_ne apart).trans hosted, rfl, rfl⟩
      · rw [get?_replaceBoard]
        exact if_pos rfl

theorem Within.keeps {method : Method} {args : List Json} {before after : Host}
    (within : Within method args before after) : before.Keeps after := by
  obtain ⟨name, given, others, atName⟩ := within
  intro other b found
  by_cases same : other = name
  · subst same
    rw [found] at atName
    obtain ⟨later, hosted, confined⟩ := atName
    exact ⟨later, hosted, confined.continues⟩
  · exact ⟨b, (others other same).trans found, rfl, rfl⟩

theorem Orderly.within {h after : Host} {method : String} {args : List Json}
    {outcome : Except Refusal Json} {millis : Nat}
    (orderly : Orderly h method args (some ⟨.answered outcome, after, millis⟩)) :
    after = h ∨ ∃ found : Method, method = found.name ∧ Within found args h after := by
  cases outcome with
  | error refusal => exact .inl orderly
  | ok value => exact .inr orderly

theorem within_perform {h after : Host} {method : String} {args : List Json}
    {outcome : Except Refusal Json} {millis : Nat}
    (performed : h.perform method args = some ⟨.answered outcome, after, millis⟩) :
    after = h ∨ ∃ found : Method, method = found.name ∧ Within found args h after :=
  (performed ▸ h.orderly_perform method args).within

theorem keeps_perform {h after : Host} {method : String} {args : List Json}
    {outcome : Except Refusal Json} {millis : Nat}
    (performed : h.perform method args = some ⟨.answered outcome, after, millis⟩) :
    h.Keeps after := by
  rcases within_perform performed with rfl | ⟨found, -, within⟩
  · exact after.keeps_refl
  · exact within.keeps

end Host

end Coordination
