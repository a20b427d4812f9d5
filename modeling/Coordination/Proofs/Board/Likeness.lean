import Coordination.Proofs.Board.Federation

/-!
A handle and the board that it is for. They have the same schema, and each of them checks by its own;
so they refuse the same counters and locks in the same words, and names stand beside their own values.
-/

namespace Coordination

/-- The fault of naming a counter or a lock that a board does not have. -/
def Fault.Undeclared : Fault → Prop
  | .unregisteredCounter .. | .unknownLock .. => True
  | _ => False

theorem Fault.Undeclared.portable {fault : Fault} (undeclared : fault.Undeclared) :
    fault.Portable := by
  cases fault with
  | unregisteredCounter | unknownLock => trivial
  | _ => cases undeclared

namespace Schema

def missingCounter? (s : Schema) (board : String) (id : CounterId) : Option Fault :=
  if s.hasCounter id then none else some (.unregisteredCounter board id.number)

def missingLock? (s : Schema) (board name : String) : Option Fault :=
  if s.hasLock name then none else some (.unknownLock board name)

theorem missingCounter?_eq_none_iff {s : Schema} {board : String} {id : CounterId} :
    s.missingCounter? board id = none ↔ s.hasCounter id = true := by
  simp [missingCounter?]

theorem missingCounter?_eq_some_iff {s : Schema} {board : String} {id : CounterId} {fault : Fault} :
    s.missingCounter? board id = some fault ↔
      s.hasCounter id = false ∧ .unregisteredCounter board id.number = fault := by
  simp [missingCounter?]

theorem missingLock?_eq_none_iff {s : Schema} {board name : String} :
    s.missingLock? board name = none ↔ s.hasLock name = true := by
  simp [missingLock?]

theorem missingLock?_eq_some_iff {s : Schema} {board name : String} {fault : Fault} :
    s.missingLock? board name = some fault ↔
      s.hasLock name = false ∧ .unknownLock board name = fault := by
  simp [missingLock?]

end Schema

namespace Operation

/-- Why an operation is refused on a board with this name and schema, if it is not declared there. -/
def undeclared? (board : String) (schema : Schema) : Operation → Option Fault
  | .increment id | .incrementBy id _ | .decrement id | .read id | .incrementAndRead id
  | .addAndRead id _ | .setIfLarger id _ | .zero id => schema.missingCounter? board id
  | .lock name | .lockWithin name _ | .unlock name => schema.missingLock? board name
  | .readAll | .put .. | .get _ | .containsKey _ | .clear | .size | .snapshot => none

variable {ω : Type}

open Handle (keyJson timeoutJson heard)
open Json (Decoder)

def method : Operation → Host.Method
  | .increment _ | .incrementBy .. | .decrement _ | .incrementAndRead _ | .addAndRead .. => .counterAdd
  | .read _ => .counterRead
  | .setIfLarger .. => .counterRaise
  | .zero _ => .counterZero
  | .readAll => .counterReadAll
  | .put .. => .mapPut
  | .get _ => .mapGet
  | .containsKey _ => .mapContains
  | .clear => .mapClear
  | .size => .mapSize
  | .snapshot => .mapSnapshot
  | .lock _ | .lockWithin .. => .lock
  | .unlock _ => .unlock

/-- What the host is given with the name of the board. -/
def arguments (h : Handle ω) : Operation → List Json
  | .increment id | .incrementAndRead id => [id.toJson, Host.intJson 1]
  | .incrementBy id delta | .addAndRead id delta => [id.toJson, Host.intJson delta]
  | .decrement id => [id.toJson, Host.intJson (-1)]
  | .read id | .zero id => [id.toJson]
  | .setIfLarger id candidate => [id.toJson, Host.intJson candidate]
  | .put key value => [keyJson key, value]
  | .get key | .containsKey key => [keyJson key]
  | .readAll | .clear | .size | .snapshot => []
  | .lock name => [.string name, .string h.clientId, timeoutJson h.lockTimeout]
  | .lockWithin name timeoutMs => [.string name, .string h.clientId, timeoutJson (some timeoutMs)]
  | .unlock name => [.string name, .string h.clientId]

/-- What a caller with this schema makes of the host's answer. -/
def hear (schema : Schema) (operation : Operation) (outcome : Outcome) : Except Fault Answer :=
  match operation with
  | .increment _ | .incrementBy .. | .decrement _ => (fun _ => .done) <$> heard Decoder.int64 outcome
  | .incrementAndRead _ | .addAndRead .. | .read _ | .zero _ => .number <$> heard Decoder.int64 outcome
  | .setIfLarger .. => .truth <$> heard Decoder.bool outcome
  | .readAll =>
      (fun values => .values (schema.counters.zip values)) <$>
        heard (Decoder.list Decoder.int64) outcome
  | .get _ =>
      (fun (found, v) => .found (if found then some v else none)) <$>
        heard (Decoder.pair Decoder.bool Decoder.json) outcome
  | .containsKey _ => .truth <$> heard Decoder.bool outcome
  | .size => .count <$> heard Decoder.count outcome
  | .snapshot =>
      .listing <$> heard (Decoder.list (Decoder.pair Decoder.string Decoder.json)) outcome
  | .put .. | .clear | .lock _ | .lockWithin .. | .unlock _ =>
      (fun _ => .done) <$> heard Decoder.json outcome

end Operation

/-! A handle checks. -/

namespace Handle

open Json (Decoder)

variable {ω α β : Type} {h : Handle ω} {refusal : Option Fault} {method : Host.Method}
  {args : List Json}

/-- With a refusal there is nothing but the refusal, and with none there is just this call, of which the
caller makes what `hear` says. -/
def Asks (h : Handle ω) (access : Access ω α) (refusal : Option Fault) (method : Host.Method)
    (args : List Json) (hear : Outcome → Except Fault α) : Prop :=
  match refusal with
  | some fault => ∀ world, access.run.run world = some (.error fault, world)
  | none => ∀ world, access.run.run world =
      (h.channel.invoke none (.ofClass Host.className) method.name (.string h.name :: args) world).map
        fun (outcome, after) => (hear outcome, after)

/-- With a refusal there is nothing but the refusal, and with none there is just this call. -/
def Checks (h : Handle ω) (access : Access ω α) (refusal : Option Fault) (method : Host.Method)
    (args : List Json) : Prop :=
  match refusal with
  | some fault => ∀ world, access.run.run world = some (.error fault, world)
  | none => ∃ hear : Outcome → Except Fault α, ∀ world,
      access.run.run world =
        (h.channel.invoke none (.ofClass Host.className) method.name (.string h.name :: args) world).map
          fun (outcome, after) => (hear outcome, after)

theorem Asks.checks {access : Access ω α} {hear : Outcome → Except Fault α}
    (asks : h.Asks access refusal method args hear) : h.Checks access refusal method args := by
  cases refusal with
  | some fault => exact asks
  | none => exact ⟨hear, asks⟩

theorem Asks.map {access : Access ω α} {hear : Outcome → Except Fault α}
    (asks : h.Asks access refusal method args hear) (f : α → β) :
    h.Asks (f <$> access) refusal method args fun outcome => f <$> hear outcome := by
  cases refusal with
  | some fault =>
      intro world
      rw [ExceptT.run_map, StateT.run_map, asks world]
      rfl
  | none =>
      intro world
      rw [ExceptT.run_map, StateT.run_map, asks world]
      cases h.channel.invoke none (.ofClass Host.className) method.name (.string h.name :: args) world <;>
        rfl

theorem asks_call (h : Handle ω) (decode : Decoder α) (method : Host.Method) (args : List Json) :
    h.Asks (h.call decode method args) none method args (heard decode) :=
  h.run_call_eq decode method args

theorem asks_callCounter (h : Handle ω) (decode : Decoder α) (method : Host.Method)
    (id : CounterId) (args : List Json) :
    h.Asks (h.callCounter decode method id args) (h.schema.missingCounter? h.name id) method
      (id.toJson :: args) (heard decode) := by
  rw [callCounter, Schema.missingCounter?]
  split
  · exact h.asks_call decode method (id.toJson :: args)
  · exact fun _ => rfl

theorem asks_callLock (h : Handle ω) (method : Host.Method) (name : String) (args : List Json)
    (f : Unit → α) :
    h.Asks (f <$> h.callLock method name args) (h.schema.missingLock? h.name name) method
      (.string name :: .string h.clientId :: args) fun outcome =>
        (fun _ => f ()) <$> heard Decoder.json outcome := by
  rw [callLock, Schema.missingLock?]
  split
  · rw [Functor.map_map]
    exact (h.asks_call Decoder.json method (.string name :: .string h.clientId :: args)).map _
  · exact fun _ => rfl

theorem asks_perform (h : Handle ω) (operation : Operation) :
    h.Asks (operation.perform h) (operation.undeclared? h.name h.schema) operation.method
      (operation.arguments h) (operation.hear h.schema) := by
  cases operation with
  | increment id | incrementBy id | decrement id =>
      simp only [Operation.perform, increment, decrement, incrementBy, Functor.map_map]
      exact (h.asks_callCounter Decoder.int64 .counterAdd id _).map _
  | incrementAndRead id | addAndRead id =>
      exact (h.asks_callCounter Decoder.int64 .counterAdd id _).map _
  | read id => exact (h.asks_callCounter Decoder.int64 .counterRead id []).map _
  | setIfLarger id candidate => exact (h.asks_callCounter Decoder.bool .counterRaise id _).map _
  | zero id => exact (h.asks_callCounter Decoder.int64 .counterZero id []).map _
  | get key =>
      simp only [Operation.perform, get_json, Functor.map_map]
      exact (h.asks_call _ .mapGet _).map _
  | readAll =>
      simp only [Operation.perform, readAll, Functor.map_map]
      exact (h.asks_call _ .counterReadAll []).map _
  | put key value =>
      simp only [Operation.perform, put, Functor.map_map]
      exact (h.asks_call _ .mapPut _).map _
  | clear =>
      simp only [Operation.perform, clear, Functor.map_map]
      exact (h.asks_call _ .mapClear []).map _
  | containsKey | size | snapshot => exact (h.asks_call _ _ _).map _
  | lock name | lockWithin name => exact h.asks_callLock .lock name _ _
  | unlock name => exact h.asks_callLock .unlock name [] _

theorem checks_perform (h : Handle ω) (operation : Operation) :
    h.Checks (operation.perform h) (operation.undeclared? h.name h.schema) operation.method
      (operation.arguments h) :=
  (h.asks_perform operation).checks

end Handle

/-! The host checks again. -/

namespace Host

variable {host : Host} {b : Board}

/-- With a refusal the host answers that, and with none nothing of the kind. -/
def Checks (host : Host) (refusal : Option Fault) (method : Method) (args : List Json) : Prop :=
  match refusal with
  | some fault => host.perform method.name args = some (.answer (.error (.ofFault fault)) host)
  | none => ∀ fault after millis,
      host.perform method.name args = some ⟨.answered (.error (.ofFault fault)), after, millis⟩ →
        ¬ fault.Undeclared

theorem perform_answered {name : String} (hosted : host.boards.get? name = some b) {method : Method}
    {args : List Json} {v : Json} {after : Board}
    (ran : (carryOut method (.string name :: args)).on b = (.ok (some v), after)) :
    host.perform method.name (.string name :: args) =
      some (.answer (.ok v) (host.replaceBoard after)) := by
  have comes : ComesTo b method (.string name :: args) (fun v => v) (.ok (v, after)) := ran
  exact comes.perform_ok hosted

theorem waited_of_undeclared {fault : Fault} (undeclared : fault.Undeclared) :
    waited (.ofFault fault) = 0 := by
  rw [waited, Fault.ofFailure_ofFault undeclared.portable]
  cases fault with
  | unregisteredCounter | unknownLock => rfl
  | _ => cases undeclared

theorem not_undeclared_of_answer {known fault : Fault} {after last : Host} {millis waited : Nat}
    (portable : known.Portable) (declared : ¬ known.Undeclared)
    (answered : some (⟨.answered (.error (.ofFault known)), after, millis⟩ : Reaction Host) =
      some ⟨.answered (.error (.ofFault fault)), last, waited⟩) : ¬ fault.Undeclared := by
  intro undeclared
  have same : Refusal.ofFault known = Refusal.ofFault fault := by
    injection answered with reaction
    injection reaction with ending
    injection ending with outcome
    injection outcome
  have recovered := congrArg (fun refusal => Fault.ofFailure refusal.failure) same
  rw [Fault.ofFailure_ofFault portable, Fault.ofFailure_ofFault undeclared.portable] at recovered
  exact declared (recovered ▸ undeclared)

variable (hosted : host.boards.get? b.name = some b)

include hosted

theorem checks_comesTo {α : Type} {refusal : Option Fault} {found : Method} {args : List Json}
    {toJson : α → Json} {result : Except Fault (α × Board)}
    (comes : ComesTo b found (.string b.name :: args) toJson result)
    (refused : ∀ fault, refusal = some fault → fault.Undeclared ∧ result = .error fault)
    (accepted : refusal = none → ∀ fault, result = .error fault →
      fault.Portable ∧ ¬ fault.Undeclared) :
    host.Checks refusal found (.string b.name :: args) := by
  cases refusal with
  | some fault =>
      obtain ⟨undeclared, rfl⟩ := refused fault rfl
      have performs := comes.perform_error hosted
      rwa [waited_of_undeclared undeclared] at performs
  | none =>
      intro fault after millis answered
      cases result with
      | ok direct =>
          rw [comes.perform_ok hosted] at answered
          cases answered
      | error known =>
          rw [comes.perform_error hosted] at answered
          obtain ⟨portable, declared⟩ := accepted rfl known rfl
          exact not_undeclared_of_answer portable declared answered

theorem checks_of_answer {found : Method} {args : List Json} {v : Json} {after : Board}
    (ran : (carryOut found (.string b.name :: args)).on b = (.ok (some v), after)) :
    host.Checks none found (.string b.name :: args) := by
  intro fault last millis answered
  rw [perform_answered hosted ran] at answered
  cases answered

theorem checks_counter {α : Type} {found : Method} {id : CounterId} {args : List Json}
    {toJson : α → Json} {result : Except Fault (α × Board)}
    (comes : ComesTo b found (.string b.name :: id.toJson :: args) toJson result)
    (undeclared : b.schema.hasCounter id = false →
      result = .error (.unregisteredCounter b.name id.number))
    (declared : b.schema.hasCounter id = true → ∃ a after, result = .ok (a, after)) :
    host.Checks (b.schema.missingCounter? b.name id) found (.string b.name :: id.toJson :: args) := by
  refine checks_comesTo hosted comes ?_ ?_
  · intro fault refused
    obtain ⟨absent, rfl⟩ := Schema.missingCounter?_eq_some_iff.mp refused
    exact ⟨trivial, undeclared absent⟩
  · intro accepted fault failed
    obtain ⟨a, after, done⟩ := declared (Schema.missingCounter?_eq_none_iff.mp accepted)
    cases failed.symm.trans done

theorem checks_counterAdd (id : CounterId) (delta : Int64) :
    host.Checks (b.schema.missingCounter? b.name id) .counterAdd
      [.string b.name, id.toJson, intJson delta] :=
  checks_counter hosted (comesTo_counterAdd b b.name id delta)
    Board.applyCounter_of_undeclared fun declared => Board.applyCounter_of_declared declared _

theorem checks_counterRead (id : CounterId) :
    host.Checks (b.schema.missingCounter? b.name id) .counterRead
      [.string b.name, id.toJson] := by
  refine checks_counter hosted (comesTo_counterRead b b.name id) ?_ ?_
  · intro undeclared
    rw [Board.readCounter_of_undeclared undeclared, map_error]
  · intro declared
    rw [Board.readCounter_of_lt (by simpa [Schema.hasCounter] using declared)]
    exact ⟨_, _, rfl⟩

theorem checks_counterRaise (id : CounterId) (candidate : Int64) :
    host.Checks (b.schema.missingCounter? b.name id) .counterRaise
      [.string b.name, id.toJson, intJson candidate] := by
  refine checks_counter hosted (comesTo_counterRaise b b.name id candidate) ?_ ?_
  · intro undeclared
    rw [Board.raiseCounter_eq, Board.applyCounter_of_undeclared undeclared, map_error]
  · intro declared
    obtain ⟨answer, after, applied⟩ := Board.applyCounter_of_declared declared (·.raise candidate)
    rw [Board.raiseCounter_eq, applied]
    exact ⟨_, _, rfl⟩

theorem checks_counterZero (id : CounterId) :
    host.Checks (b.schema.missingCounter? b.name id) .counterZero
      [.string b.name, id.toJson] :=
  checks_counter hosted (comesTo_counterZero b b.name id)
    Board.applyCounter_of_undeclared fun declared => Board.applyCounter_of_declared declared _

theorem checks_lock (name owner : String) (timeout : Option UInt64) :
    host.Checks (b.schema.missingLock? b.name name) .lock
      [.string b.name, .string name, .string owner, Handle.timeoutJson timeout] := by
  have performs := Handle.perform_lock hosted name owner timeout
  have known : (b.locks.holder? name).isSome = b.schema.hasLock name := b.locks.isSome_holder? name
  cases found : b.locks.holder? name with
  | none =>
      rw [found] at known
      rw [Board.acquire_of_undeclared found, Option.map_some] at performs
      dsimp only at performs
      have silent : waited (.ofFault (.unknownLock b.name name)) = 0 := waited_of_undeclared trivial
      rw [silent] at performs
      rw [Schema.missingLock?, ← known]
      exact performs
  | some holder =>
      rw [found] at known
      rw [Schema.missingLock?, ← known]
      intro fault after millis answered
      rw [performs] at answered
      cases acquired : b.acquire name owner timeout with
      | none =>
          rw [acquired] at answered
          cases answered
      | some result =>
          rw [acquired] at answered
          cases result with
          | ok changed => cases answered
          | error refused =>
              obtain ⟨timeoutMs, rfl⟩ := Board.fault_of_acquire found acquired
              have portable : (Fault.lockNotAcquired b.name name timeoutMs).Portable := trivial
              exact not_undeclared_of_answer portable id answered

theorem checks_unlock (name owner : String) :
    host.Checks (b.schema.missingLock? b.name name) .unlock
      [.string b.name, .string name, .string owner] := by
  have known : (b.locks.holder? name).isSome = b.schema.hasLock name := b.locks.isSome_holder? name
  refine checks_comesTo hosted (comesTo_unlock b b.name name owner) ?_ ?_
  · intro fault refused
    obtain ⟨absent, rfl⟩ := Schema.missingLock?_eq_some_iff.mp refused
    rw [Board.release_of_undeclared (Board.holder?_of_hasLock_false absent), map_error]
    exact ⟨trivial, rfl⟩
  · intro accepted fault failed
    have present := known.trans (Schema.missingLock?_eq_none_iff.mp accepted)
    obtain ⟨holder, found⟩ := Option.isSome_iff_exists.mp present
    rw [Board.fault_of_release found (map_eq_error_iff.mp failed)]
    exact ⟨trivial, id⟩

theorem checks_perform {ω : Type} (h : Handle ω) (operation : Operation) :
    host.Checks (operation.undeclared? b.name b.schema) operation.method
      (.string b.name :: operation.arguments h) := by
  cases operation with
  | increment id | incrementAndRead id | decrement id | incrementBy id | addAndRead id =>
      exact checks_counterAdd hosted id _
  | read id => exact checks_counterRead hosted id
  | setIfLarger id candidate => exact checks_counterRaise hosted id candidate
  | zero id => exact checks_counterZero hosted id
  | lock name | lockWithin name => exact checks_lock hosted name h.clientId _
  | unlock name => exact checks_unlock hosted name h.clientId
  | readAll | put | get | containsKey | clear | size | snapshot => exact checks_of_answer hosted rfl

end Host

/-! Names and values. -/

namespace Board

theorem map_fst_counterValues (b : Board) : b.counterValues.map Prod.fst = b.schema.counters := by
  have length : b.counters.values.length = b.schema.counters.length := by
    rw [Counters.values, List.length_map, Vector.length_toList, Schema.counterCount]
  exact List.map_fst_zip length.ge

theorem getElem?_counterValues (b : Board) {i : Nat} (inside : i < b.schema.counterCount) :
    b.counterValues[i]? = some (b.schema.counters[i], b.counters[i].value) := by
  have name : b.schema.counters[i]? = some b.schema.counters[i] := List.getElem?_eq_getElem inside
  have value : b.counters.values[i]? = some b.counters[i].value := by
    simp [Counters.values, inside]
  rw [counterValues, List.getElem?_zip_eq_some]
  exact ⟨name, value⟩

/-- Every counter once, in the order of declaration, with its own value. -/
structure Lists (b : Board) (values : List (String × Int64)) : Prop where
  names : values.map Prod.fst = b.schema.counters
  entries : ∀ (i : Nat) (inside : i < b.schema.counterCount),
    values[i]? = some (b.schema.counters[i], b.counters[i].value)
  reads : ∀ id name value, b.schema.counterName? id = some name → b.readCounter id = .ok value →
    values[id.number.toNat]? = some (name, value)

theorem lists_counterValues (b : Board) : b.Lists b.counterValues where
  names := b.map_fst_counterValues
  entries _ inside := b.getElem?_counterValues inside
  reads := by
    intro id name value declared read
    obtain ⟨inside, rfl⟩ := List.getElem?_eq_some_iff.mp declared
    rw [readCounter_of_lt inside] at read
    cases read
    exact b.getElem?_counterValues inside

end Board

/-- A summary has one entry for each board, in the order of their names. -/
theorem Host.summary_of_hosted {h : Host} {name : String} {b : Board}
    (hosted : h.boards.get? name = some b) (transport : Transport) :
    (h.summaries transport).filter (·.name = name) = [Summary.ofBoard transport b] := by
  have named := h.named name b hosted
  have ascending : (h.summaries transport).Pairwise fun a b => compare a.name b.name = .lt := by
    refine List.pairwise_map.mpr (List.pairwise_map.mpr (h.boards.ascending.imp_of_mem ?_))
    intro first second isFirst isSecond below
    have firstNamed := h.named first.1 first.2 ((h.boards.mem_entries_iff _ _).mp isFirst)
    have secondNamed := h.named second.1 second.2 ((h.boards.mem_entries_iff _ _).mp isSecond)
    change compare first.2.name second.2.name = .lt
    rw [firstNamed, secondNamed]
    exact below
  refine eq_of_ascending Summary.name (ascending.filter _) (List.pairwise_singleton _ _) ?_
  intro summary
  rw [List.mem_filter, List.mem_singleton, decide_eq_true_eq, Host.summaries, List.mem_map]
  constructor
  · rintro ⟨⟨other, member, rfl⟩, same⟩
    obtain ⟨key, found⟩ := (h.boards.mem_values_iff other).mp member
    have key_eq : key = name := (h.named key other found).symm.trans same
    rw [key_eq, hosted] at found
    cases found
    rfl
  · rintro rfl
    exact ⟨⟨b, (h.boards.mem_values_iff b).mpr ⟨name, hosted⟩, rfl⟩, named⟩

/-! Calls that succeed. -/

namespace Host

variable {host : Host} {name : String} {b : Board} {method : Method} {args : List Json} {v : Json}

theorem perform_seen (hosted : host.boards.get? name = some b)
    (ran : (carryOut method (.string name :: args)).on b = (.ok (some v), b)) :
    host.perform method.name (.string name :: args) = some (.answer (.ok v) host) := by
  have named := host.named name b hosted
  have same : host.replaceBoard b = host := replaceBoard_of_hosted (named.symm ▸ hosted)
  rw [perform_answered hosted ran, same]

theorem conveys_answered {method : String} {args : List Json} {after : Host}
    (performs : host.perform method args = some (.answer (.ok v) after))
    (call : ∀ callId, (Message.invoke callId (.ofClass className) method args).Sendable)
    (reply : ∀ callId, (Message.reply callId (.ok v) 0).Sendable) : host.Conveys method args where
  call := call
  reply := by
    intro outcome later millis performed
    cases performs.symm.trans performed
    exact reply

theorem valid_intJson (n : Int64) : (intJson n).Valid := by
  have least := n.le_toInt
  have most := n.toInt_lt
  change -(2 ^ 63 : Int) ≤ n.toInt ∧ n.toInt < 2 ^ 64
  omega

/-- For reading all counters it is only a question of length. -/
theorem conveys_readAll (hosted : host.boards.get? name = some b)
    (call : (Message.bytes (.invoke 0 (.ofClass className) Method.counterReadAll.name
      [.string name])).length + 8 ≤ Frame.maxBody)
    (reply : (Message.bytes (.reply 0
      (.ok (.array (b.counters.values.map intJson))) 0)).length + 8 ≤ Frame.maxBody) :
    host.Conveys Method.counterReadAll.name [.string name] := by
  have valid (values : List Int64) : Json.ValidItems (values.map intJson) := by
    induction values with
    | nil => trivial
    | cons value _ induction => exact ⟨valid_intJson value, induction⟩
  have nesting (values : List Int64) : Json.itemsNesting (values.map intJson) = 0 := by
    induction values with
    | nil => rfl
    | cons value _ induction => simp [Json.itemsNesting, Json.nesting, intJson, induction]
  have nested : Outcome.nesting (.ok (.array (b.counters.values.map intJson))) + 1 <
      Message.nestingBudget := by
    rw [Outcome.nesting, Json.nesting, nesting]
    decide
  exact conveys_answered (perform_answered hosted rfl)
    (.invoke ⟨trivial, trivial⟩ (by decide : 0 + 2 < Message.nestingBudget) call)
    (.reply (valid b.counters.values) nested reply)

theorem conveys_size (hosted : host.boards.get? name = some b) (few : b.entries.size < 2 ^ 64)
    (call : (Message.bytes (.invoke 0 (.ofClass className) Method.mapSize.name
      [.string name])).length + 8 ≤ Frame.maxBody)
    (reply : (Message.bytes (.reply 0 (.ok (.ofNat b.entries.size)) 0)).length + 8 ≤ Frame.maxBody) :
    host.Conveys Method.mapSize.name [.string name] := by
  have valid : Outcome.Valid (.ok (.ofNat b.entries.size)) := Json.valid_ofNat few
  exact conveys_answered (perform_answered hosted rfl)
    (.invoke ⟨trivial, trivial⟩ (by decide : 0 + 2 < Message.nestingBudget) call)
    (.reply valid (by decide : 0 + 1 < Message.nestingBudget) reply)

end Host

namespace Handle

open Json (Decoder)

/-- The handle leads to this board. -/
structure Reaches (h : Handle Fleet) (fleet : Fleet) (route : Route) (host : Host) (b : Board) :
    Prop where
  live : fleet.Live
  leads : h.channel = route.channel
  isOpen : route.IsOpen fleet
  isHost : fleet.hosts[route.place]? = some host
  hosted : host.boards.get? h.name = some b
  schema : h.schema = b.schema

variable {h : Handle Fleet} {fleet : Fleet} {route : Route} {host : Host} {b : Board}

theorem Reaches.later (reaches : h.Reaches fleet route host b) {fleet' : Fleet}
    (afterCall : fleet.After route.place host fleet') : h.Reaches fleet' route host b where
  live := afterCall.live
  leads := reaches.leads
  isOpen := afterCall.isOpen route reaches.isOpen
  isHost := afterCall.host reaches.isHost
  hosted := reaches.hosted
  schema := reaches.schema

variable (reaches : h.Reaches fleet route host b)

include reaches

theorem run_call_seen {α : Type} {decode : Decoder α} {method : Host.Method} {args : List Json}
    (carries : route.Carries fleet method.name (.string h.name :: args)) {v : Json}
    (ran : (Host.carryOut method (.string h.name :: args)).on b = (.ok (some v), b)) {a : α}
    (accepted : decode v = .ok a) :
    ∃ fleet', (h.call decode method args).run.run fleet = some (.ok a, fleet') ∧
      fleet.After route.place host fleet' := by
  obtain ⟨fleet', invoked, afterCall⟩ := Route.answers_of_perform reaches.live reaches.isOpen carries
    reaches.isHost (Host.perform_seen reaches.hosted ran)
  refine ⟨fleet', ?_, afterCall⟩
  rw [run_call_eq, reaches.leads, invoked, Option.map_some]
  dsimp only
  rw [heard_told_ok, decoded, accepted]
  rfl

theorem run_readAll_route
    (carries : route.Carries fleet Host.Method.counterReadAll.name [.string h.name]) :
    ∃ fleet', h.readAll.run.run fleet = some (.ok b.counterValues, fleet') ∧
      fleet.After route.place host fleet' := by
  have accepted : Decoder.list Decoder.int64 (.array (b.counters.values.map Host.intJson)) =
      .ok b.counters.values := Decoder.list_map Decoder.int64_integer _
  obtain ⟨fleet', called, afterCall⟩ := run_call_seen reaches carries rfl accepted
  refine ⟨fleet', ?_, afterCall⟩
  rw [readAll, ExceptT.run_map, StateT.run_map, called, reaches.schema]
  rfl

theorem run_summary_route
    (carries : route.Carries fleet Host.Method.counterReadAll.name [.string h.name])
    (carriesSize : route.Carries fleet Host.Method.mapSize.name [.string h.name]) :
    ∃ fleet', h.summary.run.run fleet = some (.ok (.ofBoard h.channel.transport b), fleet') ∧
      fleet'.hosts = fleet.hosts := by
  obtain ⟨between, readsAll, afterCall⟩ := run_readAll_route reaches carries
  have still := reaches.later afterCall
  have hosts := afterCall.hosts_of_same reaches.isHost
  have stillCarries : route.Carries between Host.Method.mapSize.name [.string h.name] := by
    intro there isThere
    rw [hosts] at isThere
    exact carriesSize there isThere
  have accepted := Decoder.count_ofNat b.entries.size
  obtain ⟨fleet', sized, afterSize⟩ := run_call_seen still stillCarries rfl accepted
  refine ⟨fleet', ?_, (afterSize.hosts_of_same still.isHost).trans hosts⟩
  rw [summary, ExceptT.run_bind, StateT.run_bind, readsAll]
  have named := host.named h.name b reaches.hosted
  change ((h.size >>= fun mapSize => Pure.pure _ : Access Fleet Summary).run.run between) = _
  rw [ExceptT.run_bind, StateT.run_bind, size, sized, Summary.ofBoard, named]
  rfl

end Handle

/-! In a federation. -/

namespace Federation

/-- What a handle and its board have in common. -/
structure Alike (s : Federation) (route : Route) (host : Host) (b : Board) (handle : Handle Fleet) :
    Prop where
  name : handle.name = b.name
  schema : handle.schema = b.schema
  checks : ∀ operation : Operation,
    handle.Checks (operation.perform handle) (operation.undeclared? b.name b.schema) operation.method
        (operation.arguments handle) ∧
      host.Checks (operation.undeclared? b.name b.schema) operation.method
        (.string b.name :: operation.arguments handle)
  readAll : route.Carries s.fleet Host.Method.counterReadAll.name [.string handle.name] →
    ∃ values fleet, handle.readAll.run.run s.fleet = some (.ok values, fleet) ∧
      fleet.hosts = s.fleet.hosts ∧ b.Lists values
  summary : route.Carries s.fleet Host.Method.counterReadAll.name [.string handle.name] →
    route.Carries s.fleet Host.Method.mapSize.name [.string handle.name] →
    ∃ summary fleet, handle.summary.run.run s.fleet = some (.ok summary, fleet) ∧
      fleet.hosts = s.fleet.hosts ∧
      ∀ transport, (host.summaries transport).filter (·.name = handle.name) =
        [{ summary with transport }]

theorem handles_alike {services : List Service} {log : List (Event × Finding)} {s : Federation}
    (reached : Reached services log s) {process : Nat} {name : String} {transport : Transport}
    {handle : Handle Fleet} (obtained : Obtained log process name transport handle) :
    ∃ p route host b, s.processes[process]? = some p ∧ p.route? transport = some route ∧
      handle.channel = route.channel ∧ s.fleet.hosts[route.place]? = some host ∧
      host.boards.get? name = some b ∧ Alike s route host b handle := by
  have sound := reached.sound
  have inside := sound.inside process name transport handle obtained
  obtain ⟨p, found⟩ : ∃ p, s.processes[process]? = some p := ⟨_, List.getElem?_eq_getElem inside⟩
  have served := sound.served process p found
  have known := (sound.logged process p found name transport handle).mpr obtained
  obtain ⟨route, b, leads, atPlace, rfl⟩ := served.handle name transport handle known
  obtain ⟨host, isHost, hosted⟩ := Fleet.board?_eq_some_iff.mp atPlace
  have named := host.named name b hosted
  have reaches : (p.makeHandle name b.schema route).Reaches s.fleet route host b :=
    ⟨sound.live, rfl, served.isOpen route (Process.route?_mem leads), isHost, hosted, rfl⟩
  refine ⟨p, route, host, b, found, leads, rfl, isHost, hosted, named.symm, rfl, ?_, ?_, ?_⟩
  · intro operation
    have ownName : host.boards.get? b.name = some b := by rw [named, hosted]
    have byHandle := Handle.checks_perform (p.makeHandle name b.schema route) operation
    have byHost := Host.checks_perform ownName (p.makeHandle name b.schema route) operation
    exact ⟨named ▸ byHandle, byHost⟩
  · intro carries
    obtain ⟨fleet, ran, afterCall⟩ := Handle.run_readAll_route reaches carries
    exact ⟨_, fleet, ran, afterCall.hosts_of_same isHost, b.lists_counterValues⟩
  · intro carries carriesSize
    obtain ⟨fleet, ran, hosts⟩ := Handle.run_summary_route reaches carries carriesSize
    exact ⟨_, fleet, ran, hosts, fun transport => Host.summary_of_hosted hosted transport⟩

/-- Over a connection, the far process reads what the near one has counted. -/
theorem handles_alike_far_and_near :
    let schema : Schema := ⟨["rounds", "errors"], ["door"]⟩
    ∃ log s handle values summary host fleet last, Reached [⟨"node", "handler"⟩] log s ∧
      Obtained log 1 "B" .tcp handle ∧ handle.schema = schema ∧ s.fleet.hosts = [host] ∧
      handle.readAll.run.run s.fleet = some (.ok values, fleet) ∧
      values.map Prod.fst = ["rounds", "errors"] ∧
      values[0]? = some ("rounds", 0) ∧ values[1]? = some ("errors", 5) ∧
      handle.summary.run.run s.fleet = some (.ok summary, last) ∧
      (host.summaries .inProcess).filter (·.name = handle.name) =
        [{ summary with transport := .inProcess }] := by
  intro schema
  have hello : (Message.hello protocolVersion "far").Sendable := ⟨trivial, by decide, by decide +kernel⟩
  have welcome : (Message.welcome protocolVersion "node").Sendable :=
    ⟨trivial, by decide, by decide +kernel⟩
  let b : Board := ⟨"B", schema, #v[.zero, ⟨5⟩], .empty, .ofNames schema.locks⟩
  let before := Host.empty.replaceBoard (.fresh "B" schema)
  let host := before.replaceBoard b
  have hosted : host.boards.get? "B" = some b := Table.get?_insert_self _ _ _
  have performs : before.perform Host.Method.counterAdd.name
      [.string "B", CounterId.toJson ⟨1⟩, Host.intJson 5] =
        some (.answer (.ok (Host.intJson 5)) host) := by
    have hostedBefore : before.boards.get? "B" = some (.fresh "B" schema) :=
      Table.get?_insert_self _ _ _
    have added : (Board.fresh "B" schema).addCounter ⟨1⟩ 5 = .ok (5, b) := rfl
    have comes := Host.comesTo_counterAdd (.fresh "B" schema) "B" ⟨1⟩ 5
    rw [added] at comes
    exact comes.perform_ok hostedBefore
  have conveys : host.Conveys Host.Method.attach.name (Host.attachArguments "B" schema) :=
    Host.conveys_attach (by decide +kernel) (by decide +kernel)
  obtain ⟨log, s, reached, obtained, found, hosts⟩ := reached_sharing ⟨"node", "handler"⟩
    "127.0.0.1:4000" 2 hello welcome performs hosted rfl conveys
  have readsAll : Route.Carries ⟨0, .tcp "127.0.0.1:4000" 0⟩ s.fleet
      Host.Method.counterReadAll.name [.string "B"] := by
    intro there isThere
    rw [hosts] at isThere
    cases isThere
    exact Host.conveys_readAll hosted (by decide +kernel) (by decide +kernel)
  have sizes : Route.Carries ⟨0, .tcp "127.0.0.1:4000" 0⟩ s.fleet
      Host.Method.mapSize.name [.string "B"] := by
    intro there isThere
    rw [hosts] at isThere
    cases isThere
    exact Host.conveys_size hosted (by decide) (by decide +kernel) (by decide +kernel)
  obtain ⟨p, route, _, _, isProcess, leads, -, isHost, alsoHosted, alike⟩ :=
    handles_alike reached obtained
  cases found.symm.trans isProcess
  cases leads
  rw [hosts] at isHost
  cases isHost
  cases hosted.symm.trans alsoHosted
  obtain ⟨values, fleet, ran, -, lists⟩ := alike.readAll readsAll
  obtain ⟨summary, last, summed, -, same⟩ := alike.summary readsAll sizes
  exact ⟨log, s, _, values, summary, host, fleet, last, reached, obtained, rfl, hosts, ran, lists.names,
    lists.entries 0 (by decide), lists.entries 1 (by decide), summed, same .inProcess⟩

end Federation

end Coordination
