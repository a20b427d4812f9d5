import Coordination.Board.Cluster
import Coordination.Board.Operation
import Coordination.Proofs.Board.Host
import Coordination.Proofs.Fault

/-!
An operation through a handle in the process of its host comes to what it comes to on the board: the
arguments, the answer and the fault all survive their way as JSON values.
-/

namespace Coordination

/-! The host of a cluster. -/

namespace Cluster

@[simp] theorem withHost_withHost (c : Cluster) (first second : Host) :
    (c.withHost first).withHost second = c.withHost second := by
  simp [withHost, Dispatcher.registerClass]

@[simp] theorem host_withHost (c : Cluster) (host : Host) : (c.withHost host).host = host := by
  simp [Cluster.host, withHost, Dispatcher.registerClass]

theorem invoke_inProcess (c : Cluster) (host : Host) (method : String) (args : List Json) :
    inProcess.invoke none (.ofClass Host.className) method args (c.withHost host) =
      match host.perform method args with
      | some ⟨.answered outcome, after, _⟩ => some (Channel.outcomeOf outcome, c.withHost after)
      | _ => none := by
  have resolved : (c.withHost host).node.dispatcher.resolve (.ofClass Host.className) method =
      .ok (.ofClass Host.className, host) := by
    simp [Dispatcher.resolve, withHost, Dispatcher.registerClass]
  simp only [inProcess, Channel.within, Channel.inProcess, Channel.dispatchWithin,
    Dispatcher.dispatch, resolved, Servant.perform]
  cases performed : host.perform method args with
  | none => rfl
  | some reaction =>
      obtain ⟨ending, after, millis⟩ := reaction
      cases ending with
      | crashed text => rfl
      | answered outcome =>
          have replaced := c.withHost_withHost host after
          exact congrArg (fun cluster => some (Channel.outcomeOf outcome, cluster)) replaced

end Cluster

/-! What an access comes to. -/

/-- The access has the given result, and the host keeps the board that comes with it. -/
def Commits {α : Type} (c : Cluster) (host : Host) (access : Access Cluster α)
    (result : Option (Except Fault (α × Board))) : Prop :=
  access.run.run (c.withHost host) =
    result.map fun direct => ((host.commit direct).1, c.withHost (host.commit direct).2)

section Commits

variable {α β : Type} {c : Cluster} {host : Host}

theorem commits_throw (fault : Fault) :
    Commits c host (throw fault : Access Cluster α) (some (.error fault)) := rfl

theorem Commits.map {access : Access Cluster α} {result : Option (Except Fault (α × Board))}
    (commits : Commits c host access result) (f : α → β) :
    Commits c host (f <$> access)
      (result.map fun direct => (fun (a, after) => (f a, after)) <$> direct) := by
  unfold Commits at commits ⊢
  rw [ExceptT.run_map, StateT.run_map, commits]
  cases result with
  | none => rfl
  | some direct => cases direct <;> rfl

/-- The result of an operation that has nothing to say but leaves a board behind. -/
def leaving (a : α) (result : Option (Except Fault Board)) : Option (Except Fault (α × Board)) :=
  result.map fun direct => (fun after => (a, after)) <$> direct

theorem Commits.leaving {access : Access Cluster α} {a : α}
    {result : Option (Except Fault Board)} (commits : Commits c host access (leaving a result))
    (f : α → β) : Commits c host (f <$> access) (Coordination.leaving (f a) result) := by
  have mapped := commits.map f
  cases result with
  | none => exact mapped
  | some direct => cases direct <;> exact mapped

end Commits

/-! Methods that can be refused by the board, with arguments as handles give them. -/

namespace Host

section ComesTo

variable (b : Board) (board : String) (id : CounterId)

theorem comesTo_counterAdd (delta : Int64) :
    ComesTo b .counterAdd [.string board, id.toJson, intJson delta] intJson
      (b.addCounter id delta) := by
  have idRead : argument CounterId.decoder [.string board, id.toJson, intJson delta] 1
      Method.counterAdd.name = .ok id := by simp [argument]
  have deltaRead : argument Json.Decoder.int64 [.string board, id.toJson, intJson delta] 2
      Method.counterAdd.name = .ok delta := by simp [argument, intJson]
  exact (InPlace.on_ofResult_bind idRead _ b).trans <|
    (InPlace.on_ofResult_bind deltaRead _ b).trans <|
      on_raising_bind (b.spares_changeCounter _ id) intJson

theorem comesTo_counterRead :
    ComesTo b .counterRead [.string board, id.toJson] intJson
      ((fun value => (value, b)) <$> b.readCounter id) := by
  have idRead : argument CounterId.decoder [.string board, id.toJson] 1
      Method.counterRead.name = .ok id := by simp [argument]
  refine (InPlace.on_ofResult_bind idRead _ b).trans ((InPlace.on_get_bind _ b).trans ?_)
  cases b.readCounter id <;> rfl

theorem comesTo_counterRaise (candidate : Int64) :
    ComesTo b .counterRaise [.string board, id.toJson, intJson candidate] .bool
      (b.raiseCounter id candidate) := by
  have idRead : argument CounterId.decoder [.string board, id.toJson, intJson candidate] 1
      Method.counterRaise.name = .ok id := by simp [argument]
  have candidateRead : argument Json.Decoder.int64 [.string board, id.toJson, intJson candidate] 2
      Method.counterRaise.name = .ok candidate := by simp [argument, intJson]
  exact (InPlace.on_ofResult_bind idRead _ b).trans <|
    (InPlace.on_ofResult_bind candidateRead _ b).trans <|
      on_raising_bind (b.spares_counterRaise id candidate) .bool

theorem comesTo_counterZero :
    ComesTo b .counterZero [.string board, id.toJson] intJson (b.zeroCounter id) := by
  have idRead : argument CounterId.decoder [.string board, id.toJson] 1
      Method.counterZero.name = .ok id := by simp [argument]
  exact (InPlace.on_ofResult_bind idRead _ b).trans <|
    on_raising_bind (b.spares_changeCounter _ id) intJson

theorem comesTo_unlock (name owner : String) :
    ComesTo b .unlock [.string board, .string name, .string owner] (fun v => v)
      ((fun after => (Json.null, after)) <$> b.release name owner) := by
  have nameRead : argument Json.Decoder.string [.string board, .string name, .string owner] 1
      Method.unlock.name = .ok name := rfl
  have ownerRead : argument Json.Decoder.string [.string board, .string name, .string owner] 2
      Method.unlock.name = .ok owner := rfl
  refine (InPlace.on_ofResult_bind nameRead _ b).trans <|
    (InPlace.on_ofResult_bind ownerRead _ b).trans <|
      (on_raising_bind (b.spares_unlock name owner) fun _ => .null).trans ?_
  rw [Board.release, InPlace.final]
  cases (Board.unlock name owner).value b <;> rfl

end ComesTo

end Host

namespace Handle

open Json (Decoder)

variable {α : Type} {c : Cluster} {host : Host} {h : Handle Cluster} {b : Board}

/-- What a caller makes of a servant's answer. -/
def received (decode : Decoder α) : Except Refusal Json → Except Fault α
  | .ok value => decoded decode value
  | .error refusal => .error (Fault.ofFailure refusal.failure)

theorem received_fault (fault : Fault) (portable : fault.Portable) (decode : Decoder α) :
    received decode (.error (.ofFault fault)) = .error fault := by
  rw [received, Fault.ofFailure_ofFault portable]

theorem run_call (inProcess : h.channel = Cluster.inProcess) (decode : Decoder α)
    (method : Host.Method) (args : List Json) :
    (h.call decode method args).run.run (c.withHost host) =
      match host.perform method.name (.string h.name :: args) with
      | some ⟨.answered outcome, after, _⟩ => some (received decode outcome, c.withHost after)
      | _ => none := by
  simp only [call, inProcess, ExceptT.run_bind, ExceptT.run_lift, StateT.run_bind, StateT.run_map]
  rw [StateT.run, Cluster.invoke_inProcess]
  cases host.perform method.name (.string h.name :: args) with
  | none => rfl
  | some reaction =>
      obtain ⟨ending, after, millis⟩ := reaction
      cases ending with
      | crashed text => rfl
      | answered outcome => cases outcome <;> rfl

theorem run_attach (inProcess : h.channel = Cluster.inProcess) :
    h.attach.run.run (c.withHost host) =
      some (match host.attach h.name h.schema with
        | .ok after => (.ok (), c.withHost after)
        | .error fault => (.error fault, c.withHost host)) := by
  have given : [Json.string h.name, h.schema.toJson][0]? = some (.string h.name) := rfl
  have decoded : argument Schema.decoder [.string h.name, h.schema.toJson] 1
      Host.Method.attach.name = .ok h.schema :=
    argument_eq_ok_iff.mpr ⟨h.schema.toJson, rfl, h.schema.decoder_toJson⟩
  rw [attach, ExceptT.run_map, StateT.run_map, run_call inProcess, Host.perform,
    Host.handle_attach given, Host.on_attachBoard decoded]
  cases attached : host.attach h.name h.schema with
  | ok after => rfl
  | error fault =>
      obtain rfl := Host.fault_of_attach attached
      have refused := received_fault (.schemaMismatch h.name) trivial Json.Decoder.json
      simp only [Host.reaction?, refused]
      rfl

/-- The handle of a board that is there. -/
structure Attached (h : Handle Cluster) (host : Host) (b : Board) : Prop where
  inProcess : h.channel = Cluster.inProcess
  hosted : host.boards.get? h.name = some b
  schema : b.schema = h.schema

theorem Attached.name (attached : h.Attached host b) : b.name = h.name :=
  host.named h.name b attached.hosted

/-- An access that leaves its board as it was leaves everything as it was. -/
theorem Attached.run_unchanged {access : Access Cluster α} {a : α}
    (attached : h.Attached host b) (commits : Commits c host access (some (.ok (a, b)))) :
    access.run.run (c.withHost host) = some (.ok a, c.withHost host) := by
  have hosted : host.boards.get? b.name = some b := attached.name ▸ attached.hosted
  rw [commits, Option.map_some, Host.commit, Host.replaceBoard_of_hosted hosted]

theorem commits_call (attached : h.Attached host b) {method : Host.Method} {args : List Json}
    {decode : Decoder α} (toJson : α → Json) {result : Except Fault (α × Board)}
    (comes : Host.ComesTo b method (.string h.name :: args) toJson result)
    (accepted : ∀ a after, result = .ok (a, after) → decode (toJson a) = .ok a)
    (portable : ∀ fault, result = .error fault → fault.Portable) :
    Commits c host (h.call decode method args) (some result) := by
  rw [Commits, run_call attached.inProcess]
  cases result with
  | ok direct =>
      rw [comes.perform_ok attached.hosted]
      have answered : received decode (.ok (toJson direct.1)) = .ok direct.1 := by
        rw [received, decoded, accepted direct.1 direct.2 rfl]
        rfl
      exact congrArg (fun answer => some (answer, c.withHost (host.replaceBoard direct.2))) answered
  | error fault =>
      rw [comes.perform_error attached.hosted]
      have refused := received_fault fault (portable fault rfl) decode
      exact congrArg (fun answer => some (answer, c.withHost host)) refused

/-- A call that is answered on the board. -/
theorem commits_answer (attached : h.Attached host b) {method : Host.Method} {args : List Json}
    {decode : Decoder α} {v : Json} {a : α} {after : Board}
    (ran : (Host.carryOut method (.string h.name :: args)).on b = (.ok (some v), after))
    (accepted : decode v = .ok a) :
    Commits c host (h.call decode method args) (some (.ok (a, after))) := by
  refine commits_call attached (fun _ => v) ran ?_ ?_
  · rintro _ _ ⟨⟩
    exact accepted
  · rintro fault ⟨⟩

/-! Counters. -/

/-- A counter is refused by the handle if it is not declared, and then the board refuses it too. -/
theorem commits_callCounter (attached : h.Attached host b) {method : Host.Method} {id : CounterId}
    {args : List Json} {decode : Decoder α} (toJson : α → Json)
    {result : Except Fault (α × Board)}
    (comes : Host.ComesTo b method (.string h.name :: id.toJson :: args) toJson result)
    (accepted : ∀ a, decode (toJson a) = .ok a)
    (refused : ∀ fault, result = .error fault → fault = .unregisteredCounter b.name id.number)
    (undeclared : b.schema.hasCounter id = false →
      result = .error (.unregisteredCounter b.name id.number)) :
    Commits c host (h.callCounter decode method id args) (some result) := by
  cases declared : h.schema.hasCounter id with
  | true =>
      rw [callCounter, if_pos declared]
      refine commits_call attached toJson comes (fun a _ _ => accepted a) ?_
      intro fault failed
      rw [refused fault failed]
      trivial
  | false =>
      rw [undeclared (attached.schema ▸ declared), attached.name, callCounter, declared]
      exact commits_throw (.unregisteredCounter h.name id.number)

theorem commits_addAndRead (attached : h.Attached host b) (id : CounterId) (delta : Int64) :
    Commits c host (h.addAndRead id delta) (some (b.addCounter id delta)) := by
  refine commits_callCounter attached Host.intJson (Host.comesTo_counterAdd b h.name id delta)
    Json.Decoder.int64_integer ?_ ?_
  · intro fault failed
    exact Board.fault_of_applyCounter failed
  · intro undeclared
    exact Board.applyCounter_of_undeclared undeclared

theorem commits_read (attached : h.Attached host b) (id : CounterId) :
    Commits c host (h.read id) (some ((fun value => (value, b)) <$> b.readCounter id)) := by
  refine commits_callCounter attached Host.intJson (Host.comesTo_counterRead b h.name id)
    Json.Decoder.int64_integer ?_ ?_
  · intro fault failed
    exact Board.fault_of_readCounter (map_eq_error_iff.mp failed)
  · intro undeclared
    rw [Board.readCounter_of_undeclared undeclared, map_error]

theorem commits_setIfLarger (attached : h.Attached host b) (id : CounterId) (candidate : Int64) :
    Commits c host (h.setIfLarger id candidate) (some (b.raiseCounter id candidate)) := by
  refine commits_callCounter attached .bool (Host.comesTo_counterRaise b h.name id candidate)
    Json.Decoder.bool_bool ?_ ?_
  · intro fault failed
    rw [Board.raiseCounter_eq] at failed
    exact Board.fault_of_applyCounter (map_eq_error_iff.mp failed)
  · intro undeclared
    rw [Board.raiseCounter_eq, Board.applyCounter_of_undeclared undeclared, map_error]

theorem commits_zero (attached : h.Attached host b) (id : CounterId) :
    Commits c host (h.zero id) (some (b.zeroCounter id)) := by
  refine commits_callCounter attached Host.intJson (Host.comesTo_counterZero b h.name id)
    Json.Decoder.int64_integer ?_ ?_
  · intro fault failed
    exact Board.fault_of_applyCounter failed
  · intro undeclared
    exact Board.applyCounter_of_undeclared undeclared

theorem commits_readAll (attached : h.Attached host b) :
    Commits c host h.readAll (some (.ok (b.counterValues, b))) := by
  have called : Commits c host (h.call (Decoder.list Decoder.int64) .counterReadAll [])
      (some (.ok (b.counters.values, b))) :=
    commits_answer attached rfl (Json.Decoder.list_map Json.Decoder.int64_integer _)
  have shown : b.counterValues = h.schema.counters.zip b.counters.values := by
    rw [← attached.schema]
    rfl
  rw [shown]
  exact called.map h.schema.counters.zip

/-! Shared map. -/

theorem commits_put (attached : h.Attached host b) (key value : Json) :
    Commits c host (h.put key value) (some (.ok ((), (b.put (keyText key) value).2))) := by
  have called : Commits c host (h.call Decoder.json .mapPut [keyJson key, value])
      (some (.ok (.null, (b.put (keyText key) value).2))) := commits_answer attached rfl rfl
  exact called.map fun _ => ()

theorem get_json {ω : Type} (h : Handle ω) (key : Json) :
    h.get Decoder.json key = (fun (found, v) => if found then some v else none) <$>
      h.call (Decoder.pair Decoder.bool Decoder.json) .mapGet [keyJson key] := by
  rw [get, map_eq_pure_bind]
  refine congrArg (bind _) (funext fun (found, v) => ?_)
  cases found <;> rfl

theorem commits_get (attached : h.Attached host b) (key : Json) :
    Commits c host (h.get Decoder.json key) (some (.ok (b.entries.get? (keyText key), b))) := by
  have called : Commits c host
      (h.call (Decoder.pair Decoder.bool Decoder.json) .mapGet [keyJson key])
      (some (.ok
        ((b.entries.contains (keyText key), (b.entries.get? (keyText key)).getD .null), b))) :=
    commits_answer attached rfl (Json.Decoder.pair_array rfl rfl)
  have mapped := called.map fun (found, v) => if found then some v else none
  rw [← get_json, Table.contains] at mapped
  cases found : b.entries.get? (keyText key) with
  | none =>
      rw [found] at mapped
      exact mapped
  | some value =>
      rw [found] at mapped
      exact mapped

theorem commits_containsKey (attached : h.Attached host b) (key : Json) :
    Commits c host (h.containsKey key) (some (.ok (b.entries.contains (keyText key), b))) :=
  commits_answer attached rfl rfl

theorem commits_clear (attached : h.Attached host b) :
    Commits c host h.clear (some (.ok ((), b.clear))) := by
  have called : Commits c host (h.call Decoder.json .mapClear []) (some (.ok (.null, b.clear))) :=
    commits_answer attached rfl rfl
  exact called.map fun _ => ()

theorem commits_size (attached : h.Attached host b) :
    Commits c host h.size (some (.ok (b.entries.size, b))) :=
  commits_answer attached rfl (Json.Decoder.count_ofNat b.entries.size)

theorem commits_snapshot (attached : h.Attached host b) :
    Commits c host h.snapshot (some (.ok (b.entries.snapshot, b))) := by
  refine commits_answer attached rfl (Json.Decoder.list_map ?_ b.entries.snapshot)
  intro entry
  exact Json.Decoder.pair_array rfl rfl

/-! Locks. -/

theorem commits_callLock (attached : h.Attached host b) {method : Host.Method} {name : String}
    {args : List Json} {result : Option (Except Fault Board)}
    (undeclared : b.locks.holder? name = none →
      result = some (.error (.unknownLock b.name name)))
    (called : Commits c host
      (h.call Decoder.json method (.string name :: .string h.clientId :: args))
      (leaving .null result)) :
    Commits c host (h.callLock method name args) (leaving () result) := by
  cases declared : h.schema.hasLock name with
  | true =>
      rw [callLock, if_pos declared]
      exact called.leaving fun _ => ()
  | false =>
      have absent := Board.holder?_of_hasLock_false (attached.schema ▸ declared)
      rw [undeclared absent, attached.name, callLock, declared]
      exact commits_throw (.unknownLock h.name name)

theorem option_timeoutJson (timeout : Option UInt64) :
    Decoder.option Decoder.uint64 (timeoutJson timeout) = .ok timeout := by
  cases timeout with
  | none => rfl
  | some timeoutMs =>
      have decoded := Json.Decoder.uint64_ofNat timeoutMs
      exact congrArg (some <$> ·) decoded

/-- Taking a lock comes to what it comes to on the board, and to nothing yet where it has to be waited
for. -/
theorem perform_lock {name : String} (hosted : host.boards.get? name = some b) (lock owner : String)
    (timeout : Option UInt64) :
    host.perform Host.Method.lock.name
        [.string name, .string lock, .string owner, timeoutJson timeout] =
      (b.acquire lock owner timeout).map fun
        | .ok after => .answer (.ok .null) (host.replaceBoard after)
        | .error fault => ⟨.answered (.error (.ofFault fault)), host, Host.waited (.ofFault fault)⟩ := by
  obtain rfl := host.named name b hosted
  have timeoutRead : argument (Decoder.option Decoder.uint64)
      [.string b.name, .string lock, .string owner, timeoutJson timeout] 3 Host.Method.lock.name =
        .ok timeout :=
    argument_eq_ok_iff.mpr ⟨_, rfl, option_timeoutJson timeout⟩
  have ran : (Host.carryOut .lock
      [.string b.name, .string lock, .string owner, timeoutJson timeout]).on b = _ :=
    (InPlace.on_ofResult_bind rfl _ b).trans <| (InPlace.on_ofResult_bind rfl _ b).trans <|
      InPlace.on_ofResult_bind timeoutRead _ b
  have notAttach : Host.Method.lock ≠ .attach := nofun
  have same := Host.replaceBoard_of_hosted hosted
  rw [Host.perform_carryOut rfl hosted notAttach, ran, InPlace.on_bind, Host.raising,
    InPlace.on_mapFailure, Board.on_lock, Board.acquire_eq]
  cases b.locks.acquire lock owner with
  | granted locks => rfl
  | undeclared => exact congrArg (fun h => Host.reaction? (.error _, h)) same
  | held =>
      cases timeout with
      | none => rfl
      | some timeoutMs => exact congrArg (fun h => Host.reaction? (.error _, h)) same

theorem commits_lockFor (attached : h.Attached host b) (name : String) (timeout : Option UInt64) :
    Commits c host (h.callLock .lock name [timeoutJson timeout])
      (leaving () (b.acquire name h.clientId timeout)) := by
  refine commits_callLock attached ?_ ?_
  · intro undeclared
    exact Board.acquire_of_undeclared undeclared h.clientId timeout
  · unfold Commits
    rw [run_call attached.inProcess, perform_lock attached.hosted]
    cases found : b.locks.holder? name with
    | none =>
        simp only [Board.acquire_of_undeclared found, Option.map_some,
          received_fault (.unknownLock b.name name) trivial]
        rfl
    | some holder =>
        cases holder with
        | none =>
            simp only [Board.acquire_of_free found]
            rfl
        | some holder =>
            simp only [Board.acquire_of_held found]
            cases timeout with
            | none => rfl
            | some timeoutMs =>
                simp only [Option.map_some,
                  received_fault (.lockNotAcquired b.name name timeoutMs) trivial]
                rfl

theorem commits_unlock (attached : h.Attached host b) (name : String) :
    Commits c host (h.unlock name) (leaving () (some (b.release name h.clientId))) := by
  refine commits_callLock attached ?_ ?_
  · intro undeclared
    rw [Board.release_of_undeclared undeclared]
  · refine commits_call attached (fun v => v) (Host.comesTo_unlock b h.name name h.clientId)
      (fun _ _ _ => rfl) ?_
    intro fault failed
    have failed := map_eq_error_iff.mp failed
    cases found : b.locks.holder? name with
    | none =>
        rw [Board.release_of_undeclared found] at failed
        cases failed
        trivial
    | some holder =>
        rw [Board.fault_of_release found failed]
        trivial

/-! Any operation. -/

theorem commits_incrementBy (attached : h.Attached host b) (id : CounterId) (delta : Int64) :
    Commits c host ((fun _ => Answer.done) <$> h.incrementBy id delta)
      (some (Operation.answered (fun _ => .done) (b.addCounter id delta))) := by
  have added := commits_addAndRead (c := c) attached id delta
  have mapped := (added.map fun _ => ()).map fun _ => Answer.done
  generalize b.addCounter id delta = direct at mapped ⊢
  cases direct <;> exact mapped

theorem commits_perform (attached : h.Attached host b) (operation : Operation) :
    Commits c host (operation.perform h) (operation.onBoard h.clientId h.lockTimeout b) := by
  cases operation with
  | increment id => exact commits_incrementBy attached id 1
  | incrementBy id delta => exact commits_incrementBy attached id delta
  | decrement id => exact commits_incrementBy attached id (-1)
  | incrementAndRead id => exact (commits_addAndRead attached id 1).map Answer.number
  | addAndRead id delta => exact (commits_addAndRead attached id delta).map Answer.number
  | read id =>
      have mapped := (commits_read (c := c) attached id).map Answer.number
      change Commits c host _ (some ((fun value => (Answer.number value, b)) <$> b.readCounter id))
      generalize b.readCounter id = direct at mapped ⊢
      cases direct <;> exact mapped
  | setIfLarger id candidate => exact (commits_setIfLarger attached id candidate).map Answer.truth
  | zero id => exact (commits_zero attached id).map Answer.number
  | readAll => exact (commits_readAll attached).map Answer.values
  | put key value => exact (commits_put attached key value).map fun _ => Answer.done
  | get key => exact (commits_get attached key).map Answer.found
  | containsKey key => exact (commits_containsKey attached key).map Answer.truth
  | clear => exact (commits_clear attached).map fun _ => Answer.done
  | size => exact (commits_size attached).map Answer.count
  | snapshot => exact (commits_snapshot attached).map Answer.listing
  | lock name =>
      exact (commits_lockFor attached name h.lockTimeout).leaving fun _ => Answer.done
  | lockWithin name timeoutMs =>
      exact (commits_lockFor attached name (some timeoutMs)).leaving fun _ => Answer.done
  | unlock name => exact (commits_unlock attached name).leaving fun _ => Answer.done

end Handle

/-! Asking a directory. -/

namespace Directory

variable {ω : Type} {d : Directory ω} {name : String} {transport : Transport}

theorem run_get_bind {α : Type} (f : Directory ω × ω → Access (Directory ω × ω) α)
    (world : Directory ω × ω) : (get >>= f).run.run world = (f world).run.run world := by
  rw [ExceptT.run_bind, StateT.run_bind]
  rfl

/-- A handle whose board cannot be attached is not kept. -/
theorem run_makeHandle (d : Directory ω) (name : String) (transport : Transport) (handle : Handle ω)
    (world : ω) :
    (makeHandle name transport handle).run.run (d, world) =
      (handle.attach.run.run world).map fun (result, after) =>
        match result with
        | .ok _ =>
            (.ok handle, { d with handles := ((name, transport), handle) :: d.handles }, after)
        | .error fault => (.error fault, d, after) := by
  have attached : (beyond handle.attach).run.run (d, world) =
      (handle.attach.run.run world).map fun (result, after) => (result, d, after) := rfl
  rw [makeHandle, ExceptT.run_bind, StateT.run_bind, attached]
  rcases handle.attach.run.run world with _ | ⟨_ | _, after⟩ <;> rfl

theorem run_ensureHandle_of_no_channel (nowhere : d.channel? transport = none) (schema : Schema)
    (world : ω) :
    (ensureHandle name transport schema).run.run (d, world) =
      some (.error (noTransport name transport), d, world) := by
  rw [ensureHandle, run_get_bind]
  dsimp only
  rw [nowhere]
  rfl

section

variable {channel : Channel ω} (leads : d.channel? transport = some channel)

include leads

theorem run_ensureHandle_of_handle {handle : Handle ω} (known : d.instance? name transport = some handle)
    (schema : Schema) (world : ω) :
    (ensureHandle name transport schema).run.run (d, world) =
      some (if handle.schema = schema then .ok handle else .error (.schemaMismatch name),
        d, world) := by
  rw [ensureHandle, run_get_bind]
  dsimp only
  rw [leads, known]
  dsimp only
  split <;> rfl

theorem run_ensureHandle_of_no_handle (new : d.instance? name transport = none) (schema : Schema)
    (world : ω) :
    (ensureHandle name transport schema).run.run (d, world) =
      (makeHandle name transport ⟨name, schema, channel, d.clientId, d.lockTimeout⟩).run.run
        (d, world) := by
  rw [ensureHandle, run_get_bind]
  dsimp only
  rw [leads, new]

end

/-- Asking in vain spares the directory, so what asking comes to as a value says all about it. -/
theorem run_ensureHandle (d : Directory ω) (name : String) (transport : Transport) (schema : Schema)
    (world : ω) :
    (ensureHandle name transport schema).run.run (d, world) =
      ((d.getInstance name transport schema).run.run world).map fun (result, after) =>
        match result with
        | .ok (handle, next) => (.ok handle, next, after)
        | .error fault => (.error fault, d, after) := by
  have value : (d.getInstance name transport schema).run.run world =
      ((ensureHandle name transport schema).run.run (d, world)).map fun ran =>
        ((fun handle => (handle, ran.2.1)) <$> ran.1, ran.2.2) := rfl
  rw [value]
  cases leads : d.channel? transport with
  | none =>
      rw [run_ensureHandle_of_no_channel leads]
      rfl
  | some channel =>
      cases known : d.instance? name transport with
      | some handle =>
          rw [run_ensureHandle_of_handle leads known]
          split <;> rfl
      | none =>
          rw [run_ensureHandle_of_no_handle leads known, run_makeHandle]
          rcases Handle.attach _ |>.run.run world with _ | ⟨_ | _, after⟩ <;> rfl

end Directory

end Coordination
