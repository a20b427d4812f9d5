import Coordination.Proofs.Board.Fleet

/-!
Asking for handles. A handle is made when its process attaches the board for the first time; host and
process each refuse any other schema than the one they know.
-/

namespace Coordination

/-! Attaching. -/

theorem Host.perform_attachArguments (h : Host) (name : String) (schema : Schema) :
    h.perform Method.attach.name (attachArguments name schema) =
      match h.attach name schema with
      | .ok after => some (.answer (.ok .null) after)
      | .error fault => some (.answer (.error (.ofFault fault)) h) := by
  have decoded :
      argument Schema.decoder (attachArguments name schema) 1 Method.attach.name = .ok schema :=
    argument_eq_ok_iff.mpr ⟨schema.toJson, rfl, schema.decoder_toJson⟩
  rw [perform, handle_attach rfl, on_attachBoard decoded]
  cases attached : h.attach name schema with
  | ok after => rfl
  | error fault =>
      obtain rfl := fault_of_attach attached
      have portable : (Fault.schemaMismatch name).Portable := trivial
      simp only [reaction?, waited, Fault.ofFailure_ofFault portable]
      rfl

theorem Host.attach_cases (h : Host) (name : String) (schema : Schema) :
    (∃ after, h.attach name schema = .ok after) ∨
      h.attach name schema = .error (.schemaMismatch name) := by
  cases attached : h.attach name schema with
  | ok after => exact .inl ⟨after, rfl⟩
  | error fault => exact .inr (fault_of_attach attached ▸ rfl)

/-- A board is attached unless it is there with another schema. -/
theorem Host.attach_eq_ok_iff {h : Host} {name : String} {schema : Schema} :
    (∃ after, h.attach name schema = .ok after) ↔
      ∀ b, h.boards.get? name = some b → b.schema = schema := by
  rw [attach_eq]
  cases h.boards.get? name with
  | none => simp
  | some board => by_cases same : board.schema = schema <;> simp [same]

theorem Host.get?_attach {h after : Host} {name : String} {schema : Schema}
    (attached : h.attach name schema = .ok after) (other : String) :
    after.boards.get? other =
      if other = name ∧ h.boards.get? name = none then some (.fresh name schema)
      else h.boards.get? other := by
  rw [attach_eq] at attached
  cases found : h.boards.get? name with
  | none =>
      rw [found] at attached
      cases attached
      rw [get?_replaceBoard]
      exact if_congr (and_iff_left rfl).symm rfl rfl
  | some board =>
      rw [found] at attached
      dsimp only at attached
      split at attached
      · cases attached
        rw [if_neg fun both => Option.some_ne_none board both.2]
      · cases attached

theorem Handle.run_attach_route {h : Handle Fleet} {fleet : Fleet} {route : Route} (live : fleet.Live)
    (leads : h.channel = route.channel) (isOpen : route.IsOpen fleet)
    (carries : route.Carries fleet Host.Method.attach.name (Host.attachArguments h.name h.schema)) :
    ∃ host fleet', fleet.hosts[route.place]? = some host ∧
      ((∃ after, host.attach h.name h.schema = .ok after ∧
          h.attach.run.run fleet = some (.ok (), fleet') ∧ fleet.After route.place after fleet') ∨
        host.attach h.name h.schema = .error (.schemaMismatch h.name) ∧
          h.attach.run.run fleet = some (.error (.schemaMismatch h.name), fleet') ∧
          fleet.After route.place host fleet') := by
  have ran (result : Except Fault Json) (fleet' : Fleet)
      (called : (h.call Json.Decoder.json .attach [h.schema.toJson]).run.run fleet =
        some (result, fleet')) :
      h.attach.run.run fleet = some ((fun _ => ()) <$> result, fleet') := by
    rw [attach, ExceptT.run_map, StateT.run_map, called]
    rfl
  have performs (host : Host) := host.perform_attachArguments h.name h.schema
  obtain ⟨host, isHost, ⟨outcome, after, millis, fleet', performed, called, afterCall⟩ | ⟨waits, -⟩⟩ :=
    run_call_route live leads isOpen Json.Decoder.json carries
  · refine ⟨host, fleet', isHost, ?_⟩
    have answered := (performs host).symm.trans performed
    rcases host.attach_cases h.name h.schema with ⟨made, attached⟩ | failed
    · rw [attached] at answered
      cases answered
      rw [heard_told_ok] at called
      exact .inl ⟨after, attached, ran _ _ called, afterCall⟩
    · rw [failed] at answered
      cases answered
      have portable : (Fault.schemaMismatch h.name).Portable := trivial
      rw [heard_told_fault _ _ portable] at called
      exact .inr ⟨failed, ran _ _ called, afterCall⟩
  · have answered := (performs host).symm.trans waits
    rcases host.attach_cases h.name h.schema with ⟨made, attached⟩ | failed
    · rw [attached] at answered
      cases answered
    · rw [failed] at answered
      cases answered

theorem Host.validItems_attachArguments (name : String) (schema : Schema) :
    Json.ValidItems (attachArguments name schema) := by
  have texts (names : List String) : Json.ValidItems (names.map .string) := by
    induction names with
    | nil => trivial
    | cons _ _ induction => exact ⟨trivial, induction⟩
  have ascending : Ascending
      [("counters", Schema.namesJson schema.counters), ("locks", Schema.namesJson schema.locks)] :=
    List.pairwise_pair.mpr (by decide : compare "counters" "locks" = .lt)
  exact ⟨trivial, ⟨ascending, texts schema.counters, texts schema.locks, trivial⟩, trivial⟩

theorem Host.itemsNesting_attachArguments (name : String) (schema : Schema) :
    Json.itemsNesting (attachArguments name schema) = 2 := by
  have texts (names : List String) : Json.itemsNesting (names.map .string) = 0 := by
    induction names with
    | nil => rfl
    | cons _ _ induction => simp [Json.itemsNesting, Json.nesting, induction]
  simp [attachArguments, Schema.toJson, Schema.namesJson, Json.itemsNesting, Json.nesting,
    Json.membersNesting, texts]

/-- For attaching it is only a question of length. -/
theorem Host.conveys_attach {h : Host} {name : String} {schema : Schema}
    (call : (Message.bytes (.invoke 0 (.ofClass className) Method.attach.name
      (attachArguments name schema))).length + 8 ≤ Frame.maxBody)
    (refused : (Message.bytes (.reply 0
      (Channel.outcomeOf (.error (.ofFault (.schemaMismatch name)))) 0)).length + 8 ≤
        Frame.maxBody) :
    h.Conveys Method.attach.name (attachArguments name schema) where
  call := by
    have nested := itemsNesting_attachArguments name schema
    exact .invoke (validItems_attachArguments name schema) (by rw [nested]; decide) call
  reply := by
    intro outcome after millis performed
    rw [perform_attachArguments] at performed
    rcases h.attach_cases name schema with ⟨made, attached⟩ | failed
    · rw [attached] at performed
      cases performed
      have valid : Outcome.Valid (.ok .null) := trivial
      exact .reply valid (by decide) (by decide +kernel)
    · rw [failed] at performed
      cases performed
      exact .reply (Json.valid_variant (Json.valid_variant trivial))
        (by decide : 3 + 1 < Message.nestingBudget) refused

/-! Processes and their handles. -/

namespace Process

variable {p : Process}

theorem channel?_directory (p : Process) (transport : Transport) :
    p.directory.channel? transport = (p.route? transport).map Route.channel := by
  rw [Directory.channel?, directory, route?, List.find?_map]
  refine congrArg _ (congrFun (congrArg _ (funext fun route => ?_)) _)
  rw [Function.comp_apply, Route.transport_channel]

theorem route?_mem {transport : Transport} {route : Route} (leads : p.route? transport = some route) :
    route ∈ p.routes := List.mem_of_find?_eq_some leads

def makeHandle (p : Process) (name : String) (schema : Schema) (route : Route) : Handle Fleet :=
  ⟨name, schema, route.channel, p.clientId, p.lockTimeout⟩

def withHandle (p : Process) (name : String) (transport : Transport) (handle : Handle Fleet) :
    Process :=
  { p with handles := ((name, transport), handle) :: p.handles }

theorem instance?_withHandle (p : Process) (name : String) (transport : Transport)
    (handle : Handle Fleet) (other : String) (otherTransport : Transport) :
    (p.withHandle name transport handle).directory.instance? other otherTransport =
      if other = name ∧ otherTransport = transport then some handle
      else p.directory.instance? other otherTransport := by
  by_cases same : (other, otherTransport) = (name, transport)
  · cases same
    rw [if_pos ⟨rfl, rfl⟩]
    exact List.lookup_cons_self
  · have apart : ((other, otherTransport) == (name, transport)) = false := by simpa using same
    rw [if_neg fun both => same (by rw [both.1, both.2])]
    exact List.lookup_cons.trans (by rw [apart]; rfl)

end Process

namespace Federation

/-- What becomes of a process that asks for a handle. -/
inductive Gets (s : Federation) (process : Nat) (p : Process) (name : String) (transport : Transport)
    (schema : Schema) : Finding → Federation → Prop where
  | noRoute (nowhere : p.route? transport = none) :
      Gets s process p name transport schema
        (some (.error (Directory.noTransport name transport))) s
  | known {route : Route} {handle : Handle Fleet} (leads : p.route? transport = some route)
      (known : p.directory.instance? name transport = some handle) (same : handle.schema = schema) :
      Gets s process p name transport schema (some (.ok handle)) s
  | otherSchema {route : Route} {handle : Handle Fleet} (leads : p.route? transport = some route)
      (known : p.directory.instance? name transport = some handle) (differs : handle.schema ≠ schema) :
      Gets s process p name transport schema (some (.error (.schemaMismatch name))) s
  | made {route : Route} {host after : Host} {fleet : Fleet} (leads : p.route? transport = some route)
      (new : p.directory.instance? name transport = none)
      (isHost : s.fleet.hosts[route.place]? = some host)
      (attached : host.attach name schema = .ok after)
      (afterCall : s.fleet.After route.place after fleet) :
      Gets s process p name transport schema (some (.ok (p.makeHandle name schema route)))
        ⟨fleet, s.processes.set process
          (p.withHandle name transport (p.makeHandle name schema route))⟩
  | refused {route : Route} {host : Host} {fleet : Fleet} (leads : p.route? transport = some route)
      (new : p.directory.instance? name transport = none)
      (isHost : s.fleet.hosts[route.place]? = some host)
      (failed : host.attach name schema = .error (.schemaMismatch name))
      (afterCall : s.fleet.After route.place host fleet) :
      Gets s process p name transport schema (some (.error (.schemaMismatch name)))
        { s with fleet }

theorem gets {s : Federation} (live : s.fleet.Live) {process : Nat} {p : Process}
    (found : s.processes[process]? = some p) (isOpen : ∀ route ∈ p.routes, route.IsOpen s.fleet)
    {name : String} {transport : Transport} {schema : Schema}
    (allowed : s.Allows (.getInstance process name transport schema)) :
    ∃ finding next, s.step (.getInstance process name transport schema) = some (finding, next) ∧
      Gets s process p name transport schema finding next := by
  have stepped : s.step (.getInstance process name transport schema) =
      s.getInstance process p name transport schema := by
    rw [step, found]
    rfl
  rw [stepped, getInstance]
  -- A process whose handles are as they were is the same in its place.
  have kept (fleet : Fleet) :
      (⟨fleet, s.processes.set process { p with handles := p.directory.handles }⟩ : Federation) =
        { s with fleet } := by
    obtain ⟨inside, here⟩ := List.getElem?_eq_some_iff.mp found
    exact congrArg _ (here ▸ List.set_getElem_self inside)
  have channel := p.channel?_directory transport
  cases leads : p.route? transport with
  | none =>
      rw [leads, Option.map_none] at channel
      rw [Directory.run_ensureHandle_of_no_channel channel]
      exact ⟨_, _, rfl, (kept s.fleet).symm ▸ .noRoute leads⟩
  | some route =>
      rw [leads, Option.map_some] at channel
      cases known : p.directory.instance? name transport with
      | some handle =>
          rw [Directory.run_ensureHandle_of_handle channel known]
          by_cases same : handle.schema = schema
          · rw [if_pos same]
            exact ⟨_, _, rfl, (kept s.fleet).symm ▸ .known leads known same⟩
          · rw [if_neg same]
            exact ⟨_, _, rfl, (kept s.fleet).symm ▸ .otherSchema leads known same⟩
      | none =>
          have asked := (Directory.run_ensureHandle_of_no_handle channel known schema s.fleet).trans
            (Directory.run_makeHandle p.directory name transport (p.makeHandle name schema route) _)
          obtain ⟨host, fleet, isHost, ⟨after, attached, ran, afterCall⟩ | ⟨failed, ran, afterCall⟩⟩ :=
            Handle.run_attach_route (h := p.makeHandle name schema route) live rfl
              (isOpen route (Process.route?_mem leads)) (allowed p route found leads)
          · rw [asked.trans (congrArg _ ran)]
            exact ⟨_, _, rfl, .made leads known isHost attached afterCall⟩
          · rw [asked.trans (congrArg _ ran)]
            exact ⟨_, _, rfl, (kept fleet).symm ▸ .refused leads known isHost failed afterCall⟩

end Federation

end Coordination
