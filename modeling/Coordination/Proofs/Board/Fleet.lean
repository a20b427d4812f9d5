import Coordination.Proofs.Board.Cluster

/-!
Calls to the hosts of a fleet. A call changes the host that its route leads to, as the method does, and
nothing else that anybody could see; so the boards stay, and routes stay open.
-/

namespace Coordination

namespace Fleet

def Live (fleet : Fleet) : Prop := ∀ cluster ∈ fleet, cluster.Live

section

variable {fleet fleet' : Fleet} {place : Nat}

theorem getElem?_hosts (fleet : Fleet) (place : Nat) :
    fleet.hosts[place]? = (fleet[place]?).map Cluster.host := List.getElem?_map

theorem board?_eq_some_iff {name : String} {b : Board} :
    fleet.board? place name = some b ↔
      ∃ host, fleet.hosts[place]? = some host ∧ host.boards.get? name = some b :=
  Option.bind_eq_some_iff

theorem board?_of_host {host : Host} (found : fleet.hosts[place]? = some host) (name : String) :
    fleet.board? place name = host.boards.get? name := by
  rw [board?, found]
  rfl

theorem live_set (live : fleet.Live) {cluster : Cluster} (alive : cluster.Live) :
    Live (fleet.set place cluster) := by
  intro other member
  rcases List.mem_or_eq_of_mem_set member with old | rfl
  · exact live other old
  · exact alive

theorem hosts_set (cluster : Cluster) :
    hosts (fleet.set place cluster) = fleet.hosts.set place cluster.host := List.map_set

/-- One cluster may have gone on, with no client less. -/
theorem isOpen_set {route : Route} {cluster after : Cluster} (found : fleet[place]? = some cluster)
    (clients : cluster.clients.length ≤ after.clients.length) (isOpen : route.IsOpen fleet) :
    route.IsOpen (fleet.set place after) := by
  obtain ⟨there, isThere, wayOpen⟩ := isOpen
  by_cases same : route.place = place
  · rw [same, found] at isThere
    cases isThere
    refine ⟨after, ?_, ?_⟩
    · rw [same, List.getElem?_set_self (List.getElem?_eq_some_iff.mp found).1]
    · cases way : route.way with
      | inProcess => trivial
      | tcp address client =>
          rw [way] at wayOpen
          exact wayOpen.trans_le clients
  · exact ⟨there, (List.getElem?_set_ne (Ne.symm same)).trans isThere, wayOpen⟩

/-! Fleets that have gone on. -/

/-- No board is gone or has another schema, and no route is closed. -/
structure Onward (fleet fleet' : Fleet) : Prop where
  live : fleet'.Live
  isOpen : ∀ route : Route, route.IsOpen fleet → route.IsOpen fleet'
  keeps : ∀ place name b, fleet.board? place name = some b →
    ∃ later, fleet'.board? place name = some later ∧ Host.Continues b later

/-- The fleet after a call that left this host behind at this place. -/
structure After (fleet : Fleet) (place : Nat) (host : Host) (fleet' : Fleet) : Prop where
  live : fleet'.Live
  isOpen : ∀ route : Route, route.IsOpen fleet → route.IsOpen fleet'
  hosts : fleet'.hosts = fleet.hosts.set place host

theorem After.host {host after : Host} (afterCall : fleet.After place after fleet')
    (found : fleet.hosts[place]? = some host) : fleet'.hosts[place]? = some after := by
  rw [afterCall.hosts, List.getElem?_set_self (List.getElem?_eq_some_iff.mp found).1]

theorem After.hosts_of_same {host : Host} (afterCall : fleet.After place host fleet')
    (found : fleet.hosts[place]? = some host) : fleet'.hosts = fleet.hosts := by
  obtain ⟨inside, here⟩ := List.getElem?_eq_some_iff.mp found
  rw [afterCall.hosts, ← here, List.set_getElem_self]

theorem After.board? {host after : Host} (afterCall : fleet.After place after fleet')
    (found : fleet.hosts[place]? = some host) (other : Nat) (name : String) :
    fleet'.board? other name =
      if other = place then after.boards.get? name else fleet.board? other name := by
  by_cases same : other = place
  · rw [if_pos same, same, board?_of_host (afterCall.host found)]
  · rw [if_neg same, Fleet.board?, Fleet.board?, afterCall.hosts, List.getElem?_set_ne (Ne.symm same)]

theorem After.onward {host after : Host} (afterCall : fleet.After place after fleet')
    (found : fleet.hosts[place]? = some host) (kept : host.Keeps after) : fleet.Onward fleet' where
  live := afterCall.live
  isOpen := afterCall.isOpen
  keeps := by
    intro other name b hosted
    rw [afterCall.board? found]
    split
    · rename_i same
      rw [same, board?_of_host found] at hosted
      exact kept name b hosted
    · exact ⟨b, hosted, rfl, rfl⟩

theorem Onward.refl (live : fleet.Live) : fleet.Onward fleet :=
  ⟨live, fun _ isOpen => isOpen, fun _ _ b hosted => ⟨b, hosted, rfl, rfl⟩⟩

/-- A cluster that goes on with the same host. -/
theorem after_set (live : fleet.Live) {cluster later : Cluster} (found : fleet[place]? = some cluster)
    (alive : later.Live) (clients : cluster.clients.length ≤ later.clients.length) :
    fleet.After place later.host (fleet.set place later) :=
  ⟨live_set live alive, fun _ => isOpen_set found clients, hosts_set later⟩

end

end Fleet

/-! Calls by routes. -/

namespace Route

variable {fleet : Fleet} {route : Route} {method : String} {args : List Json}

@[simp] theorem transport_channel (route : Route) : route.channel.transport = route.way.transport := by
  obtain ⟨place, way⟩ := route
  cases way <;> rfl

/-- The call comes back with what the method answers on the host at the end of the route, or both have
to wait. -/
theorem answers (live : fleet.Live) (isOpen : route.IsOpen fleet)
    (carries : route.Carries fleet method args) :
    ∃ host, fleet.hosts[route.place]? = some host ∧
      ((∃ outcome after millis fleet', host.perform method args = some ⟨.answered outcome, after, millis⟩ ∧
          route.channel.invoke none (.ofClass Host.className) method args fleet =
            some (route.way.told outcome, fleet') ∧ fleet.After route.place after fleet') ∨
        host.perform method args = none ∧
          route.channel.invoke none (.ofClass Host.className) method args fleet = none) := by
  obtain ⟨cluster, found, wayOpen⟩ := isOpen
  have isHost : fleet.hosts[route.place]? = some cluster.host := by
    rw [Fleet.getElem?_hosts, found, Option.map_some]
  have alive := live cluster (List.mem_of_getElem? found)
  have invoked : route.channel.invoke none (.ofClass Host.className) method args fleet =
      (route.way.channel.invoke none (.ofClass Host.className) method args cluster).map
        fun result => (result.1, fleet.set route.place result.2) := by
    simp only [channel, Fleet.channelTo, found, Option.bind_eq_bind, Option.bind_some]
    cases route.way.channel.invoke none (.ofClass Host.className) method args cluster <;> rfl
  refine ⟨cluster.host, isHost, ?_⟩
  rcases alive.answers wayOpen (carries _ isHost) with
    ⟨outcome, after, millis, cluster', performed, answered, afterCall⟩ | ⟨waits, waiting⟩
  · refine .inl ⟨outcome, after, millis, fleet.set route.place cluster', performed, ?_, ?_⟩
    · rw [invoked, answered]
      rfl
    · exact afterCall.host ▸ Fleet.after_set live found afterCall.live afterCall.clients.ge
  · refine .inr ⟨waits, ?_⟩
    rw [invoked, waiting]
    rfl

theorem answers_of_perform (live : fleet.Live) (isOpen : route.IsOpen fleet)
    (carries : route.Carries fleet method args) {host after : Host}
    (isHost : fleet.hosts[route.place]? = some host) {outcome : Except Refusal Json} {millis : Nat}
    (performs : host.perform method args = some ⟨.answered outcome, after, millis⟩) :
    ∃ fleet', route.channel.invoke none (.ofClass Host.className) method args fleet =
        some (route.way.told outcome, fleet') ∧ fleet.After route.place after fleet' := by
  obtain ⟨there, isThere, ⟨_, _, _, fleet', performed, invoked, afterCall⟩ | ⟨waits, -⟩⟩ :=
    answers live isOpen carries
  all_goals cases isHost.symm.trans isThere
  · cases performs.symm.trans performed
    exact ⟨fleet', invoked, afterCall⟩
  · cases performs.symm.trans waits

end Route

/-! Calls through handles. -/

namespace Handle

open Json (Decoder)

variable {ω α : Type}

/-- What a caller makes of what comes back. -/
def heard (decode : Decoder α) : Outcome → Except Fault α
  | .ok value => decoded decode value
  | .error failure => .error (Fault.ofFailure failure)

theorem run_call_eq (h : Handle ω) (decode : Decoder α) (method : Host.Method) (args : List Json)
    (world : ω) :
    (h.call decode method args).run.run world =
      (h.channel.invoke none (.ofClass Host.className) method.name (.string h.name :: args) world).map
        fun (outcome, after) => (heard decode outcome, after) := by
  simp only [call, ExceptT.run_bind, ExceptT.run_lift, StateT.run_bind, StateT.run_map]
  rw [StateT.run]
  cases h.channel.invoke none (.ofClass Host.className) method.name (.string h.name :: args) world with
  | none => rfl
  | some result =>
      obtain ⟨outcome, after⟩ := result
      cases outcome <;> rfl

theorem run_call_route {h : Handle Fleet} {fleet : Fleet} {route : Route} (live : fleet.Live)
    (leads : h.channel = route.channel) (isOpen : route.IsOpen fleet) (decode : Decoder α)
    {method : Host.Method} {args : List Json}
    (carries : route.Carries fleet method.name (.string h.name :: args)) :
    ∃ host, fleet.hosts[route.place]? = some host ∧
      ((∃ outcome after millis fleet',
          host.perform method.name (.string h.name :: args) =
            some ⟨.answered outcome, after, millis⟩ ∧
          (h.call decode method args).run.run fleet =
            some (heard decode (route.way.told outcome), fleet') ∧
          fleet.After route.place after fleet') ∨
        host.perform method.name (.string h.name :: args) = none ∧
          (h.call decode method args).run.run fleet = none) := by
  have ran := h.run_call_eq decode method args fleet
  rw [leads] at ran
  obtain ⟨host, isHost, ⟨outcome, after, millis, fleet', performed, invoked, afterCall⟩ |
    ⟨waits, waiting⟩⟩ := Route.answers live isOpen carries
  · rw [invoked] at ran
    exact ⟨host, isHost, .inl ⟨outcome, after, millis, fleet', performed, ran, afterCall⟩⟩
  · rw [waiting] at ran
    exact ⟨host, isHost, .inr ⟨waits, ran⟩⟩

theorem heard_told_ok (decode : Decoder α) (way : Way) (value : Json) :
    heard decode (way.told (.ok value)) = decoded decode value := by
  cases way <;> rfl

theorem heard_told_fault (decode : Decoder α) (way : Way) {fault : Fault}
    (portable : fault.Portable) : heard decode (way.told (.error (.ofFault fault))) = .error fault := by
  have recovered := Fault.ofFailure_ofFault portable
  have same : Outcome.delivered (Channel.outcomeOf (.error (.ofFault fault))) =
      Channel.outcomeOf (.error (.ofFault fault)) := by
    cases fault <;> rfl
  cases way with
  | inProcess => exact congrArg Except.error recovered
  | tcp address client =>
      rw [Way.told, same]
      exact congrArg Except.error recovered

end Handle

end Coordination
