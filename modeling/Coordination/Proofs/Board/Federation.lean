import Coordination.Proofs.Board.Directory

/-!
What has come about from the start. There is at most one handle for each process, name and transport,
and its schema is that of the board for ever. So host and process agree about any other schema, and what
they refuse changes nothing.
-/

namespace Coordination

namespace Federation

/-! What is always so. -/

/-- The handles of a process are for boards that are there, with their schemas. -/
structure Served (fleet : Fleet) (p : Process) : Prop where
  isOpen : ∀ route ∈ p.routes, route.IsOpen fleet
  handle : ∀ name transport handle, p.directory.instance? name transport = some handle →
    ∃ route b, p.route? transport = some route ∧ fleet.board? route.place name = some b ∧
      handle = p.makeHandle name b.schema route

theorem Served.onward {fleet fleet' : Fleet} {p : Process} (served : Served fleet p)
    (onward : fleet.Onward fleet') : Served fleet' p where
  isOpen route member := onward.isOpen route (served.isOpen route member)
  handle name transport handle known := by
    obtain ⟨route, b, leads, hosted, rfl⟩ := served.handle name transport handle known
    obtain ⟨later, stillHosted, -, schema⟩ := onward.keeps route.place name b hosted
    exact ⟨route, later, leads, stillHosted, by rw [schema]⟩

/-- The process with this number has got this handle before. -/
def Obtained (log : List (Event × Finding)) (process : Nat) (name : String) (transport : Transport)
    (handle : Handle Fleet) : Prop :=
  ∃ schema, (.getInstance process name transport schema, some (.ok handle)) ∈ log

theorem obtained_concat {log : List (Event × Finding)} {event : Event} {finding : Finding}
    {process : Nat} {name : String} {transport : Transport} {handle : Handle Fleet} :
    Obtained (log ++ [(event, finding)]) process name transport handle ↔
      Obtained log process name transport handle ∨
        ∃ schema, event = .getInstance process name transport schema ∧
          finding = some (.ok handle) := by
  simp only [Obtained, List.mem_append, List.mem_singleton, Prod.mk.injEq, exists_or, @eq_comm _ event,
    @eq_comm _ finding]

theorem step_call {s next : Federation} (live : s.fleet.Live) {route : Route} {method : String}
    {args : List Json} {finding : Finding} (allowed : s.Allows (.call route method args))
    (stepped : s.step (.call route method args) = some (finding, next)) :
    ∃ host outcome after millis fleet, finding = none ∧ next = { s with fleet } ∧
      s.fleet.hosts[route.place]? = some host ∧
      host.perform method args = some ⟨.answered outcome, after, millis⟩ ∧
      s.fleet.After route.place after fleet := by
  obtain ⟨isOpen, carries⟩ := allowed
  obtain ⟨⟨_, fleet⟩, invoked, rest⟩ := Option.bind_eq_some_iff.mp stepped
  cases rest
  obtain ⟨host, isHost, ⟨outcome, after, millis, _, performed, alsoInvoked, afterCall⟩ |
    ⟨-, waiting⟩⟩ := Route.answers live isOpen carries
  · cases invoked.symm.trans alsoInvoked
    exact ⟨host, outcome, after, millis, fleet, rfl, rfl, isHost, performed, afterCall⟩
  · cases invoked.symm.trans waiting

structure Sound (log : List (Event × Finding)) (s : Federation) : Prop where
  live : s.fleet.Live
  served : ∀ (process : Nat) (p : Process), s.processes[process]? = some p → Served s.fleet p
  logged : ∀ (process : Nat) (p : Process), s.processes[process]? = some p →
    ∀ name transport handle, p.directory.instance? name transport = some handle ↔
      Obtained log process name transport handle
  inside : ∀ process name transport handle, Obtained log process name transport handle →
    process < s.processes.length

theorem sound_start (services : List Service) : Sound [] (start services) where
  live cluster member := by
    obtain ⟨service, -, rfl⟩ := List.mem_map.mp member
    exact Cluster.live_start service
  served _ _ found := nomatch found
  logged _ _ found := nomatch found
  inside _ _ _ _ obtained := absurd obtained.choose_spec List.not_mem_nil

section

variable {log : List (Event × Finding)} {s next : Federation} (sound : Sound log s) {event : Event}

include sound

/-- Nothing is new to the processes. -/
theorem Sound.onward {fleet : Fleet} (onward : s.fleet.Onward fleet) {finding : Finding}
    (nothing : ∀ handle, finding ≠ some (.ok handle)) :
    Sound (log ++ [(event, finding)]) { s with fleet } := by
  have same {process : Nat} {name : String} {transport : Transport} {handle : Handle Fleet} :
      Obtained (log ++ [(event, finding)]) process name transport handle ↔
        Obtained log process name transport handle := by
    rw [obtained_concat, or_iff_left]
    rintro ⟨schema, -, got⟩
    exact nothing handle got
  refine ⟨onward.live, ?_, ?_, ?_⟩
  · exact fun process p found => (sound.served process p found).onward onward
  · intro process p found name transport handle
    rw [same]
    exact sound.logged process p found name transport handle
  · intro process name transport handle obtained
    exact sound.inside process name transport handle (same.mp obtained)

theorem Sound.join (clientId : String) (lockTimeout : Option UInt64) {routes : List Route}
    (isOpen : ∀ route ∈ routes, route.IsOpen s.fleet) :
    Sound (log ++ [(.join clientId lockTimeout routes, none)])
      { s with processes := s.processes ++ [⟨clientId, lockTimeout, routes, []⟩] } := by
  have same {process : Nat} {name : String} {transport : Transport} {handle : Handle Fleet} :
      Obtained (log ++ [(.join clientId lockTimeout routes, none)]) process name transport handle ↔
        Obtained log process name transport handle := by
    rw [obtained_concat, or_iff_left]
    rintro ⟨schema, asked, -⟩
    cases asked
  refine ⟨sound.live, ?_, ?_, ?_⟩
  · intro process p found
    rcases old_or_last found with old | ⟨-, rfl⟩
    · exact sound.served process p old
    · exact ⟨isOpen, fun _ _ _ known => nomatch known⟩
  · intro process p found name transport handle
    rw [same]
    rcases old_or_last found with old | ⟨rfl, rfl⟩
    · exact sound.logged process p old name transport handle
    · refine ⟨fun known => (nomatch known), fun obtained => ?_⟩
      exact absurd (sound.inside _ name transport handle obtained) (Nat.lt_irrefl _)
  · intro process name transport handle obtained
    have inside := sound.inside process name transport handle (same.mp obtained)
    exact inside.trans_le (by simp)

theorem Sound.made {process : Nat} {p : Process} (found : s.processes[process]? = some p)
    {name : String} {transport : Transport} {schema : Schema} {route : Route}
    (leads : p.route? transport = some route) (new : p.directory.instance? name transport = none)
    {fleet : Fleet} (onward : s.fleet.Onward fleet) {b : Board}
    (hosted : fleet.board? route.place name = some b) (same : b.schema = schema) :
    Sound (log ++ [(.getInstance process name transport schema,
        some (.ok (p.makeHandle name schema route)))])
      ⟨fleet, s.processes.set process
        (p.withHandle name transport (p.makeHandle name schema route))⟩ := by
  obtain ⟨inside, -⟩ := List.getElem?_eq_some_iff.mp found
  have self (q : Process) : (s.processes.set process q)[process]? = some q :=
    List.getElem?_set_self inside
  refine ⟨onward.live, ?_, ?_, ?_⟩
  · intro other q isOther
    by_cases itself : other = process
    · subst itself
      cases (self _).symm.trans isOther
      have served := (sound.served other p found).onward onward
      refine ⟨served.isOpen, ?_⟩
      intro anyName anyTransport handle known
      rw [Process.instance?_withHandle] at known
      split at known
      · rename_i key
        obtain ⟨rfl, rfl⟩ := key
        cases known
        exact ⟨route, b, leads, hosted, by rw [same]; rfl⟩
      · exact served.handle anyName anyTransport handle known
    · rw [List.getElem?_set_ne (Ne.symm itself)] at isOther
      exact (sound.served other q isOther).onward onward
  · intro other q isOther anyName anyTransport handle
    rw [obtained_concat]
    by_cases itself : other = process
    · subst itself
      cases (self _).symm.trans isOther
      rw [Process.instance?_withHandle, ← sound.logged other p found]
      by_cases key : anyName = name ∧ anyTransport = transport
      · obtain ⟨rfl, rfl⟩ := key
        rw [if_pos ⟨rfl, rfl⟩, new]
        simp
      · rw [if_neg key, or_iff_left]
        rintro ⟨_, asked, -⟩
        cases asked
        exact key ⟨rfl, rfl⟩
    · rw [List.getElem?_set_ne (Ne.symm itself)] at isOther
      rw [sound.logged other q isOther, or_iff_left]
      rintro ⟨_, asked, -⟩
      cases asked
      exact itself rfl
  · intro other anyName anyTransport handle obtained
    rw [List.length_set]
    rcases obtained_concat.mp obtained with old | ⟨_, asked, -⟩
    · exact sound.inside other anyName anyTransport handle old
    · cases asked
      exact inside

theorem Sound.known {process : Nat} {p : Process} (found : s.processes[process]? = some p)
    {name : String} {transport : Transport} {schema : Schema} {handle : Handle Fleet}
    (known : p.directory.instance? name transport = some handle) :
    Sound (log ++ [(.getInstance process name transport schema, some (.ok handle))]) s := by
  have already := (sound.logged process p found name transport handle).mp known
  have same {other : Nat} {anyName : String} {anyTransport : Transport} {anyHandle : Handle Fleet} :
      Obtained (log ++ [(.getInstance process name transport schema, some (.ok handle))])
        other anyName anyTransport anyHandle ↔ Obtained log other anyName anyTransport anyHandle := by
    rw [obtained_concat, or_iff_left_of_imp]
    rintro ⟨_, asked, got⟩
    cases asked
    cases got
    exact already
  refine ⟨sound.live, sound.served, ?_, ?_⟩
  · intro other q isOther anyName anyTransport anyHandle
    rw [same]
    exact sound.logged other q isOther anyName anyTransport anyHandle
  · intro other anyName anyTransport anyHandle obtained
    exact sound.inside other anyName anyTransport anyHandle (same.mp obtained)

theorem Sound.gets {process : Nat} {p : Process} (found : s.processes[process]? = some p)
    {name : String} {transport : Transport} {schema : Schema} {finding : Finding}
    (gets : Gets s process p name transport schema finding next) :
    Sound (log ++ [(.getInstance process name transport schema, finding)]) next := by
  cases gets with
  | noRoute | otherSchema => exact sound.onward (.refl sound.live) nofun
  | known leads known same => exact sound.known found known
  | made leads new isHost attached afterCall =>
      obtain ⟨kept, b, hosted, same⟩ := Host.keeps_attach attached
      have there := (Fleet.board?_of_host (afterCall.host isHost) name).trans hosted
      exact sound.made found leads new (afterCall.onward isHost kept) there same
  | refused leads new isHost failed afterCall =>
      exact sound.onward (afterCall.onward isHost (Host.keeps_refl _)) nofun

theorem Sound.step (allowed : s.Allows event) {finding : Finding}
    (stepped : s.step event = some (finding, next)) : Sound (log ++ [(event, finding)]) next := by
  cases event with
  | connect place address clientId poolSize =>
      obtain ⟨hello, welcome⟩ := allowed
      obtain ⟨cluster, found, connecting⟩ := Option.bind_eq_some_iff.mp stepped
      have live := sound.live cluster (List.mem_of_getElem? found)
      obtain ⟨channel, later, connects, alive, host, clients⟩ :=
        live.connect address poolSize hello (welcome cluster found)
      rw [connects] at connecting
      cases connecting
      have isHost : s.fleet.hosts[place]? = some cluster.host := by
        rw [Fleet.getElem?_hosts, found, Option.map_some]
      have afterCall := Fleet.after_set sound.live found alive (by omega)
      exact sound.onward (afterCall.onward isHost (host ▸ Host.keeps_refl _)) nofun
  | join clientId lockTimeout routes =>
      cases stepped
      exact sound.join clientId lockTimeout allowed
  | getInstance process name transport schema =>
      obtain ⟨p, found, -⟩ := Option.bind_eq_some_iff.mp stepped
      obtain ⟨_, _, asked, gets⟩ :=
        Federation.gets sound.live found (sound.served process p found).isOpen allowed
      cases stepped.symm.trans asked
      exact sound.gets found gets
  | call route method args =>
      obtain ⟨_, _, _, _, _, rfl, rfl, isHost, performed, afterCall⟩ :=
        step_call sound.live allowed stepped
      exact sound.onward (afterCall.onward isHost (Host.keeps_perform performed)) nofun

end

theorem Reached.sound {services : List Service} {log : List (Event × Finding)} {s : Federation}
    (reached : Reached services log s) : Sound log s := by
  induction reached with
  | start => exact sound_start services
  | step _ allowed stepped sound => exact sound.step allowed stepped

/-! What it comes to. -/

/-- What asking for a handle comes to, for the process and for everybody else. -/
structure Asked (log : List (Event × Finding)) (s : Federation) (process : Nat) (p : Process)
    (name : String) (transport : Transport) (schema : Schema) (result : Except Fault (Handle Fleet))
    (next : Federation) : Prop where
  succeeds : (∃ handle, result = .ok handle) ↔
    ∃ route, p.route? transport = some route ∧
      ∀ b, s.fleet.board? route.place name = some b → b.schema = schema
  refusal : ∀ fault, result = .error fault →
    fault = if p.route? transport = none then Directory.noTransport name transport
      else .schemaMismatch name
  unchanged : ∀ fault, result = .error fault →
    next.processes = s.processes ∧ next.fleet.hosts = s.fleet.hosts
  same : ∀ handle, result = .ok handle →
    ∀ earlier, Obtained log process name transport earlier → earlier = handle
  boards : ∀ place other b, s.fleet.board? place other = some b →
    next.fleet.board? place other = some b

theorem Sound.asked {log : List (Event × Finding)} {s next : Federation} (sound : Sound log s)
    {process : Nat} {p : Process} (found : s.processes[process]? = some p) {name : String}
    {transport : Transport} {schema : Schema} {finding : Finding}
    (gets : Gets s process p name transport schema finding next) :
    ∃ result, finding = some result ∧ Asked log s process p name transport schema result next := by
  -- Whatever handle there is, its schema is that of the board.
  have schemaOf {route : Route} {handle : Handle Fleet} (leads : p.route? transport = some route)
      (known : p.directory.instance? name transport = some handle) :
      ∃ b, s.fleet.board? route.place name = some b ∧ handle.schema = b.schema := by
    obtain ⟨_, b, alsoLeads, hosted, rfl⟩ :=
      (sound.served process p found).handle name transport handle known
    cases leads.symm.trans alsoLeads
    exact ⟨b, hosted, rfl⟩
  cases gets with
  | noRoute nowhere =>
      refine ⟨_, rfl, ?_, ?_, fun _ _ => ⟨rfl, rfl⟩, nofun, fun _ _ _ hosted => hosted⟩
      · refine ⟨nofun, ?_⟩
        rintro ⟨route, leads, -⟩
        cases nowhere.symm.trans leads
      · rintro fault ⟨⟩
        rw [if_pos nowhere]
  | @known route handle leads known same =>
      obtain ⟨b, hosted, ofBoard⟩ := schemaOf leads known
      refine ⟨_, rfl, ?_, nofun, nofun, ?_, fun _ _ _ hosted => hosted⟩
      · refine ⟨fun _ => ⟨route, leads, ?_⟩, fun _ => ⟨handle, rfl⟩⟩
        intro other alsoHosted
        cases hosted.symm.trans alsoHosted
        exact ofBoard.symm.trans same
      · rintro _ ⟨⟩ earlier obtained
        exact Option.some.inj
          (((sound.logged process p found name transport earlier).mpr obtained).symm.trans known)
  | @otherSchema route handle leads known differs =>
      obtain ⟨b, hosted, ofBoard⟩ := schemaOf leads known
      refine ⟨_, rfl, ?_, ?_, fun _ _ => ⟨rfl, rfl⟩, nofun, fun _ _ _ hosted => hosted⟩
      · refine ⟨nofun, ?_⟩
        rintro ⟨other, alsoLeads, agree⟩
        cases leads.symm.trans alsoLeads
        exact absurd (ofBoard.trans (agree b hosted)) differs
      · rintro fault ⟨⟩
        rw [leads, if_neg nofun]
  | @made route host after fleet leads new isHost attached afterCall =>
      refine ⟨_, rfl, ?_, nofun, nofun, ?_, ?_⟩
      · refine ⟨fun _ => ⟨route, leads, ?_⟩, fun _ => ⟨_, rfl⟩⟩
        rw [Fleet.board?_of_host isHost]
        exact Host.attach_eq_ok_iff.mp ⟨after, attached⟩
      · intro handle _ earlier obtained
        cases new.symm.trans ((sound.logged process p found name transport earlier).mpr obtained)
      · intro place other b hosted
        rw [afterCall.board? isHost]
        split
        · rename_i here
          rw [here, Fleet.board?_of_host isHost] at hosted
          rw [Host.get?_attach attached, if_neg, hosted]
          rintro ⟨rfl, absent⟩
          cases absent.symm.trans hosted
        · exact hosted
  | @refused route host fleet leads new isHost failed afterCall =>
      have hosts := afterCall.hosts_of_same isHost
      refine ⟨_, rfl, ?_, ?_, fun _ _ => ⟨rfl, hosts⟩, nofun, ?_⟩
      · refine ⟨nofun, ?_⟩
        rintro ⟨other, alsoLeads, agree⟩
        cases leads.symm.trans alsoLeads
        rw [Fleet.board?_of_host isHost] at agree
        obtain ⟨after, attached⟩ := Host.attach_eq_ok_iff.mpr agree
        cases failed.symm.trans attached
      · rintro fault ⟨⟩
        rw [leads, if_neg nofun]
      · intro place other b hosted
        rw [Fleet.board?, hosts]
        exact hosted

section

variable {services : List Service} {log : List (Event × Finding)} {s : Federation}
  (reached : Reached services log s)

include reached

theorem Reached.called {route : Route} {method : String} {args : List Json}
    (isOpen : route.IsOpen s.fleet) (carries : route.Carries s.fleet method args) {host after : Host}
    (isHost : s.fleet.hosts[route.place]? = some host) {outcome : Except Refusal Json} {millis : Nat}
    (performs : host.perform method args = some ⟨.answered outcome, after, millis⟩) :
    ∃ fleet, Reached services (log ++ [(.call route method args, none)]) { s with fleet } ∧
      s.fleet.After route.place after fleet := by
  obtain ⟨fleet, invoked, afterCall⟩ :=
    Route.answers_of_perform reached.sound.live isOpen carries isHost performs
  refine ⟨fleet, reached.step ⟨isOpen, carries⟩ ?_, afterCall⟩
  rw [Federation.step, invoked]
  rfl

theorem Reached.got {process : Nat} {p : Process} (found : s.processes[process]? = some p)
    {name : String} {transport : Transport} {schema : Schema} {route : Route}
    (leads : p.route? transport = some route) (new : p.directory.instance? name transport = none)
    (carries : route.Carries s.fleet Host.Method.attach.name (Host.attachArguments name schema))
    {host after : Host} (isHost : s.fleet.hosts[route.place]? = some host)
    (attaches : host.attach name schema = .ok after) :
    ∃ log fleet,
      Reached services log ⟨fleet, s.processes.set process
        (p.withHandle name transport (p.makeHandle name schema route))⟩ ∧
      Obtained log process name transport (p.makeHandle name schema route) ∧
      s.fleet.After route.place after fleet := by
  have allowed : s.Allows (.getInstance process name transport schema) := by
    intro q other alsoFound alsoLeads
    cases found.symm.trans alsoFound
    cases leads.symm.trans alsoLeads
    exact carries
  obtain ⟨finding, next, stepped, got⟩ :=
    gets reached.sound.live found (reached.sound.served process p found).isOpen allowed
  have reachedNext := reached.step allowed stepped
  cases got with
  | noRoute nowhere => cases leads.symm.trans nowhere
  | known _ known | otherSchema _ known => cases new.symm.trans known
  | made alsoLeads _ alsoHost attached afterCall =>
      cases leads.symm.trans alsoLeads
      cases isHost.symm.trans alsoHost
      cases attaches.symm.trans attached
      have last := List.mem_append_right log (List.mem_singleton_self
        (Event.getInstance process name transport schema,
          some (Except.ok (p.makeHandle name schema route))))
      exact ⟨_, _, reachedNext, ⟨schema, last⟩, afterCall⟩
  | refused alsoLeads _ alsoHost failed =>
      cases leads.symm.trans alsoLeads
      cases isHost.symm.trans alsoHost
      cases attaches.symm.trans failed

end

/-! A process beside its host, and one at a distance. -/

def near : Process := ⟨"near", none, [⟨0, .inProcess⟩], []⟩

def far (address : String) : Process := ⟨"far", none, [⟨0, .tcp address 0⟩], []⟩

theorem reached_near_and_far (service : Service) (address : String) {clientId : String} (poolSize : Nat)
    (hello : (Message.hello protocolVersion clientId).Sendable)
    (welcome : (Message.welcome protocolVersion service.nodeId).Sendable) :
    ∃ log cluster, Reached [service] log ⟨[cluster], [near, far address]⟩ ∧ cluster.host = .empty := by
  obtain ⟨channel, cluster, connects, -, host, clients⟩ :=
    (Cluster.live_start service).connect address poolSize hello welcome
  have atStart : (start [service]).fleet[0]? = some (Cluster.start service true) := rfl
  have connected :
      Reached [service] [(.connect 0 address clientId poolSize, none)] ⟨[cluster], []⟩ := by
    refine Reached.step .start ⟨hello, ?_⟩ ?_
    · rintro _ ⟨⟩
      exact welcome
    · rw [step, atStart, Option.bind_eq_bind, Option.bind_some, connects]
      rfl
  have joined : Reached [service]
      [(.connect 0 address clientId poolSize, none), (.join "near" none [⟨0, .inProcess⟩], none)]
      ⟨[cluster], [near]⟩ :=
    connected.step (List.forall_mem_singleton.mpr ⟨cluster, rfl, trivial⟩) rfl
  have client : 0 < cluster.clients.length := by omega
  have bothJoined : Reached [service]
      [(.connect 0 address clientId poolSize, none), (.join "near" none [⟨0, .inProcess⟩], none),
        (.join "far" none [⟨0, .tcp address 0⟩], none)] ⟨[cluster], [near, far address]⟩ :=
    joined.step (List.forall_mem_singleton.mpr ⟨cluster, rfl, client⟩) rfl
  exact ⟨_, cluster, bothJoined, host.trans rfl⟩

/-- The near process has made a board. -/
theorem reached_hosting (service : Service) (address : String) {clientId : String} (poolSize : Nat)
    (hello : (Message.hello protocolVersion clientId).Sendable)
    (welcome : (Message.welcome protocolVersion service.nodeId).Sendable) (name : String)
    (schema : Schema) :
    ∃ log s handle, Reached [service] log s ∧ Obtained log 0 name .inProcess handle ∧
      s.processes[1]? = some (far address) ∧
      s.fleet.hosts = [Host.empty.replaceBoard (.fresh name schema)] := by
  obtain ⟨log, cluster, reached, host⟩ :=
    reached_near_and_far service address poolSize hello welcome
  have leads : near.route? .inProcess = some ⟨0, .inProcess⟩ := rfl
  have attaches : cluster.host.attach name schema =
      .ok (Host.empty.replaceBoard (.fresh name schema)) := by
    rw [host]
    rfl
  have found : [near, far address][0]? = some near := rfl
  obtain ⟨longer, fleet, next, obtained, afterCall⟩ :=
    reached.got found leads rfl (fun _ _ => trivial) rfl attaches
  exact ⟨longer, _, _, next, obtained, rfl, afterCall.hosts⟩

/-- The near process has made a board and called it; the far one has it as it is by now. -/
theorem reached_sharing (service : Service) (address : String) {clientId : String} (poolSize : Nat)
    (hello : (Message.hello protocolVersion clientId).Sendable)
    (welcome : (Message.welcome protocolVersion service.nodeId).Sendable) {name : String}
    {schema : Schema} {method : String} {args : List Json} {outcome : Except Refusal Json}
    {host : Host} {millis : Nat}
    (performs : (Host.empty.replaceBoard (.fresh name schema)).perform method args =
      some ⟨.answered outcome, host, millis⟩)
    {b : Board} (hosted : host.boards.get? name = some b) (same : b.schema = schema)
    (conveys : host.Conveys Host.Method.attach.name (Host.attachArguments name schema)) :
    let route : Route := ⟨0, .tcp address 0⟩
    let handle := (far address).makeHandle name schema route
    ∃ log s, Reached [service] log s ∧ Obtained log 1 name .tcp handle ∧
      s.processes[1]? = some ((far address).withHandle name .tcp handle) ∧ s.fleet.hosts = [host] := by
  intro route handle
  obtain ⟨_, s, _, reached, -, found, hosts⟩ :=
    reached_hosting service address poolSize hello welcome name schema
  have leads : (far address).route? .tcp = some route := rfl
  have isOpen : Route.IsOpen ⟨0, .inProcess⟩ s.fleet := by
    obtain ⟨cluster, there, -⟩ :=
      (reached.sound.served 1 _ found).isOpen route (Process.route?_mem leads)
    exact ⟨cluster, there, trivial⟩
  have isBefore : s.fleet.hosts[0]? = some (Host.empty.replaceBoard (.fresh name schema)) := by
    rw [hosts]
    rfl
  obtain ⟨fleet, reachedCall, afterCall⟩ := reached.called isOpen (fun _ _ => trivial) isBefore performs
  have hostsCall : fleet.hosts = [host] := by
    rw [afterCall.hosts, hosts]
    rfl
  have isHost : fleet.hosts[0]? = some host := by
    rw [hostsCall]
    rfl
  have carries : route.Carries fleet Host.Method.attach.name (Host.attachArguments name schema) := by
    intro there isThere
    cases isHost.symm.trans isThere
    exact conveys
  have attaches : host.attach name schema = .ok host := by
    rw [Host.attach_of_hosted hosted, if_pos same]
  obtain ⟨log, last, reachedLast, obtained, afterAttach⟩ :=
    reachedCall.got found leads rfl carries isHost attaches
  have inside := (List.getElem?_eq_some_iff.mp found).1
  exact ⟨log, _, reachedLast, obtained, List.getElem?_set_self inside,
    (afterAttach.hosts_of_same isHost).trans hostsCall⟩

end Federation

end Coordination
