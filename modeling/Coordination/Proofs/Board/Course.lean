import Coordination.Proofs.Board.Reach
import Coordination.Proofs.Board.Transcript

/-!
What goes on in a federation, as one board sees it: the operations that processes perform on it through
their handles, over whatever route, between calls that have to do with other boards.
-/

namespace Coordination

/-- A call to a host that has come back, or an operation on a board. -/
inductive Incident where
  | call (place : Nat) (method : String) (args : List Json)
  | operation (place : Nat) (board : String) (operation : Operation)
      (result : Except Fault Answer)

namespace Incident

/-- Nobody but the processes, through their handles, has to do with the board of this name. -/
def Spares (place : Nat) (name : String) : Incident → Prop
  | .call there _ args => there = place → args[0]? ≠ some (.string name)
  | .operation .. => True

def noted? (place : Nat) (name : String) : Incident → Option (Operation × Answer)
  | .operation there board performed (.ok answer) =>
      if there = place ∧ board = name then some (performed, answer) else none
  | _ => none

end Incident

/-- The operations that were answered on one board. -/
def Transcript.ofIncidents (place : Nat) (name : String) (incidents : List Incident) : Transcript :=
  incidents.filterMap (Incident.noted? place name)

@[simp] theorem Transcript.ofIncidents_append (place : Nat) (name : String)
    (first second : List Incident) :
    ofIncidents place name (first ++ second) =
      ofIncidents place name first ++ ofIncidents place name second :=
  List.filterMap_append

theorem Transcript.ofIncidents_singleton (place : Nat) (name : String) (incident : Incident) :
    ofIncidents place name [incident] = (incident.noted? place name).toList := by
  cases entry : incident.noted? place name <;> simp [ofIncidents, entry]

namespace Federation

/-- The process with this number has this handle, and by this route it calls. -/
def Uses (s : Federation) (process : Nat) (name : String) (transport : Transport)
    (handle : Handle Fleet) (route : Route) : Prop :=
  ∃ p, s.processes[process]? = some p ∧ p.directory.instance? name transport = some handle ∧
    p.route? transport = some route

def Event.incidents : Event → List Incident
  | .call route method args => [.call route.place method args]
  | .connect .. | .join .. | .getInstance .. => []

/-- What comes about by events and by operations, whoever they are of. An operation that has to wait has
not come back. -/
inductive Course (start : Federation) : List Incident → Federation → Prop where
  | nothing : Course start [] start
  | event {incidents : List Incident} {s next : Federation} {event : Event} {finding : Finding}
      (course : Course start incidents s) (allowed : s.Allows event)
      (stepped : s.step event = some (finding, next)) : Course start (incidents ++ event.incidents) next
  | operation {incidents : List Incident} {s : Federation} {process : Nat} {name : String}
      {transport : Transport} {handle : Handle Fleet} {route : Route} {operation : Operation}
      {result : Except Fault Answer} {fleet : Fleet}
      (course : Course start incidents s) (uses : s.Uses process name transport handle route)
      (carried : operation.CarriedBy handle route s.fleet)
      (performed : (operation.perform handle).run.run s.fleet = some (result, fleet)) :
      Course start (incidents ++ [.operation route.place name operation result]) { s with fleet }

end Federation

theorem Transcript.ofIncidents_event (place : Nat) (name : String) (event : Federation.Event) :
    ofIncidents place name event.incidents = [] := by
  cases event <;> rfl

/-! One operation. -/

namespace Handle

variable {h : Handle Fleet} {fleet fleet' : Fleet} {route : Route} {host : Host} {b : Board}
  {operation : Operation}

/-- What comes of an operation through a handle, by what it comes to on the board that the handle is
for. -/
inductive Performs (h : Handle Fleet) (fleet : Fleet) (place : Nat) (b : Board)
    (operation : Operation) : Prop where
  | waits (onBoard : operation.onBoard h.clientId h.lockTimeout b = none)
      (ran : (operation.perform h).run.run fleet = none)
  | failed (fault : Fault) (fleet' : Fleet)
      (onBoard : operation.onBoard h.clientId h.lockTimeout b = some (.error fault))
      (ran : (operation.perform h).run.run fleet = some (.error fault, fleet'))
      (hosts : fleet'.hosts = fleet.hosts)
  | done (answer : Answer) (next : Board) (fleet' : Fleet)
      (onBoard : operation.onBoard h.clientId h.lockTimeout b = some (.ok (answer, next)))
      (ran : (operation.perform h).run.run fleet = some (.ok answer, fleet'))
      (boards : ∀ there name, fleet'.board? there name =
        if there = place ∧ name = h.name then some next else fleet.board? there name)

theorem Reaches.performs (reaches : h.Reaches fleet route host b)
    (carried : operation.CarriedBy h route fleet) : Performs h fleet route.place b operation := by
  rcases reaches.run_perform carried with ⟨direct, fleet', onBoard, ran, afterCall⟩ | ⟨onBoard, waits⟩
  · cases direct with
    | error fault => exact .failed fault fleet' onBoard ran (afterCall.hosts_of_same reaches.isHost)
    | ok direct =>
        refine .done direct.1 direct.2 fleet' onBoard ran fun there name => ?_
        have named : direct.2.name = h.name :=
          (Operation.continues_onBoard onBoard).1.trans (host.named h.name b reaches.hosted)
        rw [afterCall.board? reaches.isHost]
        by_cases here : there = route.place
        · rw [if_pos here, here, Fleet.board?_of_host reaches.isHost]
          change (host.replaceBoard direct.2).boards.get? name = _
          rw [Host.get?_replaceBoard, named]
          simp only [true_and]
        · rw [if_neg here, if_neg (fun both => here both.1)]
  · exact .waits onBoard waits

end Handle

namespace Federation

variable {services : List Service} {log : List (Event × Finding)} {s next : Federation}

/-! One event. -/

theorem Sound.board?_of_event (sound : Sound log s) {event : Event} {finding : Finding}
    (allowed : s.Allows event) (stepped : s.step event = some (finding, next)) {place : Nat}
    {name : String} (spare : ∀ incident ∈ event.incidents, incident.Spares place name) {b : Board}
    (hosted : s.fleet.board? place name = some b) : next.fleet.board? place name = some b := by
  cases event with
  | connect there address clientId poolSize =>
      obtain ⟨hello, welcome⟩ := allowed
      obtain ⟨cluster, found, connecting⟩ := Option.bind_eq_some_iff.mp stepped
      have live := sound.live cluster (List.mem_of_getElem? found)
      obtain ⟨channel, later, connects, -, host, -⟩ :=
        live.connect address poolSize hello (welcome cluster found)
      rw [connects] at connecting
      cases connecting
      have isHost : s.fleet.hosts[there]? = some later.host := by
        rw [Fleet.getElem?_hosts, found, Option.map_some, host]
      obtain ⟨inside, here⟩ := List.getElem?_eq_some_iff.mp isHost
      rw [Fleet.board?, Fleet.hosts_set, ← here, List.set_getElem_self]
      exact hosted
  | join clientId lockTimeout routes =>
      cases stepped
      exact hosted
  | getInstance process other transport schema =>
      obtain ⟨p, found, -⟩ := Option.bind_eq_some_iff.mp stepped
      obtain ⟨_, _, asked, got⟩ :=
        Federation.gets sound.live found (sound.served process p found).isOpen allowed
      cases stepped.symm.trans asked
      obtain ⟨_, -, asked⟩ := sound.asked found got
      exact asked.boards place name b hosted
  | call route method args =>
      obtain ⟨host, outcome, after, millis, fleet, rfl, rfl, isHost, performed, afterCall⟩ :=
        step_call sound.live allowed stepped
      rw [afterCall.board? isHost]
      split
      · rename_i here
        rw [here, Fleet.board?_of_host isHost] at hosted
        rcases Host.within_perform performed with rfl | ⟨_, -, other, given, others, -⟩
        · exact hosted
        · rw [others name, hosted]
          rintro rfl
          exact spare _ List.mem_cons_self here.symm given
      · exact hosted

theorem Uses.of_event {event : Event} {finding : Finding} {process : Nat} {name : String}
    {transport : Transport} {handle : Handle Fleet} {route : Route} (sound : Sound log s)
    (allowed : s.Allows event) (stepped : s.step event = some (finding, next))
    (uses : s.Uses process name transport handle route) :
    next.Uses process name transport handle route := by
  obtain ⟨p, found, known, leads⟩ := uses
  cases event with
  | connect there address clientId poolSize =>
      obtain ⟨_, -, connecting⟩ := Option.bind_eq_some_iff.mp stepped
      obtain ⟨_, -, rest⟩ := Option.bind_eq_some_iff.mp connecting
      cases rest
      exact ⟨p, found, known, leads⟩
  | join clientId lockTimeout routes =>
      cases stepped
      refine ⟨p, ?_, known, leads⟩
      rw [List.getElem?_append_left (List.getElem?_eq_some_iff.mp found).1, found]
  | getInstance asker other otherTransport schema =>
      obtain ⟨q, isAsker, -⟩ := Option.bind_eq_some_iff.mp stepped
      obtain ⟨_, _, asked, got⟩ :=
        Federation.gets sound.live isAsker (sound.served asker q isAsker).isOpen allowed
      cases stepped.symm.trans asked
      cases got with
      | noRoute | known | otherSchema | refused => exact ⟨p, found, known, leads⟩
      | made _ new =>
          by_cases itself : process = asker
          · subst itself
            cases found.symm.trans isAsker
            refine ⟨_, List.getElem?_set_self (List.getElem?_eq_some_iff.mp found).1, ?_, leads⟩
            rw [Process.instance?_withHandle, if_neg, known]
            rintro ⟨rfl, rfl⟩
            cases new.symm.trans known
          · exact ⟨p, (List.getElem?_set_ne (Ne.symm itself)).trans found, known, leads⟩
  | call called method args =>
      obtain ⟨_, _, _, _, fleet, rfl, rfl, -⟩ := step_call sound.live allowed stepped
      exact ⟨p, found, known, leads⟩

/-! A handle that a process has. -/

theorem Sound.reaches (sound : Sound log s) {process : Nat} {name : String} {transport : Transport}
    {handle : Handle Fleet} {route : Route} (uses : s.Uses process name transport handle route) :
    handle.name = name ∧ ∃ host b, handle.Reaches s.fleet route host b := by
  obtain ⟨p, found, known, leads⟩ := uses
  have served := sound.served process p found
  obtain ⟨_, b, alsoLeads, atPlace, rfl⟩ := served.handle name transport handle known
  cases leads.symm.trans alsoLeads
  obtain ⟨host, isHost, hosted⟩ := Fleet.board?_eq_some_iff.mp atPlace
  exact ⟨rfl, host, b, sound.live, rfl, served.isOpen route (Process.route?_mem leads), isHost, hosted,
    rfl⟩

theorem Sound.behind (sound : Sound log s) {process : Nat} {name : String} {transport : Transport}
    {handle : Handle Fleet} {route : Route} (uses : s.Uses process name transport handle route) :
    handle.name = name ∧ ∃ b, s.fleet.board? route.place name = some b ∧ handle.schema = b.schema := by
  obtain ⟨rfl, host, b, reaches⟩ := sound.reaches uses
  refine ⟨rfl, b, ?_, reaches.schema⟩
  rw [Fleet.board?_of_host reaches.isHost, reaches.hosted]

theorem Sound.performs (sound : Sound log s) {process : Nat} {name : String} {transport : Transport}
    {handle : Handle Fleet} {route : Route} (uses : s.Uses process name transport handle route)
    {operation : Operation} (carried : operation.CarriedBy handle route s.fleet) {b : Board}
    (hosted : s.fleet.board? route.place name = some b) :
    handle.Performs s.fleet route.place b operation := by
  obtain ⟨rfl, host, _, reaches⟩ := sound.reaches uses
  rw [Fleet.board?_of_host reaches.isHost, reaches.hosted] at hosted
  cases hosted
  exact reaches.performs carried

/-- An operation is a call that anybody could make, or nothing at all. -/
theorem Reached.performed (reached : Reached services log s) {process : Nat} {name : String}
    {transport : Transport} {handle : Handle Fleet} {route : Route}
    (uses : s.Uses process name transport handle route) {operation : Operation}
    (carried : operation.CarriedBy handle route s.fleet) {result : Except Fault Answer} {fleet : Fleet}
    (performed : (operation.perform handle).run.run s.fleet = some (result, fleet)) :
    ∃ more, Reached services (log ++ more) { s with fleet } := by
  obtain ⟨-, host, b, reaches⟩ := reached.sound.reaches uses
  have asks := handle.asks_perform operation
  cases refusal : operation.undeclared? handle.name handle.schema with
  | some fault =>
      rw [refusal] at asks
      cases performed.symm.trans (asks s.fleet)
      exact ⟨[], by rwa [List.append_nil]⟩
  | none =>
      rw [refusal] at asks
      have invoked := (asks s.fleet).symm.trans performed
      obtain ⟨⟨outcome, after⟩, invoked, same⟩ := Option.map_eq_some_iff.mp invoked
      cases same
      rw [reaches.leads] at invoked
      have allowed : s.Allows (.call route operation.method.name
          (.string handle.name :: operation.arguments handle)) := ⟨reaches.isOpen, carried refusal⟩
      have stepped : s.step (.call route operation.method.name
          (.string handle.name :: operation.arguments handle)) = some (none, { s with fleet }) := by
        rw [Federation.step, invoked]
        rfl
      exact ⟨_, reached.step allowed stepped⟩

/-! Whole courses. -/

variable {incidents : List Incident}

theorem Course.reached (course : Course s incidents next) (reached : Reached services log s) :
    ∃ more, Reached services (log ++ more) next := by
  induction course with
  | nothing => exact ⟨[], by rwa [List.append_nil]⟩
  | event _ allowed stepped induction =>
      obtain ⟨more, reached⟩ := induction
      exact ⟨_, List.append_assoc log more _ ▸ reached.step allowed stepped⟩
  | operation _ uses carried performed induction =>
      obtain ⟨more, reached⟩ := induction
      obtain ⟨last, reached⟩ := reached.performed uses carried performed
      exact ⟨_, List.append_assoc log more last ▸ reached⟩

theorem Course.uses (course : Course s incidents next) (reached : Reached services log s)
    {process : Nat} {name : String} {transport : Transport} {handle : Handle Fleet} {route : Route}
    (uses : s.Uses process name transport handle route) :
    next.Uses process name transport handle route := by
  induction course with
  | nothing => exact uses
  | event course allowed stepped induction =>
      obtain ⟨_, reachedNow⟩ := course.reached reached
      exact induction.of_event reachedNow.sound allowed stepped
  | operation _ _ _ _ induction => exact induction

/-- A board comes to what it is by the operations of its transcript. -/
theorem Course.undergoes (course : Course s incidents next) (reached : Reached services log s)
    {place : Nat} {name : String} {b : Board} (hosted : s.fleet.board? place name = some b)
    (spare : ∀ incident ∈ incidents, incident.Spares place name) :
    ∃ after, next.fleet.board? place name = some after ∧
      b.Undergoes (Transcript.ofIncidents place name incidents) after := by
  induction course with
  | nothing => exact ⟨b, hosted, .nothing⟩
  | @event incidents _ _ event _ course allowed stepped induction =>
      obtain ⟨earlier, last⟩ := List.forall_mem_append.mp spare
      obtain ⟨_, reachedNow⟩ := course.reached reached
      obtain ⟨now, hostedNow, undergone⟩ := induction earlier
      refine ⟨now, reachedNow.sound.board?_of_event allowed stepped last hostedNow, ?_⟩
      rwa [Transcript.ofIncidents_append, Transcript.ofIncidents_event, List.append_nil]
  | @operation incidents _ _ board _ _ route operation result _ course uses carried performed
      induction =>
      obtain ⟨earlier, -⟩ := List.forall_mem_append.mp spare
      obtain ⟨_, reachedNow⟩ := course.reached reached
      obtain ⟨now, hostedNow, undergone⟩ := induction earlier
      obtain ⟨named, b, there, -⟩ := reachedNow.sound.behind uses
      rw [Transcript.ofIncidents_append, Transcript.ofIncidents_singleton]
      cases reachedNow.sound.performs uses carried there with
      | waits _ waits => cases performed.symm.trans waits
      | failed _ _ _ ran hosts =>
          cases performed.symm.trans ran
          refine ⟨now, ?_, ?_⟩
          · rwa [Fleet.board?, hosts]
          · change Board.Undergoes _ (_ ++ []) now
            rwa [List.append_nil]
      | done answer after _ onBoard ran boards =>
          cases performed.symm.trans ran
          rw [boards, named, Incident.noted?]
          by_cases here : place = route.place ∧ name = board
          · obtain ⟨rfl, rfl⟩ := here
            cases hostedNow.symm.trans there
            rw [if_pos ⟨rfl, rfl⟩, if_pos ⟨rfl, rfl⟩]
            exact ⟨after, rfl, undergone.operation onBoard⟩
          · rw [if_neg here, if_neg (fun same => here ⟨same.1.symm, same.2.symm⟩)]
            refine ⟨now, hostedNow, ?_⟩
            rwa [Option.toList_none, List.append_nil]

end Federation

/-! A board in two hands. -/

/-- What succeeds is only to be short enough. -/
theorem Operation.carriedBy_answered {operation : Operation} {h : Handle Fleet} {route : Route}
    {fleet : Fleet} {b : Board} {v : Json} (hosted : fleet.board? route.place h.name = some b)
    (performs : ∀ host : Host, host.boards.get? h.name = some b → ∃ after,
      host.perform operation.method.name (.string h.name :: operation.arguments h) =
        some (.answer (.ok v) after))
    (call : ∀ callId, (Message.invoke callId (.ofClass Host.className) operation.method.name
      (.string h.name :: operation.arguments h)).Sendable)
    (reply : ∀ callId, (Message.reply callId (.ok v) 0).Sendable) :
    operation.CarriedBy h route fleet := by
  intro _ host isHost
  rw [Fleet.board?_of_host isHost] at hosted
  cases route.way with
  | inProcess => trivial
  | tcp address client =>
      obtain ⟨_, performs⟩ := performs host hosted
      exact Host.conveys_answered performs call reply

namespace Federation

variable {services : List Service} {log : List (Event × Finding)} {s next : Federation}
  {incidents : List Incident}

/-- A process beside a board and one at a distance have it, and nobody has used it yet. -/
theorem reached_in_common {name : String} {schema : Schema}
    (conveys : (Host.empty.replaceBoard (.fresh name schema)).Conveys Host.Method.attach.name
      (Host.attachArguments name schema)) :
    let address := "127.0.0.1:4000"
    let route : Route := ⟨0, .tcp address 0⟩
    ∃ log s, Reached [⟨"node", "handler"⟩] log s ∧
      s.Uses 0 name .inProcess (near.makeHandle name schema ⟨0, .inProcess⟩) ⟨0, .inProcess⟩ ∧
      s.Uses 1 name .tcp ((far address).makeHandle name schema route) route ∧
      s.fleet.board? 0 name = some (.fresh name schema) := by
  intro address route
  have hello : (Message.hello protocolVersion "far").Sendable := ⟨trivial, by decide, by decide +kernel⟩
  have welcome : (Message.welcome protocolVersion "node").Sendable :=
    ⟨trivial, by decide, by decide +kernel⟩
  obtain ⟨log, cluster, reached, host⟩ :=
    reached_near_and_far ⟨"node", "handler"⟩ address 2 hello welcome
  let made := Host.empty.replaceBoard (.fresh name schema)
  have attaches : cluster.host.attach name schema = .ok made := by
    rw [host]
    rfl
  have isNear : [near, far address][0]? = some near := rfl
  have nearLeads : near.route? .inProcess = some ⟨0, .inProcess⟩ := rfl
  obtain ⟨_, fleet, reachedNear, -, afterNear⟩ :=
    reached.got isNear nearLeads rfl (fun _ _ => trivial) rfl attaches
  have isHost : fleet.hosts[0]? = some made := afterNear.host rfl
  have carries : route.Carries fleet Host.Method.attach.name (Host.attachArguments name schema) := by
    intro there isThere
    cases isHost.symm.trans isThere
    exact conveys
  have again : made.attach name schema = .ok made := by
    rw [Host.attach_of_hosted (Table.get?_insert_self _ _ _)]
    exact if_pos rfl
  have isFar : [near.withHandle name .inProcess (near.makeHandle name schema ⟨0, .inProcess⟩),
      far address][1]? = some (far address) := rfl
  have farLeads : (far address).route? .tcp = some route := rfl
  obtain ⟨longer, _, reachedBoth, -, afterFar⟩ :=
    reachedNear.got isFar farLeads rfl carries isHost again
  refine ⟨longer, _, reachedBoth, ⟨_, rfl, ?_, rfl⟩, ⟨_, rfl, ?_, rfl⟩, ?_⟩
  · rw [Process.instance?_withHandle, if_pos ⟨rfl, rfl⟩]
  · rw [Process.instance?_withHandle, if_pos ⟨rfl, rfl⟩]
  · change (Option.bind _ _) = _
    rw [afterFar.hosts_of_same isHost, isHost]
    exact Table.get?_insert_self _ _ _

/-- One more operation, by which its board changes to another one. -/
theorem Course.done {process : Nat} {name : String} {transport : Transport} {handle : Handle Fleet}
    {route : Route} {operation : Operation} {b after : Board} {answer : Answer}
    (course : Course s incidents next) (reached : Reached services log s)
    (uses : next.Uses process name transport handle route)
    (carried : operation.CarriedBy handle route next.fleet)
    (hosted : next.fleet.board? route.place name = some b)
    (onBoard : operation.onBoard handle.clientId handle.lockTimeout b = some (.ok (answer, after))) :
    ∃ fleet, Course s (incidents ++ [.operation route.place name operation (.ok answer)])
        { next with fleet } ∧
      (operation.perform handle).run.run next.fleet = some (.ok answer, fleet) ∧
      fleet.board? route.place name = some after := by
  obtain ⟨_, reachedNow⟩ := course.reached reached
  cases reachedNow.sound.performs uses carried hosted with
  | waits waits => cases onBoard.symm.trans waits
  | failed _ _ fails => cases onBoard.symm.trans fails
  | done _ _ fleet onBoardToo ran boards =>
      cases onBoard.symm.trans onBoardToo
      refine ⟨fleet, course.operation uses carried ran, ran, ?_⟩
      rw [boards, if_pos ⟨rfl, (reachedNow.sound.behind uses).1.symm⟩]

end Federation

end Coordination
