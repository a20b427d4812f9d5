import Coordination.Board.Fleet
import Coordination.Proofs.Board.Frame
import Coordination.Proofs.Board.Handle
import Coordination.Proofs.Remote.Agreement
import Coordination.Proofs.Remote.Apart

/-!
A cluster that is alive: its host can be called, all its clients are in touch with its node, and no
session belongs to two of them. Every call leaves it alive, whichever way it takes, and does to the host
what the host's method does.
-/

namespace Coordination

theorem old_or_last {α : Type} {items : List α} {last a : α} {i : Nat}
    (found : (items ++ [last])[i]? = some a) : items[i]? = some a ∨ i = items.length ∧ a = last := by
  rw [List.getElem?_append] at found
  split at found
  · exact .inl found
  · rw [List.getElem?_singleton, Option.ite_none_right_eq_some, Option.some.injEq] at found
    exact .inr ⟨by omega, found.2.symm⟩

/-! The host behind its class name. -/

namespace Dispatcher

variable {d : Dispatcher Host} {host : Host}

theorem dispatch_host (hosting : d.classes.get? Host.className = some host) (method : String)
    (args : List Json) :
    d.dispatch (.ofClass Host.className) method args =
      (host.perform method args).map fun reaction =>
        reaction.map fun after => d.registerClass Host.className after := by
  have resolved : d.resolve (.ofClass Host.className) method = .ok (.ofClass Host.className, host) := by
    rw [resolve, hosting]
  rw [dispatch, resolved]
  rfl

theorem dispatchWithin_host (hosting : d.classes.get? Host.className = some host) (method : String)
    (args : List Json) :
    Channel.dispatchWithin none (.ofClass Host.className) method args d =
      match host.perform method args with
      | some ⟨.answered outcome, after, _⟩ =>
          some (Channel.outcomeOf outcome, d.registerClass Host.className after)
      | _ => none := by
  simp only [Channel.dispatchWithin, dispatch_host hosting]
  cases host.perform method args with
  | none => rfl
  | some reaction =>
      obtain ⟨ending, after, millis⟩ := reaction
      cases ending <;> rfl

end Dispatcher

theorem Host.ending_of_perform {h : Host} {method : String} {args : List Json} {ending : Ending}
    {after : Host} {millis : Nat} (performed : h.perform method args = some ⟨ending, after, millis⟩) :
    ∃ outcome, ending = .answered outcome := by
  have orderly := h.orderly_perform method args
  rw [performed] at orderly
  cases ending with
  | answered outcome => exact ⟨outcome, rfl⟩
  | crashed text => cases orderly

/-- What a caller is told on this way. -/
def Way.told (outcome : Except Refusal Json) : Way → Outcome
  | .inProcess => Channel.outcomeOf outcome
  | .tcp .. => Outcome.delivered (Channel.outcomeOf outcome)

namespace Cluster

structure Live (c : Cluster) : Prop where
  hosting : c.node.dispatcher.classes.get? Host.className = some c.host
  inTouch : ∀ client ∈ c.clients, client.InTouch c.node
  apart : ∀ (i j : Nat) (a b : Client), c.clients[i]? = some a → c.clients[j]? = some b → i ≠ j →
    ∀ first ∈ a.pool, ∀ second ∈ b.pool, first.number ≠ second.number

theorem live_start (service : Service) : (start service true).Live where
  hosting := by simp [start, host, Host.install, Dispatcher.registerClass]
  inTouch _ member := absurd member List.not_mem_nil
  apart _ _ _ _ found := nomatch found

variable {c : Cluster}

theorem Live.withHost_host (live : c.Live) : c.withHost c.host = c := by
  have hosting := live.hosting
  generalize c.host = host at hosting
  obtain ⟨⟨service, ⟨classes, functions, objects⟩, sessions⟩, clients⟩ := c
  simp only [withHost, Dispatcher.registerClass, Table.insert_of_get? hosting]

theorem Live.withHost (live : c.Live) (host : Host) : (c.withHost host).Live where
  hosting := by simp [Cluster.host, Cluster.withHost, Dispatcher.registerClass]
  inTouch client member :=
    (live.inTouch client member).of_same_sessions rfl (.refl _) rfl fun _ _ => rfl
  apart := live.apart

/-! Calls. -/

/-- The cluster after a call that left this host behind. -/
structure After (c : Cluster) (host : Host) (c' : Cluster) : Prop where
  live : c'.Live
  host : c'.host = host
  clients : c'.clients.length = c.clients.length

theorem Live.carries (live : c.Live) {client : Client} {method : String} {args : List Json}
    (conveys : c.host.Conveys method args) :
    Client.Carries client c.node (.ofClass Host.className) method args where
  invoke := conveys.call client.nextCallId
  answered := by
    intro ending after millis dispatched
    rw [Dispatcher.dispatch_host live.hosting] at dispatched
    obtain ⟨⟨ending, host, millis⟩, performed, same⟩ := Option.map_eq_some_iff.mp dispatched
    cases same
    obtain ⟨outcome, rfl⟩ := Host.ending_of_perform performed
    exact ⟨⟨outcome, rfl⟩, conveys.reply outcome host millis performed client.nextCallId⟩

/-- A client goes on with another state of the node that spares the sessions of all others. -/
theorem Live.replaceClient (live : c.Live) {index : Nat} {client client' : Client} {node : Node Host}
    (found : c.clients[index]? = some client) (inTouch : client'.InTouch node)
    (service : node.service = c.node.service)
    (spares : c.node.Spares (· ∉ client.pool.map (·.number)) node)
    (pool : ∀ kept ∈ client'.pool,
      kept.number ∈ client.pool.map (·.number) ∨ c.node.sessions.length ≤ kept.number)
    {host : Host} (hosting : node.dispatcher.classes.get? Host.className = some host) :
    Live ⟨node, c.clients.set index client'⟩ := by
  obtain ⟨inside, -⟩ := List.getElem?_eq_some_iff.mp found
  have aside (other : Nat) (d : Client) (isOther : c.clients[other]? = some d) (differs : other ≠ index)
      (connection : Connection) (member : connection ∈ d.pool) :
      connection.number < c.node.sessions.length ∧ connection.number ∉ client.pool.map (·.number) := by
    refine ⟨(live.inTouch d (List.mem_of_getElem? isOther)).number_lt member, ?_⟩
    rw [List.mem_map]
    rintro ⟨own, isOwn, same⟩
    exact live.apart index other client d found isOther differs.symm own isOwn connection member same
  have parted (other : Nat) (d : Client) (isOther : c.clients[other]? = some d) (differs : other ≠ index)
      (connection : Connection) (member : connection ∈ d.pool) (kept : Connection)
      (isKept : kept ∈ client'.pool) : kept.number ≠ connection.number := by
    obtain ⟨older, notOwn⟩ := aside other d isOther differs connection member
    intro same
    rcases pool kept isKept with own | new
    · exact notOwn (same ▸ own)
    · omega
  refine ⟨?_, ?_, ?_⟩
  · rw [hosting, Cluster.host, hosting]
    rfl
  · intro d member
    obtain ⟨other, isOther⟩ := List.getElem?_of_mem member
    by_cases same : other = index
    · subst same
      rw [List.getElem?_set_self inside] at isOther
      cases isOther
      exact inTouch
    · rw [List.getElem?_set_ne (Ne.symm same)] at isOther
      refine (live.inTouch d (List.mem_of_getElem? isOther)).of_same_sessions rfl (.refl _) service ?_
      intro connection pooled
      obtain ⟨older, notOwn⟩ := aside other d isOther same connection pooled
      exact spares.same connection.number older notOwn
  · intro i j a b isA isB differ first inA second inB
    by_cases iSame : i = index
    · subst iSame
      rw [List.getElem?_set_self inside] at isA
      cases isA
      rw [List.getElem?_set_ne differ] at isB
      exact parted j b isB differ.symm second inB first inA
    · rw [List.getElem?_set_ne (Ne.symm iSame)] at isA
      by_cases jSame : j = index
      · subst jSame
        rw [List.getElem?_set_self inside] at isB
        cases isB
        exact (parted i a isA iSame first inA second inB).symm
      · rw [List.getElem?_set_ne (Ne.symm jSame)] at isB
        exact live.apart i j a b isA isB differ first inA second inB

/-- The call comes back with what the host's method answers, and does to the cluster what the method
does to the host; or both have to wait. -/
def Answers (c : Cluster) (way : Way) (method : String) (args : List Json) : Prop :=
  (∃ outcome after millis c', c.host.perform method args = some ⟨.answered outcome, after, millis⟩ ∧
    way.channel.invoke none (.ofClass Host.className) method args c = some (way.told outcome, c') ∧
    c.After after c') ∨
  c.host.perform method args = none ∧
    way.channel.invoke none (.ofClass Host.className) method args c = none

theorem invoke_tcp {index : Nat} {client client' : Client} {node : Node Host} {target : Target}
    {method : String} {args : List Json} {outcome : Option Outcome}
    (found : c.clients[index]? = some client)
    (called : Client.call Node.peers none target method args client c.node = (outcome, client', node))
    (address : String) :
    (tcp address index).invoke none target method args c =
      outcome.map (·, ⟨node, c.clients.set index client'⟩) := by
  have isClient : c.client index = client := by rw [Cluster.client, found, Option.getD_some]
  simp only [tcp, Channel.within, Client.channel, isClient, called, Option.map_map]
  rfl

theorem Live.answers_tcp (live : c.Live) (address : String) {index : Nat}
    (inside : index < c.clients.length) {method : String} {args : List Json}
    (conveys : c.host.Conveys method args) : c.Answers (.tcp address index) method args := by
  have found : c.clients[index]? = some c.clients[index] := List.getElem?_eq_getElem inside
  generalize c.clients[index] = client at found
  have inTouch := live.inTouch client (List.mem_of_getElem? found)
  obtain ⟨client', node, called, dispatcher, service, inTouch'⟩ := inTouch.call (live.carries conveys)
  obtain ⟨spares, pool⟩ := Client.spares_call called
  have invoked := invoke_tcp found called address
  rw [Dispatcher.dispatchWithin_host live.hosting] at invoked dispatcher
  cases performed : c.host.perform method args with
  | none =>
      rw [performed] at invoked
      exact .inr ⟨performed, invoked⟩
  | some reaction =>
      obtain ⟨ending, after, millis⟩ := reaction
      obtain ⟨outcome, rfl⟩ := Host.ending_of_perform performed
      rw [performed] at invoked dispatcher
      have hosting : node.dispatcher.classes.get? Host.className = some after := by
        rw [dispatcher]
        simp [Dispatcher.registerClass]
      have host : Cluster.host ⟨node, c.clients.set index client'⟩ = after := by
        rw [Cluster.host, hosting]
        rfl
      exact .inl ⟨outcome, after, millis, _, performed, invoked,
        live.replaceClient found inTouch' service spares pool hosting, host, List.length_set ..⟩

theorem Live.answers_inProcess (live : c.Live) (method : String) (args : List Json) :
    c.Answers .inProcess method args := by
  have invoked := invoke_inProcess c c.host method args
  rw [live.withHost_host] at invoked
  cases performed : c.host.perform method args with
  | none =>
      rw [performed] at invoked
      exact .inr ⟨performed, invoked⟩
  | some reaction =>
      obtain ⟨ending, after, millis⟩ := reaction
      obtain ⟨outcome, rfl⟩ := Host.ending_of_perform performed
      rw [performed] at invoked
      exact .inl ⟨outcome, after, millis, _, performed, invoked,
        live.withHost after, host_withHost c after, rfl⟩

theorem Live.answers (live : c.Live) {way : Way} (isOpen : way.IsOpen c) {method : String}
    {args : List Json} (carries : way.Carries c.host method args) : c.Answers way method args := by
  cases way with
  | inProcess => exact live.answers_inProcess method args
  | tcp address index => exact live.answers_tcp address isOpen carries

/-! New clients. -/

theorem Live.connect (live : c.Live) (address : String) {clientId : String} (poolSize : Nat)
    (hello : (Message.hello protocolVersion clientId).Sendable)
    (welcome : (Message.welcome protocolVersion c.node.service.nodeId).Sendable) :
    ∃ channel c', c.connect address clientId poolSize = some (.ok channel, c') ∧ c'.Live ∧
      c'.host = c.host ∧ c'.clients.length = c.clients.length + 1 := by
  obtain ⟨client, node, connects, dispatcher, -, service, inTouch⟩ :=
    Client.connect_node (n := c.node) address poolSize hello welcome
  obtain ⟨spares, pool⟩ := Client.spares_connect connects
  have hosting : node.dispatcher.classes.get? Host.className = some c.host := by
    rw [dispatcher]
    exact live.hosting
  have older (old : Client) (member : old ∈ c.clients) (connection : Connection)
      (pooled : connection ∈ old.pool) : connection.number < c.node.sessions.length :=
    (live.inTouch old member).number_lt pooled
  have aside (old : Client) (member : old ∈ c.clients) : old.InTouch node :=
    (live.inTouch old member).of_same_sessions rfl (.refl _) service fun connection pooled =>
      spares.same connection.number (older old member connection pooled) trivial
  have host : Cluster.host ⟨node, c.clients ++ [client]⟩ = c.host := by
    rw [Cluster.host, hosting]
    rfl
  refine ⟨tcp address c.clients.length, ⟨node, c.clients ++ [client]⟩, ?_, ⟨?_, ?_, ?_⟩, host, ?_⟩
  · rw [Cluster.connect, connects]
    rfl
  · rw [host]
    exact hosting
  · exact List.forall_mem_append.mpr ⟨aside, List.forall_mem_singleton.mpr inTouch⟩
  · intro i j a b isA isB differ first inA second inB
    rcases old_or_last isA with oldA | ⟨lastA, rfl⟩
    · rcases old_or_last isB with oldB | ⟨-, rfl⟩
      · exact live.apart i j a b oldA oldB differ first inA second inB
      · have below := older a (List.mem_of_getElem? oldA) first inA
        have last := pool second inB
        omega
    · rcases old_or_last isB with oldB | ⟨lastB, -⟩
      · have below := older b (List.mem_of_getElem? oldB) second inB
        have last := pool first inA
        omega
      · exact absurd (lastA.trans lastB.symm) differ
  · exact List.length_append

end Cluster

end Coordination
