import Coordination.Proofs.Board.Likeness
import Coordination.Proofs.Remote.Recovery

/-!
An operation through a handle, over whatever route, comes to what it comes to on the board at the end of
the route.
-/

namespace Coordination

/-! What a host says arrives as it was said. -/

/-- No refusal is changed on its way. -/
def Delivers {α : Type} (result : Except Refusal α) : Prop :=
  ∀ refusal, result = .error refusal → refusal.failure.delivered = refusal.failure

theorem Delivers.outcomeOf {outcome : Except Refusal Json} (delivers : Delivers outcome) :
    Outcome.delivered (Channel.outcomeOf outcome) = Channel.outcomeOf outcome := by
  cases outcome with
  | ok v => rfl
  | error refusal => exact congrArg Except.error (delivers refusal rfl)

/-- Whatever state it is in, the computation refuses nothing in words that would be changed. -/
def Tells {σ α : Type} (x : InPlace Refusal σ α) : Prop := ∀ s, Delivers (x.on s).1

namespace Tells

variable {σ α β : Type}

theorem pure (a : α) : Tells (Pure.pure a : InPlace Refusal σ α) := fun _ => nofun

theorem get : Tells (MonadState.get : InPlace Refusal σ σ) := fun _ => nofun

theorem modify (f : σ → σ) : Tells (modify f : InPlace Refusal σ PUnit) := fun _ => nofun

theorem argument {decode : Json.Decoder α} {args : List Json} {index : Nat} {method : String} :
    Tells (.ofResult (Coordination.argument decode args index method) : InPlace Refusal σ α) := by
  intro s refusal refused
  rw [InPlace.on_ofResult] at refused
  unfold Coordination.argument at refused
  split at refused
  · cases refused
    rfl
  · split at refused
    · cases refused
    · cases refused
      rfl

theorem unknownMethod (target method : String) :
    Tells (throw (.unknownMethod target method) : InPlace Refusal σ α) := by
  rintro s _ ⟨⟩
  rfl

theorem raising (x : InPlace Fault σ α) : Tells (Host.raising x) := by
  intro s refusal refused
  rw [Host.raising, InPlace.on_mapFailure] at refused
  rcases ran : (x.on s).1 with fault | a <;> rw [ran] at refused <;> cases refused
  exact fault.delivered_ofFault

theorem bind {x : InPlace Refusal σ α} {f : α → InPlace Refusal σ β} (first : Tells x)
    (later : ∀ a, Tells (f a)) : Tells (x >>= f) := by
  intro s
  have said := first s
  rw [InPlace.on_bind]
  rcases ran : x.on s with ⟨refusal | a, after⟩
  · rw [ran] at said
    rintro _ ⟨⟩
    exact said refusal rfl
  · exact later a after

theorem carryOut (method : Host.Method) (args : List Json) : Tells (Host.carryOut method args) := by
  cases method with
  | counterAdd | counterRaise | unlock =>
      exact argument.bind fun _ => argument.bind fun _ => (raising _).bind fun _ => pure _
  | counterRead =>
      exact argument.bind fun _ => get.bind fun _ => (raising _).bind fun _ => pure _
  | counterZero => exact argument.bind fun _ => (raising _).bind fun _ => pure _
  | mapPut =>
      exact argument.bind fun _ => argument.bind fun _ => (modify _).bind fun _ => pure _
  | mapGet | mapContains => exact argument.bind fun _ => get.bind fun _ => pure _
  | lock =>
      exact argument.bind fun _ => argument.bind fun _ => argument.bind fun _ =>
        (raising _).bind fun _ => pure _
  | mapClear => exact (modify _).bind fun _ => pure _
  | counterReadAll | mapSize | mapSnapshot => exact get.bind fun _ => pure _
  | attach => exact unknownMethod _ _

end Tells

theorem Host.delivers_perform {host after : Host} {name : String} {b : Board} {method : Method}
    {args : List Json} {outcome : Except Refusal Json} {millis : Nat}
    (hosted : host.boards.get? name = some b) (notAttach : method ≠ .attach)
    (performed : host.perform method.name (.string name :: args) =
      some ⟨.answered outcome, after, millis⟩) : Delivers outcome := by
  rw [perform_carryOut rfl hosted notAttach] at performed
  have tells := Tells.carryOut method (.string name :: args) b
  rcases ran : (carryOut method (.string name :: args)).on b with ⟨refusal | _ | v, left⟩ <;>
    rw [ran] at performed tells <;> cases performed
  · rintro _ ⟨⟩
    exact tells refusal rfl
  · exact fun _ => nofun

/-! Operations by routes. -/

theorem Cluster.withHost_injective (c : Cluster) : Function.Injective c.withHost := by
  intro host other same
  have hosts := congrArg Cluster.host same
  rwa [host_withHost, host_withHost] at hosts

theorem Fleet.after_self {fleet : Fleet} {place : Nat} {host : Host} (live : fleet.Live)
    (isHost : fleet.hosts[place]? = some host) : fleet.After place host fleet where
  live := live
  isOpen _ isOpen := isOpen
  hosts := by
    obtain ⟨inside, rfl⟩ := List.getElem?_eq_some_iff.mp isHost
    rw [List.set_getElem_self]

namespace Operation

/-- If the operation comes to a call at all, the call and its reply can be sent. -/
def CarriedBy (operation : Operation) (h : Handle Fleet) (route : Route) (fleet : Fleet) : Prop :=
  operation.undeclared? h.name h.schema = none →
    route.Carries fleet operation.method.name (.string h.name :: operation.arguments h)

theorem method_ne_attach (operation : Operation) : operation.method ≠ .attach := by
  cases operation <;> nofun

end Operation

namespace Handle

variable {h : Handle Fleet} {fleet : Fleet} {route : Route} {host : Host} {b : Board}

/-- The same handle in the process of the host. -/
def beside (h : Handle Fleet) : Handle Cluster :=
  ⟨h.name, h.schema, Cluster.inProcess, h.clientId, h.lockTimeout⟩

theorem arguments_beside (h : Handle Fleet) (operation : Operation) :
    operation.arguments h.beside = operation.arguments h := by
  cases operation <;> rfl

theorem Reaches.run_perform (reaches : h.Reaches fleet route host b) {operation : Operation}
    (carried : operation.CarriedBy h route fleet) :
    (∃ direct fleet', operation.onBoard h.clientId h.lockTimeout b = some direct ∧
        (operation.perform h).run.run fleet = some ((host.commit direct).1, fleet') ∧
        fleet.After route.place (host.commit direct).2 fleet') ∨
      operation.onBoard h.clientId h.lockTimeout b = none ∧
        (operation.perform h).run.run fleet = none := by
  let c := Cluster.start ⟨"", ""⟩ true
  have attached : h.beside.Attached host b := ⟨rfl, reaches.hosted, reaches.schema.symm⟩
  have commits := commits_perform (c := c) attached operation
  have besideAsks := h.beside.asks_perform operation
  have asks := h.asks_perform operation
  unfold Commits at commits
  cases refusal : operation.undeclared? h.name h.schema with
  | some fault =>
      rw [refusal] at asks
      have refused : operation.undeclared? h.beside.name h.beside.schema = some fault := refusal
      rw [refused] at besideAsks
      have failed := (besideAsks (c.withHost host)).symm.trans commits
      obtain ⟨direct, onBoard, same⟩ := Option.map_eq_some_iff.mp failed.symm
      injection same with answer after
      have same : (host.commit direct).2 = host := c.withHost_injective after
      refine .inl ⟨direct, fleet, onBoard, ?_, ?_⟩
      · rw [answer]
        exact asks fleet
      · rw [same]
        exact Fleet.after_self reaches.live reaches.isHost
  | none =>
      rw [refusal] at asks
      have declared : operation.undeclared? h.beside.name h.beside.schema = none := refusal
      rw [declared] at besideAsks
      have direct := (besideAsks (c.withHost host)).symm.trans commits
      have channel : h.beside.channel = Cluster.inProcess := rfl
      have name : h.beside.name = h.name := rfl
      rw [channel, name, Cluster.invoke_inProcess, h.arguments_beside] at direct
      obtain ⟨there, isThere, ⟨outcome, after, millis, fleet', performed, invoked, afterCall⟩ |
        ⟨waits, waiting⟩⟩ := Route.answers reaches.live reaches.isOpen (carried refusal)
      all_goals cases reaches.isHost.symm.trans isThere
      · rw [performed] at direct
        obtain ⟨result, onBoard, same⟩ := Option.map_eq_some_iff.mp direct.symm
        injection same with answer hosts
        have commits : (host.commit result).2 = after := c.withHost_injective hosts
        have told : route.way.told outcome = Channel.outcomeOf outcome := by
          have delivers := Host.delivers_perform reaches.hosted operation.method_ne_attach performed
          cases route.way with
          | inProcess => rfl
          | tcp address client => exact delivers.outcomeOf
        refine .inl ⟨result, fleet', onBoard, ?_, commits ▸ afterCall⟩
        rw [asks fleet, reaches.leads, invoked, told, answer]
        rfl
      · rw [waits] at direct
        refine .inr ⟨Option.map_eq_none_iff.mp direct.symm, ?_⟩
        rw [asks fleet, reaches.leads, waiting]
        rfl

end Handle

end Coordination
