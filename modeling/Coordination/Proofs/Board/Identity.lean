import Coordination.Proofs.Board.Course

/-!
Which board a handle is for: its name and the host at the end of its route decide that. It makes no
difference by what transport the route leads there.
-/

namespace Coordination

def Incident.place : Incident → Nat
  | .call place .. | .operation place .. => place

/-- What is answered depends on the board alone. -/
theorem Handle.Performs.answer {h : Handle Fleet} {fleet : Fleet} {place : Nat} {b : Board}
    {operation : Operation} (performs : h.Performs fleet place b operation) :
    ((operation.perform h).run.run fleet).map Prod.fst =
      (operation.onBoard h.clientId h.lockTimeout b).map (Prod.fst <$> ·) := by
  cases performs with
  | waits onBoard ran | failed _ _ onBoard ran | done _ _ _ onBoard ran =>
      rw [onBoard, ran]
      rfl

theorem Transcript.ofIncidents_of_elsewhere {place : Nat} {name : String} {incidents : List Incident}
    (elsewhere : ∀ incident ∈ incidents, incident.place ≠ place) :
    ofIncidents place name incidents = [] := by
  rw [ofIncidents, List.filterMap_eq_nil_iff]
  intro incident member
  unfold Incident.noted?
  split
  · exact if_neg fun here => elsewhere _ member here.1
  · rfl

theorem Board.Undergoes.eq_of_nil {b after : Board} (undergone : b.Undergoes [] after) : after = b := by
  generalize nothing : ([] : Transcript) = t at undergone
  cases undergone with
  | nothing => rfl
  | operation => simp at nothing

namespace Federation

variable {services : List Service} {log : List (Event × Finding)} {s next : Federation}

theorem Course.board?_of_elsewhere {incidents : List Incident} (course : Course s incidents next)
    (reached : Reached services log s) {place : Nat} {name : String} {b : Board}
    (hosted : s.fleet.board? place name = some b)
    (elsewhere : ∀ incident ∈ incidents, incident.place ≠ place) :
    next.fleet.board? place name = some b := by
  have spare : ∀ incident ∈ incidents, incident.Spares place name := by
    intro incident member
    cases incident with
    | call there => exact fun here => absurd here (elsewhere _ member)
    | operation => trivial
  obtain ⟨after, there, undergone⟩ := course.undergoes reached hosted spare
  rw [Transcript.ofIncidents_of_elsewhere elsewhere] at undergone
  rw [there, undergone.eq_of_nil]

/-- Handles of one name whose routes lead to the same place have one schema and one board, and whatever
is done through either of them is done to that board. Nothing of what goes on at one place is ever
answered at another. -/
theorem board_by_place (reached : Reached services log s) {name : String}
    {process : Nat} {transport : Transport} {handle : Handle Fleet} {route : Route}
    (uses : s.Uses process name transport handle route)
    {otherProcess : Nat} {otherTransport : Transport} {other : Handle Fleet} {otherRoute : Route}
    (otherUses : s.Uses otherProcess name otherTransport other otherRoute) :
    (route.place = otherRoute.place →
      handle.schema = other.schema ∧
        ∀ incidents next, Course s incidents next →
          ∃ b, next.fleet.board? route.place name = some b ∧
            (∀ operation : Operation, operation.CarriedBy handle route next.fleet →
              handle.Performs next.fleet route.place b operation) ∧
            ∀ operation : Operation, operation.CarriedBy other otherRoute next.fleet →
              other.Performs next.fleet route.place b operation) ∧
      (route.place ≠ otherRoute.place →
        ∀ incidents next, Course s incidents next →
          (∀ incident ∈ incidents, incident.place = otherRoute.place) →
            ∀ operation : Operation, operation.CarriedBy handle route s.fleet →
              operation.CarriedBy handle route next.fleet →
                ((operation.perform handle).run.run next.fleet).map Prod.fst =
                  ((operation.perform handle).run.run s.fleet).map Prod.fst) := by
  obtain ⟨named, b, hosted, schema⟩ := reached.sound.behind uses
  constructor
  · intro same
    obtain ⟨-, _, otherHosted, otherSchema⟩ := reached.sound.behind otherUses
    rw [← same, hosted] at otherHosted
    cases otherHosted
    refine ⟨schema.trans otherSchema.symm, ?_⟩
    intro incidents next course
    obtain ⟨_, reachedNext⟩ := course.reached reached
    obtain ⟨-, now, there, -⟩ := reachedNext.sound.behind (course.uses reached uses)
    refine ⟨now, there, ?_, ?_⟩
    · intro operation carried
      exact reachedNext.sound.performs (course.uses reached uses) carried there
    · intro operation carried
      rw [same] at there ⊢
      exact reachedNext.sound.performs (course.uses reached otherUses) carried there
  · intro apart incidents next course elsewhere operation carried carriedNext
    obtain ⟨_, reachedNext⟩ := course.reached reached
    have there := course.board?_of_elsewhere reached hosted
      fun incident member here => apart (here.symm.trans (elsewhere incident member))
    have now := reachedNext.sound.performs (course.uses reached uses) carriedNext there
    rw [now.answer, (reached.sound.performs uses carried hosted).answer]

/-- The board that a process counts on beside it is the one that another has over a connection. -/
theorem board_by_place_near_and_far :
    ∃ log s handle other next b, Reached [⟨"node", "handler"⟩] log s ∧
      s.Uses 0 "B" .inProcess handle ⟨0, .inProcess⟩ ∧
      s.Uses 1 "B" .tcp other ⟨0, .tcp "127.0.0.1:4000" 0⟩ ∧
      Course s [.operation 0 "B" (.addAndRead ⟨0⟩ 5) (.ok (.number 5))] next ∧
      handle.schema = other.schema ∧ b.counters.read? ⟨0⟩ = some 5 ∧
      ∀ operation : Operation,
        operation.CarriedBy other ⟨0, .tcp "127.0.0.1:4000" 0⟩ next.fleet →
          other.Performs next.fleet 0 b operation := by
  let schema : Schema := ⟨["ops"], []⟩
  let shows (n : Int64) : Board := ⟨"B", schema, #v[⟨n⟩], .empty, .ofNames []⟩
  have conveys : (Host.empty.replaceBoard (.fresh "B" schema)).Conveys Host.Method.attach.name
      (Host.attachArguments "B" schema) := Host.conveys_attach (by decide +kernel) (by decide +kernel)
  obtain ⟨log, s, reached, near, far, hosted⟩ := reached_in_common conveys
  have counts : Operation.onBoard "near" none (shows 0) (.addAndRead ⟨0⟩ 5) =
    some (.ok (.number 5, shows 5)) := rfl
  obtain ⟨counted, course, -, hosted⟩ :=
    Course.nothing.done reached near (fun _ _ _ => trivial) hosted counts
  obtain ⟨sameSchema, board⟩ := (board_by_place reached near far).1 rfl
  obtain ⟨b, there, -, performs⟩ := board _ _ course
  cases hosted.symm.trans there
  exact ⟨log, s, _, _, _, _, reached, near, far, course, sameSchema, rfl, performs⟩

/-- What a process beside the board counts, one at a distance reads over its connection. -/
theorem counted_across_transports :
    ∃ log s handle other before counted after, Reached [⟨"node", "handler"⟩] log s ∧
      s.Uses 0 "B" .inProcess handle ⟨0, .inProcess⟩ ∧
      s.Uses 1 "B" .tcp other ⟨0, .tcp "127.0.0.1:4000" 0⟩ ∧
      (Operation.perform other (.read ⟨0⟩)).run.run s.fleet = some (.ok (.number 0), before) ∧
      (Operation.perform handle (.addAndRead ⟨0⟩ 5)).run.run before = some (.ok (.number 5), counted) ∧
      (Operation.perform other (.read ⟨0⟩)).run.run counted = some (.ok (.number 5), after) := by
  let schema : Schema := ⟨["ops"], []⟩
  let shows (n : Int64) : Board := ⟨"B", schema, #v[⟨n⟩], .empty, .ofNames []⟩
  let route : Route := ⟨0, .tcp "127.0.0.1:4000" 0⟩
  let other := (far "127.0.0.1:4000").makeHandle "B" schema route
  have conveys : (Host.empty.replaceBoard (.fresh "B" schema)).Conveys Host.Method.attach.name
      (Host.attachArguments "B" schema) := Host.conveys_attach (by decide +kernel) (by decide +kernel)
  obtain ⟨log, s, reached, near, far, hosted⟩ := reached_in_common conveys
  have carried (n : Int64) (fleet : Fleet) (hosted : fleet.board? 0 "B" = some (shows n))
      (short : (Message.bytes (.reply 0 (.ok (Host.intJson n)) 0)).length + 8 ≤ Frame.maxBody) :
      Operation.CarriedBy (.read ⟨0⟩) other route fleet :=
    Operation.carriedBy_answered hosted
      (fun _ hosted => ⟨_, Host.perform_answered hosted (Host.comesTo_counterRead (shows n) "B" ⟨0⟩)⟩)
      (.invoke ⟨trivial, Json.valid_ofNat (by decide), trivial⟩
        (by decide : 0 + 2 < Message.nestingBudget) (by decide +kernel))
      (.reply (Host.valid_intJson n) (by decide : 0 + 1 < Message.nestingBudget) short)
  have reads (n : Int64) : Operation.onBoard "far" none (shows n) (.read ⟨0⟩) =
    some (.ok (.number n, shows n)) := rfl
  have counts : Operation.onBoard "near" none (shows 0) (.addAndRead ⟨0⟩ 5) =
    some (.ok (.number 5, shows 5)) := rfl
  obtain ⟨before, course, ranBefore, hosted⟩ := Course.nothing.done reached far
    (carried 0 s.fleet hosted (by decide +kernel)) hosted (reads 0)
  obtain ⟨counted, course, ran, hosted⟩ :=
    course.done reached (course.uses reached near) (fun _ _ _ => trivial) hosted counts
  obtain ⟨after, -, ranAfter, -⟩ := course.done reached (course.uses reached far)
    (carried 5 counted hosted (by decide +kernel)) hosted (reads 5)
  exact ⟨log, s, _, other, before, counted, after, reached, near, far, ranBefore, ran, ranAfter⟩
end Federation

end Coordination
