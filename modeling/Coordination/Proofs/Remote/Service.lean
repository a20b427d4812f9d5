import Coordination.Proofs.Remote.Delivery
import Mathlib

/-!
What a connection is answered does not depend on how its stream is cut into pieces: it is what one gets
by hearing the messages of the whole stream in order.
-/

namespace Coordination

def Stage.Open (stage : Stage) : Prop := stage = .greeting ∨ stage = .serving

instance (stage : Stage) : Decidable stage.Open := inferInstanceAs (Decidable (_ ∨ _))

@[simp] theorem not_open_closed : ¬ Stage.Open .closed := by decide

@[simp] theorem not_open_stalled : ¬ Stage.Open .stalled := by decide

namespace Service

variable {σ : Type} [Servant σ] {service : Service}

def react (service : Service) (m : Message) (d : Dispatcher σ) :
    Stage → Stage × List Arrival × Dispatcher σ
  | .greeting => ((service.greet m).1, (service.greet m).2, d)
  | _ => service.serve m d

/-- Messages in this order bring a session to another stage, with this said to them. -/
inductive Hears (service : Service) :
    Stage → Dispatcher σ → List Message → List Arrival → Stage → Dispatcher σ → Prop where
  | nothing (stage : Stage) (d : Dispatcher σ) : Hears service stage d [] [] stage d
  | ended {stage : Stage} (d : Dispatcher σ) (messages : List Message) (ended : ¬ stage.Open) :
      Hears service stage d messages [] stage d
  | message {stage middle last : Stage} {d d' d'' : Dispatcher σ} {m : Message}
      {later : List Message} {said more : List Arrival} (isOpen : stage.Open)
      (reacts : service.react m d stage = (middle, said, d'))
      (hears : Hears service middle d' later more last d'') :
      Hears service stage d (m :: later) (said ++ more) last d''

variable {stage middle last : Stage} {d d' d'' : Dispatcher σ} {said more : List Arrival}
  {earlier later : List Message}

theorem hears_one {m : Message} (isOpen : stage.Open)
    (reacts : service.react m d stage = (middle, said, d')) :
    Hears service stage d [m] said middle d' := by
  simpa using Hears.message isOpen reacts (.nothing middle d')

theorem Hears.of_ended (hears : Hears service stage d later said last d') (ended : ¬ stage.Open) :
    said = [] ∧ last = stage ∧ d' = d := by
  cases hears with
  | nothing | ended => exact ⟨rfl, rfl, rfl⟩
  | message isOpen => exact absurd isOpen ended

theorem Hears.of_reacts {m : Message} {all : List Arrival}
    (hears : Hears service stage d (m :: later) all last d'') (isOpen : stage.Open)
    (reacts : service.react m d stage = (middle, said, d')) :
    ∃ more, all = said ++ more ∧ Hears service middle d' later more last d'' := by
  cases hears with
  | ended _ _ ended => exact absurd isOpen ended
  | message _ reacts' hears =>
      cases reacts'.symm.trans reacts
      exact ⟨_, rfl, hears⟩

theorem Hears.of_ending {m : Message} {all : List Arrival}
    (hears : Hears service stage d (m :: later) all last d'') (isOpen : stage.Open)
    (reacts : service.react m d stage = (middle, said, d')) (ended : ¬ middle.Open) :
    all = said ∧ last = middle ∧ d'' = d' := by
  obtain ⟨more, rfl, hearsLater⟩ := hears.of_reacts isOpen reacts
  obtain ⟨rfl, rfl, rfl⟩ := hearsLater.of_ended ended
  exact ⟨List.append_nil said, rfl, rfl⟩

theorem Hears.trans (first : Hears service stage d earlier said middle d')
    (second : Hears service middle d' later more last d'') :
    Hears service stage d (earlier ++ later) (said ++ more) last d'' := by
  induction first with
  | nothing => exact second
  | ended d messages ended =>
      obtain ⟨rfl, rfl, rfl⟩ := second.of_ended ended
      exact .ended _ _ ended
  | message isOpen reacts _ induction =>
      rw [List.cons_append, List.append_assoc]
      exact .message isOpen reacts (induction second)

/-! Bytes that arrive. -/

open Coordination.Frame (Holds Stops)

/-- What has been said and where the session stands, now that a whole stream has arrived. -/
inductive Told (service : Service) (stage : Stage) (d : Dispatcher σ) (stream : Bytes) :
    List Arrival → Session → Dispatcher σ → Prop where
  | waiting {messages : List Message} {rest : Bytes} {said : List Arrival} {last : Stage}
      {d' : Dispatcher σ} (holds : Holds stream messages rest) (stops : Stops rest)
      (hears : Hears service stage d messages said last d') (isOpen : last.Open) :
      Told service stage d stream said ⟨last, rest⟩ d'
  | flawed {messages : List Message} {rest : Bytes} {flaw : Frame.Flaw} {said : List Arrival}
      {last : Stage} {d' : Dispatcher σ} (holds : Holds stream messages rest)
      (flawed : Frame.scan rest = .flawed flaw)
      (hears : Hears service stage d messages said last d') (isOpen : last.Open) (unread : Bytes) :
      Told service stage d stream (said ++ [.closed]) ⟨.closed, unread⟩ d'
  | ended {messages : List Message} {rest : Bytes} {said : List Arrival} {last : Stage}
      {d' : Dispatcher σ} (holds : Holds stream messages rest)
      (hears : Hears service stage d messages said last d') (ended : ¬ last.Open) (unread : Bytes) :
      Told service stage d stream said ⟨last, unread⟩ d'

variable {stream unread rest : Bytes} {session : Session}

theorem Told.after (holds : Holds stream earlier rest)
    (hears : Hears service stage d earlier said middle d')
    (told : Told service middle d' rest more session d'') :
    Told service stage d stream (said ++ more) session d'' := by
  cases told with
  | waiting holds' stops hears' isOpen =>
      exact .waiting (holds.trans holds') stops (hears.trans hears') isOpen
  | flawed holds' flawed hears' isOpen unread =>
      rw [← List.append_assoc]
      exact .flawed (holds.trans holds') flawed (hears.trans hears') isOpen unread
  | ended holds' hears' ended unread =>
      exact .ended (holds.trans holds') (hears.trans hears') ended unread

theorem advance_of_ended (ended : ¬ stage.Open) (fuel : Nat) :
    service.advance fuel ⟨stage, unread⟩ d = ([], ⟨stage, unread⟩, d) := by
  cases stage with
  | greeting => exact absurd (.inl rfl) ended
  | serving => exact absurd (.inr rfl) ended
  | stalled | closed => cases fuel <;> rfl

theorem advance_of_open (isOpen : stage.Open) (fuel : Nat) :
    service.advance (fuel + 1) ⟨stage, unread⟩ d =
      match Frame.scan unread with
      | .partialLength | .partialBody => ([], ⟨stage, unread⟩, d)
      | .flawed _ => ([.closed], ⟨.closed, []⟩, d)
      | .message m unread =>
          let (stage, said, d) := service.react m d stage
          let (later, session, d) := service.advance fuel ⟨stage, unread⟩ d
          (said ++ later, session, d) := by
  obtain rfl | rfl := isOpen <;> rfl

theorem told_advance {fuel : Nat} (enough : unread.length < fuel) (stage : Stage)
    (d : Dispatcher σ) :
    Told service stage d unread (service.advance fuel ⟨stage, unread⟩ d).1
      (service.advance fuel ⟨stage, unread⟩ d).2.1 (service.advance fuel ⟨stage, unread⟩ d).2.2 := by
  -- a message takes bytes away, so that what follows it is told with the fuel that is left
  induction fuel generalizing unread stage d with
  | zero => omega
  | succ fuel induction =>
      by_cases isOpen : stage.Open
      · rw [advance_of_open isOpen]
        cases scanned : Frame.scan unread with
        | message m next =>
            have shorter := Frame.length_lt_of_scan scanned
            exact (induction (by omega) _ _).after (Frame.holds_one scanned) (hears_one isOpen rfl)
        | flawed flaw =>
            exact .flawed (.nothing unread) scanned (.nothing stage d) isOpen []
        | partialLength | partialBody =>
            exact .waiting (.nothing unread) (by simp [Stops, scanned]) (.nothing stage d) isOpen
      · rw [advance_of_ended isOpen]
        exact .ended (.nothing unread) (.nothing stage d) isOpen unread

theorem told_receive (told : Told service stage d stream said session d') (bytes : Bytes) :
    Told service stage d (stream ++ bytes) (said ++ (service.receive bytes session d').1)
      (service.receive bytes session d').2.1 (service.receive bytes session d').2.2 := by
  cases told with
  | waiting holds _ hears _ =>
      exact (told_advance (Nat.lt_succ_self _) _ _).after (holds.append bytes) hears
  | flawed holds flawed hears isOpen unread =>
      rw [receive, advance_of_ended not_open_closed, List.append_nil]
      exact .flawed (holds.append bytes) (Frame.scan_append_of_flawed flawed bytes) hears isOpen _
  | ended holds hears ended unread =>
      rw [receive, advance_of_ended ended, List.append_nil]
      exact .ended (holds.append bytes) hears ended _

theorem told_listen (told : Told service stage d stream said session d') (pieces : List Bytes) :
    Told service stage d (stream ++ pieces.flatten) (said ++ (service.listen session d' pieces).1)
      (service.listen session d' pieces).2.1 (service.listen session d' pieces).2.2 := by
  induction pieces generalizing stream said session d' with
  | nil => simpa [listen] using told
  | cons bytes later induction =>
      simpa [listen] using induction (told_receive told bytes)

def farewell (stage : Stage) : List Arrival := if stage.Open then [.closed] else []

theorem finish_eq (session : Session) : (finish session).1 = farewell session.stage := by
  obtain ⟨stage, unread⟩ := session
  cases stage <;> rfl

/-- The whole conversation, told by the messages of the stream. -/
theorem hears_converse (service : Service) (pieces : List Bytes) (d : Dispatcher σ) :
    ∃ said last, Hears service .greeting d (Frame.messages pieces.flatten) said last
        (service.converse pieces d).2.2 ∧
      (service.converse pieces d).1 = said ++ farewell last := by
  have told : Told service .greeting d [] [] .fresh d :=
    .waiting (.nothing []) (by simp [Stops, Frame.scan, Bytes.take?]) (.nothing _ d) (.inl rfl)
  replace told := told_listen told pieces
  rw [List.nil_append, List.nil_append] at told
  simp only [converse, finish_eq]
  generalize service.listen .fresh d pieces = listened at told ⊢
  obtain ⟨said, session, after⟩ := listened
  dsimp only at told ⊢
  cases told with
  | waiting holds stops hears isOpen =>
      rw [holds.messages_eq, Frame.messages_of_stops stops, List.append_nil]
      exact ⟨_, _, hears, rfl⟩
  | flawed holds flawed hears isOpen unread =>
      have stops : Stops _ := fun _ _ scanned => by cases flawed.symm.trans scanned
      rw [holds.messages_eq, Frame.messages_of_stops stops, List.append_nil]
      refine ⟨_, _, hears, ?_⟩
      simp [farewell, isOpen]
  | ended holds hears ended unread =>
      rw [holds.messages_eq]
      refine ⟨_, _, hears.trans (.ended _ _ ended), ?_⟩
      rw [List.append_nil]

/-! The two parts of a conversation. -/

theorem tells_outcomeOf (service : Service) (ending : Ending) :
    service.Tells ending (service.outcomeOf ending) := by
  cases ending with
  | answered outcome =>
      cases outcome with
      | ok v => exact .value v
      | error refusal =>
          obtain ⟨typeName, message, payload⟩ := refusal
          exact .refusal typeName message payload
  | crashed text => exact .panic text

theorem Tells.unique {ending : Ending} {outcome outcome' : Outcome}
    (tells : service.Tells ending outcome) (tells' : service.Tells ending outcome') :
    outcome = outcome' := by
  cases tells <;> cases tells' <;> rfl

/-- The calls that a session hears are answered, up to the first message that is none. -/
theorem Hears.answered {messages : List Message}
    (hears : Hears service .serving d messages said last d') :
    service.Answered d (Message.leadingCalls messages) (said ++ farewell last) d' := by
  induction messages generalizing d said with
  | nil =>
      cases hears with
      | nothing => exact .ended _
      | ended _ _ ended => exact absurd (.inr rfl) ended
  | cons m later induction =>
      cases m with
      | invoke callId target method args =>
          let call : Call := ⟨callId, target, method, args⟩
          cases dispatched : d.dispatch target method args with
          | none =>
              have unanswered : d.dispatch call.target call.method call.args = none := dispatched
              obtain ⟨rfl, rfl, rfl⟩ := hears.of_ending (.inr rfl)
                (by rw [react, serve, dispatched]; nofun) not_open_stalled
              exact .waiting _ unanswered
          | some reaction =>
              obtain ⟨more, rfl, hearsLater⟩ := hears.of_reacts (.inr rfl)
                (by rw [react, serve, dispatched]; nofun)
              have answered : d.dispatch call.target call.method call.args = some reaction := dispatched
              exact .reply answered (tells_outcomeOf service _) (induction hearsLater)
      | _ =>
          obtain ⟨rfl, rfl, rfl⟩ := hears.of_ending (.inr rfl) rfl not_open_closed
          exact .ended _

/-- There is one way to answer calls. -/
theorem Answered.unique {calls : List Call} (answered : service.Answered d calls said d')
    (answered' : service.Answered d calls more d'') : said = more ∧ d' = d'' := by
  induction answered generalizing more with
  | ended => cases answered' with | ended => exact ⟨rfl, rfl⟩
  | waiting _ dispatched =>
      cases answered' with
      | waiting => exact ⟨rfl, rfl⟩
      | reply dispatched' => cases dispatched.symm.trans dispatched'
  | reply dispatched tells _ induction =>
      cases answered' with
      | waiting _ dispatched' => cases dispatched.symm.trans dispatched'
      | reply dispatched' tells' answered' =>
          cases dispatched.symm.trans dispatched'
          obtain ⟨rfl, rfl⟩ := induction answered'
          rw [tells.unique tells']
          exact ⟨rfl, rfl⟩

/-- Whatever comes on a connection, in whatever pieces: nothing is done without a `hello` in front, one
`error` answers a `hello` of another version, and after a `welcome` the calls that follow at once are
dispatched in order, each answered with its own reply before the connection ends. -/
theorem converse_answers_in_order (service : Service) (pieces : List Bytes) (d : Dispatcher σ) :
    let (said, _, after) := service.converse pieces d
    match Frame.messages pieces.flatten with
    | .hello version _ :: later =>
        if version = protocolVersion then
          ∃ replies, said = .data (Frame.write (.welcome protocolVersion service.nodeId)) :: replies ∧
            service.Answered d (Message.leadingCalls later) replies after
        else
          said = [.data (Frame.write (.error service.nodeId
              s!"Protocol version mismatch: client={version}, node={protocolVersion}")), .closed] ∧
            after = d
    | _ => said = [.closed] ∧ after = d := by
  obtain ⟨said, last, hears, whole⟩ := hears_converse service pieces d
  generalize service.converse pieces d = conversation at hears whole ⊢
  obtain ⟨_, session, after⟩ := conversation
  cases whole
  dsimp only at hears ⊢
  generalize Frame.messages pieces.flatten = messages at hears ⊢
  cases messages with
  | nil =>
      cases hears with
      | nothing => exact ⟨rfl, rfl⟩
      | ended _ _ ended => exact absurd (.inl rfl) ended
  | cons m later =>
      cases m with
      | hello version clientId =>
          by_cases same : version = protocolVersion
          · have reacts : service.react (.hello version clientId) d .greeting =
                (.serving, [say (.welcome protocolVersion service.nodeId)], d) := by
              simp [react, greet, same]
            obtain ⟨more, rfl, hearsLater⟩ := hears.of_reacts (.inl rfl) reacts
            dsimp only
            rw [if_pos same]
            exact ⟨more ++ farewell last, rfl, hearsLater.answered⟩
          · have reacts : service.react (.hello version clientId) d .greeting =
                (.closed, [say (.error service.nodeId (versionMismatch version)), .closed], d) := by
              simp [react, greet, same]
            obtain ⟨rfl, rfl, rfl⟩ := hears.of_ending (.inl rfl) reacts not_open_closed
            dsimp only
            rw [if_neg same]
            exact ⟨rfl, rfl⟩
      | _ =>
          obtain ⟨rfl, rfl, rfl⟩ := hears.of_ending (.inl rfl) rfl not_open_closed
          simp [greet, farewell]

/-- A handler that panics when it is told to fail, and says what it has been told otherwise. -/
inductive Brittle where
  | handler

instance : Servant Brittle where
  perform _ method args :=
    some (if method = "fail" then ⟨.crashed "boom", .handler, 2⟩
      else .answer (.ok (.array args)) .handler)

/-- A handler panics, and the connection goes on to the next call. The call behind the second `hello`
is not made. -/
theorem converse_answers_in_order_after_panic :
    let service : Service := ⟨"node", "task 7"⟩
    let d : Dispatcher Brittle := Dispatcher.empty.registerClass "Work" .handler
    let stream : List Message := [.hello protocolVersion "client", .invoke 4 (.ofClass "Work") "fail" [],
      .invoke 5 (.ofClass "Work") "say" [.bool true], .hello protocolVersion "client",
      .invoke 6 (.ofClass "Work") "say" []]
    let panic : Failure :=
      .exception "Panic" "handler panicked: task 7 panicked with message \"boom\"" none
    (service.converse [stream.flatMap Frame.write] d).1 =
      [.data (Frame.write (.welcome protocolVersion "node")),
        .pause 2, .data (Frame.write (.reply 4 (.error panic) 2000000)),
        .pause 0, .data (Frame.write (.reply 5 (.ok (.array [.bool true])) 0)), .closed] := by
  intro service d stream panic
  have sendable : ∀ m ∈ stream, m.Sendable := by
    have greeting : (Message.hello protocolVersion "client").Sendable :=
      ⟨trivial, by decide, by decide +kernel⟩
    simp only [stream, List.forall_mem_cons]
    refine ⟨greeting, ?_, ?_, greeting, ?_, nofun⟩
    · exact ⟨trivial, by decide, by decide +kernel⟩
    · exact ⟨⟨trivial, trivial⟩, by decide, by decide +kernel⟩
    · exact ⟨trivial, by decide, by decide +kernel⟩
  have messages : Frame.messages [stream.flatMap Frame.write].flatten = stream := by
    have holds := Frame.holds_flatMap_write sendable
    have nothing : Frame.messages [] = [] := rfl
    rw [List.flatten_singleton, holds.messages_eq, nothing, List.append_nil]
    rfl
  have told : service.Tells (.crashed "boom") (.error panic) := by
    have text : "handler panicked: " ++ service.taskName ++ " panicked with message " ++
        Text.quoted "boom" = "handler panicked: task 7 panicked with message \"boom\"" := by decide
    have plain : service.Tells (.crashed "boom") _ := .panic "boom"
    simpa only [text] using plain
  have expected : ∃ last, service.Answered d
      [⟨4, .ofClass "Work", "fail", []⟩, ⟨5, .ofClass "Work", "say", [.bool true]⟩]
      [.pause 2, .data (Frame.write (.reply 4 (.error panic) 2000000)),
        .pause 0, .data (Frame.write (.reply 5 (.ok (.array [.bool true])) 0)), .closed] last :=
    ⟨_, .reply rfl told (.reply rfl (.value _) (.ended _))⟩
  -- a variable, for the stream would be read where the statement is unfolded
  generalize [stream.flatMap Frame.write] = pieces at messages ⊢
  have answers := converse_answers_in_order service pieces d
  rw [messages] at answers
  obtain ⟨replies, said, answered⟩ := answers
  obtain ⟨last, expected⟩ := expected
  rw [(answered.unique expected).1] at said
  exact said

end Service

end Coordination
