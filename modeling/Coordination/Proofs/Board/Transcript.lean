import Coordination.Board.Transcript
import Coordination.Proofs.Board.Gathering

/-!
The transcript of a board tells how it has come to its present state: from a fresh board, by the
operations that were answered, one after the other.
-/

namespace Coordination

namespace Transcript

@[simp] theorem ofRun_nil (name : String) (replies : List Reply) : ofRun name [] replies = [] := rfl

theorem ofRun_cons (name : String) (request : Request) (reply : Reply) (requests : List Request)
    (replies : List Reply) :
    ofRun name (request :: requests) (reply :: replies) =
      (noted? name (request, reply)).toList ++ ofRun name requests replies := by
  cases found : noted? name (request, reply) <;> simp [ofRun, found]

@[simp] theorem operations_concat (t : Transcript) (operation : Operation) (answer : Answer) :
    operations (t ++ [(operation, answer)]) = operations t ++ [operation] := List.map_append

end Transcript

/-- An operation that is answered has failed and left everything as it was, or has led its board to
another state. -/
theorem Host.operate_cases {h after : Host} {name owner : String} {lockTimeout : Option UInt64}
    {operation : Operation} {outcome : Except Fault Answer}
    (operated : h.operate name owner lockTimeout operation = some (outcome, after)) :
    (∃ fault, outcome = .error fault ∧ after = h) ∨
      ∃ b answer next, h.boards.get? name = some b ∧ next.name = name ∧
        operation.onBoard owner lockTimeout b = some (.ok (answer, next)) ∧
        outcome = .ok answer ∧ after = h.replaceBoard next := by
  unfold operate at operated
  cases found : h.board name with
  | error fault =>
      rw [found] at operated
      cases operated
      exact .inl ⟨fault, rfl, rfl⟩
  | ok b =>
      simp only [found, Option.map_eq_some_iff] at operated
      obtain ⟨result, done, committed⟩ := operated
      cases result with
      | error fault =>
          cases committed
          exact .inl ⟨fault, rfl, rfl⟩
      | ok direct =>
          cases committed
          have hosted := board_eq_ok_iff.mp found
          have named := (Operation.continues_onBoard done).1.trans (h.named name b hosted)
          exact .inr ⟨b, direct.1, direct.2, hosted, named, done, rfl, rfl⟩

namespace Gathering

open Transcript

variable {g : Gathering} {name : String} {b : Board}

/-! One request, as one board sees it. -/

/-- A request makes the board, or performs one operation on it, or leaves it as it was. -/
inductive Effect (name : String) (before : Host) (request : Request) (reply : Reply)
    (after : Host) : Prop where
  | nothing (silent : noted? name (request, reply) = none)
      (same : after.boards.get? name = before.boards.get? name)
  | made (silent : noted? name (request, reply) = none)
      (absent : before.boards.get? name = none) (schema : Schema)
      (fresh : after.boards.get? name = some (.fresh name schema))
  | operation (owner : String) (lockTimeout : Option UInt64) (operation : Operation)
      (answer : Answer) (b next : Board)
      (entry : noted? name (request, reply) = some (operation, answer))
      (hosted : before.boards.get? name = some b)
      (done : operation.onBoard owner lockTimeout b = some (.ok (answer, next)))
      (later : after.boards.get? name = some next)

theorem effect_attach (g : Gathering) (name : String) (party : Nat) (other : String)
    (schema : Schema) :
    Effect name g.host (.attach party other schema) (g.attach party other schema).1
      (g.attach party other schema).2.host := by
  unfold attach
  cases attached : g.host.attach other schema with
  | error fault => exact .nothing rfl rfl
  | ok after =>
      rw [Host.attach_eq] at attached
      cases found : g.host.boards.get? other with
      | some board =>
          simp only [found] at attached
          split at attached
          · cases attached
            exact .nothing rfl rfl
          · cases attached
      | none =>
          simp only [found, Except.ok.injEq] at attached
          subst attached
          by_cases same : name = other
          · subst same
            exact .made rfl found schema ((g.host.get?_replaceBoard _ name).trans (if_pos rfl))
          · exact .nothing rfl (g.host.get?_replaceBoard_of_ne same)

theorem effect_operate (g : Gathering) (name : String) (party : Nat) (p : Party) (other : String)
    (operation : Operation) :
    Effect name g.host (.operate party other operation) (g.operate p other operation).1
      (g.operate p other operation).2.host := by
  unfold operate
  cases operated : g.host.operate other p.clientId p.lockTimeout operation with
  | none => exact .nothing rfl rfl
  | some result =>
      obtain ⟨outcome, after⟩ := result
      rcases Host.operate_cases operated with
        ⟨fault, rfl, rfl⟩ | ⟨b, answer, next, hosted, rfl, done, rfl, rfl⟩
      · exact .nothing rfl rfl
      · by_cases here : next.name = name
        · subst here
          refine .operation _ _ operation answer b next (if_pos rfl) hosted done ?_
          exact (g.host.get?_replaceBoard next next.name).trans (if_pos rfl)
        · exact .nothing (if_neg here) (g.host.get?_replaceBoard_of_ne (Ne.symm here))

theorem effect_call (g : Gathering) {method : String} {args : List Json}
    (spares : (Request.call method args).Spares name) :
    Effect name g.host (.call method args) (g.step (.call method args)).1
      (g.step (.call method args)).2.host := by
  rw [step]
  cases performed : g.host.perform method args with
  | none => exact .nothing rfl rfl
  | some reaction =>
      obtain ⟨ending, after, millis⟩ := reaction
      cases ending with
      | crashed text => exact .nothing rfl rfl
      | answered outcome =>
          refine .nothing rfl ?_
          rcases Host.within_perform performed with rfl | ⟨_, -, other, given, others, -⟩
          · rfl
          · refine others name ?_
            rintro rfl
            exact spares given

theorem effect_step (g : Gathering) {request : Request} (spares : request.Spares name) :
    Effect name g.host request (g.step request).1 (g.step request).2.host := by
  cases request with
  | attach party other schema =>
      cases isParty : g.parties[party]? with
      | none =>
          simp only [step, isParty]
          exact .nothing rfl rfl
      | some p =>
          simp only [step, isParty]
          exact effect_attach g name party other schema
  | operate party other operation =>
      cases isParty : g.parties[party]? with
      | none =>
          simp only [step, isParty]
          exact .nothing rfl rfl
      | some p =>
          by_cases attached : (party, other) ∈ g.attached
          · simp only [step, isParty, if_pos attached]
            exact effect_operate g name party p other operation
          · simp only [step, isParty, if_neg attached]
            exact .nothing rfl rfl
  | call method args => exact effect_call g spares

/-! Runs. -/

theorem run_cons (g : Gathering) (request : Request) (rest : List Request) :
    g.run (request :: rest) =
      ((g.step request).1 :: ((g.step request).2.run rest).1, ((g.step request).2.run rest).2) := rfl

theorem undergoes_run {before : Board} {earlier : Transcript}
    (undergone : before.Undergoes earlier b) (hosted : g.host.boards.get? name = some b)
    {requests : List Request} (spare : ∀ request ∈ requests, request.Spares name) :
    ∃ after, (g.run requests).2.host.boards.get? name = some after ∧
      before.Undergoes (earlier ++ ofRun name requests (g.run requests).1) after := by
  induction requests generalizing g b earlier with
  | nil =>
      refine ⟨b, hosted, ?_⟩
      rw [ofRun_nil, List.append_nil]
      exact undergone
  | cons request rest induction =>
      have restSpares := fun other member => spare other (List.mem_cons_of_mem _ member)
      rw [run_cons, ofRun_cons]
      cases effect_step g (spare request List.mem_cons_self) with
      | nothing silent same =>
          rw [silent]
          exact induction undergone (same.trans hosted) restSpares
      | made silent absent schema fresh => cases absent.symm.trans hosted
      | operation owner lockTimeout operation answer found next entry isFound done later =>
          cases hosted.symm.trans isFound
          rw [entry, Option.toList_some, ← List.append_assoc]
          exact induction (undergone.operation done) later restSpares

/-- Where no board was, there is still none and nothing has been done to it, or else one that has come
to its state by the operations of the transcript. -/
theorem transcript_run (absent : g.host.boards.get? name = none) {requests : List Request}
    (spare : ∀ request ∈ requests, request.Spares name) :
    ((g.run requests).2.host.boards.get? name = none ∧
        ofRun name requests (g.run requests).1 = []) ∨
      ∃ schema after, (g.run requests).2.host.boards.get? name = some after ∧
        (Board.fresh name schema).Undergoes (ofRun name requests (g.run requests).1) after := by
  induction requests generalizing g with
  | nil => exact .inl ⟨absent, rfl⟩
  | cons request rest induction =>
      have restSpares := fun other member => spare other (List.mem_cons_of_mem _ member)
      rw [run_cons, ofRun_cons]
      cases effect_step g (spare request List.mem_cons_self) with
      | nothing silent same =>
          rw [silent]
          exact induction (same.trans absent) restSpares
      | made silent _ schema fresh =>
          rw [silent]
          exact .inr ⟨schema, undergoes_run .nothing fresh restSpares⟩
      | operation owner lockTimeout operation answer found next entry isFound done later =>
          cases absent.symm.trans isFound

end Gathering

/-! The same through handles. -/

namespace RemoteGathering

/-- Handles in use are handles of the boards that the host has. -/
theorem attached_run (c : Cluster) (host : Host) (parties : List Party)
    (requests : List Request) :
    let remote := (start c host parties).run requests
    let direct := (Gathering.start host parties).run requests
    remote.1 = direct.1 ∧ remote.2.cluster = c.withHost direct.2.host ∧
      ∀ d ∈ remote.2.directories, ∀ name handle, d.instance? name .inProcess = some handle →
        handle.name = name ∧ ∃ b, handle.Attached direct.2.host b := by
  intro remote direct
  obtain ⟨sameReplies, mirrors⟩ := agree_run (mirrors_start c host parties) requests
  refine ⟨sameReplies, mirrors.cluster, ?_⟩
  intro d member name handle known
  obtain ⟨party, found⟩ := List.getElem?_of_mem member
  rcases mirrors.everyone party with ⟨-, nobody⟩ | ⟨p, _, isParty, found'⟩
  · cases nobody.symm.trans found
  · cases found'.symm.trans found
    obtain ⟨named, -, -, attached⟩ :=
      (mirrors.serves party p d isParty found).handle name handle known
    exact ⟨named, attached⟩

variable {c : Cluster} {host : Host} {parties : List Party} {requests : List Request}
  {name : String}

theorem undergoes_run (absent : host.boards.get? name = none)
    (spare : ∀ request ∈ requests, request.Spares name) :
    Transcript.ofRun name requests ((start c host parties).run requests).1 = [] ∨
      ∃ schema after, (Board.fresh name schema).Undergoes
        (Transcript.ofRun name requests ((start c host parties).run requests).1) after := by
  rw [(attached_run c host parties requests).1]
  rcases Gathering.transcript_run (g := .start host parties) absent spare with
    ⟨-, nothing⟩ | ⟨schema, after, -, undergone⟩
  · exact .inl nothing
  · exact .inr ⟨schema, after, undergone⟩

/-- Behind a handle stands the board that the transcript has led to. -/
theorem undergoes_of_instance? (absent : host.boards.get? name = none)
    (spare : ∀ request ∈ requests, request.Spares name) {d : Directory Cluster}
    (member : d ∈ ((start c host parties).run requests).2.directories) {handle : Handle Cluster}
    (known : d.instance? name .inProcess = some handle) :
    handle.name = name ∧ ∃ schema b,
      handle.Attached ((Gathering.start host parties).run requests).2.host b ∧
        (Board.fresh name schema).Undergoes
          (Transcript.ofRun name requests ((start c host parties).run requests).1) b := by
  obtain ⟨replies, -, attached⟩ := attached_run c host parties requests
  obtain ⟨named, b, isAttached⟩ := attached d member name handle known
  have hosted := isAttached.hosted
  rw [named] at hosted
  rw [replies]
  rcases Gathering.transcript_run (g := .start host parties) absent spare with
    ⟨nowhere, -⟩ | ⟨schema, _, found, undergone⟩
  · cases nowhere.symm.trans hosted
  · cases found.symm.trans hosted
    exact ⟨named, schema, b, isAttached, undergone⟩

end RemoteGathering

end Coordination
