import Coordination.Board.Host
import Coordination.Proofs.Board.Basic
import Coordination.Proofs.Json.Decoder

/-! What the methods of a host come to, by the board that they name and the arguments given. -/

namespace Coordination

theorem argument_eq_ok_iff {α : Type} {decode : Json.Decoder α} {args : List Json} {index : Nat}
    {method : String} {a : α} :
    argument decode args index method = .ok a ↔ ∃ v, args[index]? = some v ∧ decode v = .ok a := by
  unfold argument
  cases args[index]? with
  | none => simp
  | some v => cases decoded : decode v <;> simp [decoded]

theorem CounterId.decoder_eq_ok_iff {v : Json} {id : CounterId} :
    decoder v = .ok id ↔ v = id.toJson := by
  simp only [decoder, map_eq_ok_iff, Json.Decoder.uint16_eq_ok_iff, toJson]
  constructor
  · rintro ⟨number, rfl, rfl⟩
    rfl
  · rintro rfl
    exact ⟨id.number, rfl, rfl⟩

@[simp] theorem CounterId.decoder_toJson (id : CounterId) : decoder id.toJson = .ok id :=
  decoder_eq_ok_iff.mpr rfl

@[simp] theorem Schema.decoder_toJson (schema : Schema) : decoder schema.toJson = .ok schema := by
  have counters := Json.Decoder.list_map Json.Decoder.string_string schema.counters
  have locks := Json.Decoder.list_map Json.Decoder.string_string schema.locks
  simp [decoder, toJson, namesJson, Json.Decoder.Record.decode,
    Json.Decoder.Record.ofMembers, List.lookup, counters, locks]

namespace Host

/-! The boards of a host. -/

theorem board_eq_ok_iff {h : Host} {name : String} {b : Board} :
    h.board name = .ok b ↔ h.boards.get? name = some b := by
  unfold board
  cases h.boards.get? name <;> simp

theorem get?_replaceBoard (h : Host) (b : Board) (name : String) :
    (h.replaceBoard b).boards.get? name = if name = b.name then some b else h.boards.get? name :=
  Table.get?_insert h.boards b.name name b

theorem get?_replaceBoard_of_ne (h : Host) {b : Board} {name : String} (apart : name ≠ b.name) :
    (h.replaceBoard b).boards.get? name = h.boards.get? name := by
  rw [get?_replaceBoard, if_neg apart]

theorem replaceBoard_of_hosted {h : Host} {b : Board}
    (hosted : h.boards.get? b.name = some b) : h.replaceBoard b = h := by
  obtain ⟨boards, named⟩ := h
  simp only [replaceBoard, Table.insert_of_get? hosted]

/-! Attaching. -/

theorem on_ensureBoard (h : Host) (name : String) (schema : Schema) :
    (ensureBoard name schema).on h =
      match h.boards.get? name with
      | some board =>
          if board.schema = schema then (.ok ⟨⟩, h) else (.error (.schemaMismatch name), h)
      | none => (.ok ⟨⟩, h.replaceBoard (.fresh name schema)) := by
  rw [ensureBoard, InPlace.on_get_bind]
  cases h.boards.get? name with
  | none => rfl
  | some board => by_cases same : board.schema = schema <;> simp [same]

theorem attach_eq (h : Host) (name : String) (schema : Schema) :
    h.attach name schema =
      match h.boards.get? name with
      | some board => if board.schema = schema then .ok h else .error (.schemaMismatch name)
      | none => .ok (h.replaceBoard (.fresh name schema)) := by
  rw [attach, InPlace.final, InPlace.value, on_ensureBoard]
  cases h.boards.get? name with
  | none => rfl
  | some board => by_cases same : board.schema = schema <;> simp [same]

theorem spares_ensureBoard (h : Host) (name : String) (schema : Schema) :
    (ensureBoard name schema).Spares h fun _ after => h.attach name schema = .ok after := by
  unfold InPlace.Spares
  rw [on_ensureBoard, attach_eq]
  cases h.boards.get? name with
  | none => rfl
  | some board => by_cases same : board.schema = schema <;> simp [same]

theorem attach_of_hosted {h : Host} {name : String} {b : Board}
    (hosted : h.boards.get? name = some b) (schema : Schema) :
    h.attach name schema =
      if b.schema = schema then .ok h else .error (.schemaMismatch name) := by
  rw [attach_eq, hosted]

theorem fault_of_attach {h : Host} {name : String} {schema : Schema} {fault : Fault}
    (failed : h.attach name schema = .error fault) : fault = .schemaMismatch name := by
  rw [attach_eq] at failed
  split at failed
  · split at failed
    · cases failed
    · cases failed
      rfl
  · cases failed

theorem on_attachBoard {h : Host} {args : List Json} {schema : Schema}
    (given : argument Schema.decoder args 1 Method.attach.name = .ok schema) (name : String) :
    (attachBoard name args).on h =
      match h.attach name schema with
      | .ok after => (.ok (some .null), after)
      | .error fault => (.error (.ofFault fault), h) := by
  rw [attachBoard, InPlace.on_ofResult_bind given, InPlace.on_bind, raising,
    InPlace.on_mapFailure, on_ensureBoard, attach_eq]
  cases h.boards.get? name with
  | none => rfl
  | some board => by_cases same : board.schema = schema <;> simp [same, Except.mapError]

/-! Methods by their names. -/

@[simp] theorem ofName?_name (method : Method) : Method.ofName? method.name = some method := by
  cases method <;> rfl

theorem name_of_ofName? {name : String} {method : Method}
    (found : Method.ofName? name = some method) : method.name = name := by
  have named := List.find?_some found
  exact eq_of_beq named

/-! A call names its board first, and everything else depends on what is there. -/

section Perform

variable {h : Host} {method : String} {args : List Json} {name : String} {b : Board}

theorem argument_name (given : args[0]? = some (.string name)) :
    argument Json.Decoder.string args 0 method = .ok name :=
  argument_eq_ok_iff.mpr ⟨.string name, given, rfl⟩

theorem handle_of_unnamed {refusal : Refusal}
    (unnamed : argument Json.Decoder.string args 0 method = .error refusal) :
    (handle method args).on h = (.error refusal, h) :=
  InPlace.on_bind_of_error (congrArg (·, h) unnamed) _

theorem handle_attach (given : args[0]? = some (.string name)) :
    (handle Method.attach.name args).on h = (attachBoard name args).on h :=
  InPlace.on_ofResult_bind (argument_name given) _ h

/-- What is done to a board is done to it in its place at the host. -/
theorem on_onBoard {α : Type} (hosted : h.boards.get? name = some b)
    (work : InPlace Refusal Board α) :
    (onBoard name work).on h = Prod.map id h.replaceBoard (work.on b) := by
  have found : (raising (.ofResult (h.board name)) : InPlace Refusal Host Board).on h =
      (.ok b, h) := by
    rw [board_eq_ok_iff.mpr hosted]
    rfl
  rw [onBoard, InPlace.on_get_bind, InPlace.on_bind_of_ok found]
  rfl

theorem onBoard_of_unhosted {α : Type} (absent : h.boards.get? name = none)
    (work : InPlace Refusal Board α) :
    (onBoard name work).on h = (.error (.ofFault (.unknownBoard name)), h) := by
  have notFound : (raising (.ofResult (h.board name)) : InPlace Refusal Host Board).on h =
      (.error (.ofFault (.unknownBoard name)), h) := by
    rw [board, absent]
    rfl
  rw [onBoard, InPlace.on_get_bind, InPlace.on_bind_of_error notFound]

theorem handle_of_unknown (given : args[0]? = some (.string name))
    (unknown : Method.ofName? method = none) :
    (handle method args).on h =
      (onBoard name (throw (.unknownMethod className method))).on h := by
  rw [handle, InPlace.on_ofResult_bind (argument_name given), unknown]

theorem handle_carryOut {found : Method} (given : args[0]? = some (.string name))
    (notAttach : found ≠ .attach) :
    (handle found.name args).on h = (onBoard name (carryOut found args)).on h := by
  rw [handle, InPlace.on_ofResult_bind (argument_name given), ofName?_name]
  cases found <;> simp_all

theorem perform_carryOut {found : Method} (given : args[0]? = some (.string name))
    (hosted : h.boards.get? name = some b) (notAttach : found ≠ .attach) :
    h.perform found.name args =
      reaction? (Prod.map id h.replaceBoard ((carryOut found args).on b)) := by
  rw [perform, handle_carryOut given notAttach, on_onBoard hosted]

end Perform

/-- A call is refused, attaches a board, or does something to the board that it names. -/
theorem handle_cases {h : Host}
    {motive : String → List Json → Except Refusal (Option Json) × Host → Prop}
    (refused : ∀ method args refusal, motive method args (.error refusal, h))
    (attaches : ∀ args name, args[0]? = some (.string name) →
      motive Method.attach.name args ((attachBoard name args).on h))
    (works : ∀ (found : Method) args (b : Board), args[0]? = some (.string b.name) →
      h.boards.get? b.name = some b → found ≠ .attach →
      motive found.name args (Prod.map id h.replaceBoard ((carryOut found args).on b)))
    (method : String) (args : List Json) : motive method args ((handle method args).on h) := by
  cases named : argument Json.Decoder.string args 0 method with
  | error refusal =>
      rw [handle_of_unnamed named]
      exact refused method args refusal
  | ok name =>
      obtain ⟨_, given, same⟩ := argument_eq_ok_iff.mp named
      rw [Json.Decoder.string_eq_ok_iff] at same
      subst same
      by_cases attaching : method = Method.attach.name
      · subst attaching
        rw [handle_attach given]
        exact attaches args name given
      · cases known : Method.ofName? method with
        | none =>
            rw [handle_of_unknown given known]
            cases hosted : h.boards.get? name with
            | none =>
                rw [onBoard_of_unhosted hosted]
                exact refused method args _
            | some b =>
                obtain rfl := h.named name b hosted
                rw [on_onBoard hosted, InPlace.on_throw, Prod.map, replaceBoard_of_hosted hosted]
                exact refused method args _
        | some found =>
            obtain rfl := name_of_ofName? known
            have notAttach : found ≠ .attach := by
              rintro rfl
              exact attaching rfl
            rw [handle_carryOut given notAttach]
            cases hosted : h.boards.get? name with
            | none =>
                rw [onBoard_of_unhosted hosted]
                exact refused _ args _
            | some b =>
                obtain rfl := h.named name b hosted
                rw [on_onBoard hosted]
                exact works found args b given hosted notAttach

/-! What a method comes to on a board. -/

/-- The method comes to this result on the board, told to the caller in JSON. -/
def ComesTo {α : Type} (b : Board) (method : Method) (args : List Json) (toJson : α → Json)
    (result : Except Fault (α × Board)) : Prop :=
  (carryOut method args).on b =
    match result with
    | .ok (a, after) => (.ok (some (toJson a)), after)
    | .error fault => (.error (.ofFault fault), b)

section ComesTo

variable {α : Type} {h : Host} {b : Board} {method : Method} {args : List Json} {toJson : α → Json}
  {result : Except Fault (α × Board)}

theorem on_raising_bind {x : InPlace Fault Board α} {post : α → Board → Prop}
    (spares : x.Spares b post) (toJson : α → Json) :
    (raising x >>= fun a => pure (some (toJson a))).on b =
      match x.value b with
      | .ok (a, after) => (.ok (some (toJson a)), after)
      | .error fault => (.error (.ofFault fault), b) := by
  rw [InPlace.on_bind, raising, InPlace.on_mapFailure, spares.on_eq]
  cases x.value b <;> rfl

theorem ComesTo.ne_attach (comes : ComesTo b method args toJson result) : method ≠ .attach := by
  rintro rfl
  have refused : (carryOut .attach args).on b =
      (.error (.unknownMethod className Method.attach.name), b) := rfl
  have same := refused.symm.trans comes
  cases result <;> simp [Refusal.unknownMethod, Refusal.plain, Refusal.ofFault] at same

variable {name : String} (hosted : h.boards.get? name = some b)

include hosted

theorem ComesTo.perform_ok {a : α} {after : Board}
    (comes : ComesTo b method (.string name :: args) toJson (.ok (a, after))) :
    h.perform method.name (.string name :: args) =
      some (.answer (.ok (toJson a)) (h.replaceBoard after)) := by
  rw [perform_carryOut rfl hosted comes.ne_attach, comes]
  rfl

theorem ComesTo.perform_error {fault : Fault}
    (comes : ComesTo b method (.string name :: args) toJson (.error fault)) :
    h.perform method.name (.string name :: args) =
      some ⟨.answered (.error (.ofFault fault)), h, waited (.ofFault fault)⟩ := by
  obtain rfl := h.named name b hosted
  rw [perform_carryOut rfl hosted comes.ne_attach, comes, Prod.map, replaceBoard_of_hosted hosted]
  rfl

end ComesTo

end Host

end Coordination
