import Coordination.Proofs.Remote.Delivery

/-!
What becomes of a frame whose message is too long or nested too deeply: writers put it on the stream like
any other, and it is for the reader to refuse it.
-/

namespace Coordination

namespace Message

open MessagePack

/-! Messages that are nested too deeply. -/

theorem fields?_of_le {budget : Nat} (spent : budget ≤ 1) (names : List String) (item : Item) :
    item.fields? budget names = none := by
  have stopped : Item.descend? budget = none := if_pos spent
  simp only [Item.fields?, stopped]

theorem failure?_packedFailure_of_le {failure : Failure} {budget : Nat}
    (deep : budget ≤ failure.nesting) :
    failure? budget (Item.ofJson (packedFailure failure)) = none := by
  cases failure with
  | unreachable reason =>
      rw [packedFailure, failure?, variant?_object 0 rfl]
      simp only [fields?_of_le deep]
  | timeout afterMs =>
      rw [packedFailure, failure?, variant?_object 2 rfl]
      simp only [fields?_of_le deep]
  | exception typeName message payload =>
      rw [packedFailure, failure?, variant?_object 1 rfl]
      by_cases inside : 1 < budget
      · have fields : (Item.ofJson (.array [.string typeName, .string message, payload.getD .null])).fields?
            budget ["type_name", "message", "payload"] = _ := fields?_array inside rfl
        have lost : payload? (budget - 1) (some (Item.ofJson (payload.getD .null))) = none := by
          cases payload with
          | none => exact absurd deep (Nat.not_le_of_lt inside)
          | some v =>
              have inner : budget - 1 ≤ v.nesting := Nat.sub_le_of_le_add deep
              have present : v ≠ .null := by
                rintro rfl
                exact absurd inner (by rw [Json.nesting]; omega)
              rw [Option.getD_some, payload?_ofJson present,
                Item.json?_ofJson_of_le v (by omega) inner, Option.map_none]
        simp only [fields, List.map_cons, List.map_nil, text?_string, lost]
        rfl
      · simp only [fields?_of_le (Nat.le_of_not_lt inside)]

theorem outcome?_packedOutcome_of_le {outcome : Outcome} {budget : Nat} (left : 0 < budget)
    (deep : budget ≤ Outcome.nesting outcome) :
    outcome? budget (Item.ofJson (packedOutcome outcome)) = none := by
  cases outcome with
  | ok v =>
      rw [packedOutcome, outcome?, variant?_object 0 rfl]
      simp only [Item.json?_ofJson_of_le v left deep, Option.map_none]
  | error failure =>
      rw [packedOutcome, outcome?, variant?_object 1 rfl]
      simp only [failure?_packedFailure_of_le deep, Option.map_none]

theorem args?_array_of_le {args : List Json} {budget : Nat}
    (deep : budget ≤ Json.itemsNesting args + 1) :
    args? budget (Item.ofJson (.array args)) = none := by
  rcases Item.descend?_of_le deep with stopped | ⟨less, descended, left, inner⟩
  · simp only [Item.ofJson, args?, stopped]
  · simp only [Item.ofJson, args?, descended, Item.jsonItems?_ofItems_of_le args left inner]

theorem ofItem?_packed_of_le {m : Message} (deep : nestingBudget ≤ m.nesting) :
    ofItem? (Item.ofJson m.packed) = none := by
  have inside : 1 < nestingBudget := by decide
  cases m with
  | hello | welcome | error => exact absurd deep (Nat.not_le_of_lt inside)
  | invoke callId target method args =>
      have fields : (Item.ofJson (.array [.ofNat callId.toNat, packedTarget target, .string method,
          .array args])).fields? nestingBudget ["call_id", "target", "method", "args"] = _ :=
        fields?_array inside rfl
      have lost : args? (nestingBudget - 1) (Item.ofJson (.array args)) = none :=
        args?_array_of_le (Nat.sub_le_of_le_add deep)
      rw [packed, ofItem?, variant?_object 2 rfl]
      simp only [invoke?, fields, List.map_cons, List.map_nil, uint64?_ofNat, target?_packedTarget,
        text?_string, lost]
      rfl
  | reply callId outcome elapsed =>
      have fields : (Item.ofJson (.array [.ofNat callId.toNat, packedOutcome outcome,
          .ofNat elapsed.toNat])).fields? nestingBudget ["call_id", "outcome", "remote_elapsed_ns"] = _ :=
        fields?_array inside rfl
      have lost : outcome? (nestingBudget - 1) (Item.ofJson (packedOutcome outcome)) = none :=
        outcome?_packedOutcome_of_le (by decide) (Nat.sub_le_of_le_add deep)
      rw [packed, ofItem?, variant?_object 3 rfl]
      simp only [reply?, fields, List.map_cons, List.map_nil, uint64?_ofNat, lost]
      rfl

theorem ofBytes?_bytes_of_le {m : Message} (valid : m.Valid) (short : m.bytes.length < Bytes.capacity 4)
    (deep : nestingBudget ≤ m.nesting) : ofBytes? m.bytes = none := by
  have read := Item.read_bytes (packed_valid valid) short []
  rw [List.append_nil] at read
  change Item.read m.bytes = _ at read
  rw [ofBytes?, read]
  exact ofItem?_packed_of_le deep

end Message

namespace Frame

variable {m : Message}

/-! The reader goes by the length field, which holds the length of the body in 32 bits. -/

theorem field_write_mod (m : Message) (rest : Bytes) :
    ∃ field, Field (write m ++ rest) field (m.bytes ++ rest) ∧
      Bytes.ofLittleEndian field = m.bytes.length % Bytes.capacity 4 :=
  ⟨Bytes.littleEndian 4 m.bytes.length, ⟨by rw [write, List.append_assoc], by simp⟩, by simp⟩

theorem read_write_of_cut {cut : Nat} (announced : m.bytes.length % Bytes.capacity 4 = cut)
    (rest : Bytes) :
    read (write m ++ rest) =
      if maxBody < cut then .error (.tooLarge cut)
      else match Message.ofBytes? (m.bytes.take cut) with
        | none => .error .undecodable
        | some found => .ok (found, m.bytes.drop cut ++ rest) := by
  obtain ⟨field, isField, announces⟩ := field_write_mod m rest
  rw [announced] at announces
  have fieldTaken := Bytes.take?_eq_some_iff.mpr ⟨isField.split, isField.width⟩
  have within : cut ≤ m.bytes.length := announced ▸ Nat.mod_le _ _
  have bodyTaken : Bytes.take? cut (m.bytes ++ rest) =
      some (m.bytes.take cut, m.bytes.drop cut ++ rest) := by
    refine Bytes.take?_eq_some_iff.mpr ⟨?_, List.length_take_of_le within⟩
    rw [← List.append_assoc, List.take_append_drop]
  simp only [read, scan, fieldTaken, announces, bodyTaken]
  by_cases large : maxBody < cut
  · simp only [if_pos large]
  · simp only [if_neg large]
    cases Message.ofBytes? (m.bytes.take cut) <;> rfl

theorem read_write_of_not_sendable (valid : m.Valid) (short : m.bytes.length < Bytes.capacity 4)
    (refused : ¬ m.Sendable) (rest : Bytes) :
    read (write m ++ rest) = .error
      (if maxBody < m.bytes.length then .tooLarge m.bytes.length else .undecodable) := by
  rw [read_write_of_cut (Nat.mod_eq_of_lt short), List.take_length]
  by_cases large : maxBody < m.bytes.length
  · rw [if_pos large, if_pos large]
  · have deep : Message.nestingBudget ≤ m.nesting := by
      by_contra shallow
      exact refused ⟨valid, Nat.lt_of_not_le shallow, Nat.le_of_not_lt large⟩
    rw [if_neg large, if_neg large, Message.ofBytes?_bytes_of_le valid short deep]

/-- Of a frame that announces less than it holds something is left over. -/
theorem read_write_ne_of_le (long : Bytes.capacity 4 ≤ m.bytes.length) (found : Message)
    (rest : Bytes) : read (write m ++ rest) ≠ .ok (found, rest) := by
  intro isRead
  rw [read_write_of_cut rfl] at isRead
  have cut : m.bytes.length % Bytes.capacity 4 < m.bytes.length :=
    Nat.lt_of_lt_of_le (Nat.mod_lt _ (by decide)) long
  split at isRead
  · cases isRead
  · split at isRead
    · cases isRead
    · have same := congrArg List.length (Prod.mk.inj (Except.ok.inj isRead)).2
      rw [List.length_append, List.length_drop] at same
      omega

/-- Every message is written, and its frame is read back whole if and only if it can be sent. One whose
body is too long for a reader or nested too deeply for it is refused, and of one whose length does not
fit its field no more is read than the field says. -/
theorem read_back_iff_sendable (valid : m.Valid) (rest : Bytes) :
    (∃ field, Field (write m ++ rest) field (m.bytes ++ rest) ∧
      (Bytes.ofLittleEndian field = m.bytes.length ↔ m.bytes.length < Bytes.capacity 4)) ∧
    (∀ found, read (write m ++ rest) = .ok (found, rest) ↔ m.Sendable ∧ found = m.delivered) ∧
    (m.bytes.length < Bytes.capacity 4 → ¬ m.Sendable →
      read (write m ++ rest) = .error
        (if maxBody < m.bytes.length then .tooLarge m.bytes.length else .undecodable)) ∧
    (Bytes.capacity 4 ≤ m.bytes.length →
      let cut := m.bytes.length % Bytes.capacity 4
      read (write m ++ rest) =
        if maxBody < cut then .error (.tooLarge cut)
        else match Message.ofBytes? (m.bytes.take cut) with
          | none => .error .undecodable
          | some found => .ok (found, m.bytes.drop cut ++ rest)) := by
  refine ⟨?_, ?_, fun short refused => read_write_of_not_sendable valid short refused rest,
    fun _ => read_write_of_cut rfl rest⟩
  · obtain ⟨field, isField, announces⟩ := field_write_mod m rest
    refine ⟨field, isField, ?_⟩
    rw [announces]
    exact Nat.mod_eq_iff_lt (by decide)
  · intro found
    constructor
    · intro isRead
      by_cases sendable : m.Sendable
      · rw [read_write sendable] at isRead
        exact ⟨sendable, (Prod.mk.inj (Except.ok.inj isRead)).1.symm⟩
      · rcases Nat.lt_or_ge m.bytes.length (Bytes.capacity 4) with short | long
        · rw [read_write_of_not_sendable valid short sendable] at isRead
          cases isRead
        · exact absurd isRead (read_write_ne_of_le long found rest)
    · rintro ⟨sendable, rfl⟩
      exact read_write sendable rest

/-- A cause of null is read as no cause, with a byte of the next frame behind it. -/
theorem read_back_iff_sendable_null :
    let m : Message := .reply 7 (.error (.exception "TaskFailed" "boom" (some .null))) 1500
    let told : Message := .reply 7 (.error (.exception "TaskFailed" "boom" none)) 1500
    m.Valid ∧ m.Sendable ∧ read (write m ++ [0xff]) = .ok (told, [0xff]) := by
  intro m told
  have valid : m.Valid := trivial
  have sendable : m.Sendable := ⟨valid, by decide, by decide +kernel⟩
  obtain ⟨-, whole, -⟩ := read_back_iff_sendable valid [0xff]
  exact ⟨valid, sendable, (whole told).mpr ⟨sendable, rfl⟩⟩

/-! Long texts and deep nesting, of any size. -/

theorem length_ofString_replicate (count : Nat) :
    (Bytes.ofString (String.ofList (List.replicate count 'a'))).length = count := by
  have size : (List.replicate count 'a').utf8Encode.size = count := by
    induction count with
    | zero => rfl
    | succ count induction =>
        rw [List.replicate_succ, List.utf8Encode_cons, ByteArray.size_append, induction]
        exact Nat.add_comm 1 count
  rw [Bytes.ofString, String.toByteArray_ofList]
  exact size

open MessagePack in
theorem bytes_error {reason : String} {length : Nat}
    (measured : (Bytes.ofString reason).length = length) :
    (Message.error "" reason).bytes =
      (mapHead 1 ++ textBytes "Error" ++ arrayHead 2 ++ textBytes "" ++ textHead (.ofNat length)) ++
        Bytes.ofString reason := by
  have written : textBytes reason = textHead (.ofNat length) ++ Bytes.ofString reason := by
    rw [textBytes, measured]
  simp only [Message.bytes, Message.packed, MessagePack.bytes, memberBytes, itemBytes, written,
    List.length_cons, List.length_nil, List.append_nil, List.append_assoc]
  rfl

theorem length_bytes_error_of_long {reason : String} {length : Nat}
    (measured : (Bytes.ofString reason).length = length) (long : 0x10000 ≤ length)
    (short : length < 0x100000000) : (Message.error "" reason).bytes.length = 14 + length := by
  have announced : MessagePack.textHead (.ofNat length) = MessagePack.head 0xdb 4 length := by
    rw [MessagePack.textHead, UInt32.toNat_ofNat_of_lt' short, if_neg (by omega), if_neg (by omega),
      if_neg (by omega)]
  rw [bytes_error measured, announced, List.length_append, List.length_append, measured,
    MessagePack.head, List.length_cons, Bytes.length_bigEndian]
  rfl

theorem nesting_iterate_array (depth : Nat) (v : Json) :
    ((fun v => Json.array [v])^[depth] v).nesting = v.nesting + depth := by
  induction depth with
  | zero => rfl
  | succ depth induction =>
      rw [Function.iterate_succ_apply', Json.nesting, Json.itemsNesting, Json.itemsNesting, induction,
        Nat.max_zero, Nat.add_assoc]

theorem valid_iterate_array (depth : Nat) {v : Json} (valid : v.Valid) :
    ((fun v => Json.array [v])^[depth] v).Valid := by
  induction depth with
  | zero => exact valid
  | succ depth induction =>
      rw [Function.iterate_succ_apply']
      exact ⟨induction, trivial⟩

theorem length_bytes_iterate_array (depth : Nat) (v : Json) :
    (MessagePack.bytes ((fun v => Json.array [v])^[depth] v)).length =
      (MessagePack.bytes v).length + depth := by
  induction depth with
  | zero => rfl
  | succ depth induction =>
      have head : (MessagePack.arrayHead (.ofNat 1)).length = 1 := rfl
      rw [Function.iterate_succ_apply', MessagePack.bytes, MessagePack.itemBytes, MessagePack.itemBytes,
        List.append_nil, List.length_append, induction, List.length_singleton, head]
      omega

theorem read_write_of_deep (depth : Nat) (deep : 1021 ≤ depth) (short : depth ≤ 0x10000)
    (rest : Bytes) :
    let m : Message :=
      .invoke 1 (.ofClass "C") "m" [(fun v => Json.array [v])^[depth] (.array [])]
    m.Valid ∧ read (write m ++ rest) = .error .undecodable := by
  have valid := valid_iterate_array depth (v := .array []) trivial
  have nesting := nesting_iterate_array depth (.array [])
  have length := length_bytes_iterate_array depth (.array [])
  generalize (fun v => Json.array [v])^[depth] (.array []) = nested at *
  intro m
  have proper : m.Valid := ⟨valid, trivial⟩
  have deeper : Message.nestingBudget ≤ m.nesting := by
    change 1024 ≤ max nested.nesting 0 + 2
    rw [nesting]
    change 1024 ≤ max (1 + depth) 0 + 2
    omega
  have refused : ¬ m.Sendable := fun sendable => absurd sendable.nested (Nat.not_lt_of_le deeper)
  have small : m.bytes.length ≤ maxBody := by
    have without : (Message.invoke 1 (.ofClass "C") "m" []).bytes.length = 22 := by decide +kernel
    have empty : (MessagePack.arrayHead (.ofNat 0)).length = 1 := rfl
    have single : (MessagePack.arrayHead (.ofNat (0 + 1))).length = 1 := rfl
    simp only [m, Message.bytes, Message.packed, MessagePack.bytes, MessagePack.memberBytes,
      MessagePack.itemBytes, List.length_append, length, List.length_cons, List.length_nil, empty,
      single] at without ⊢
    rw [maxBody]
    omega
  refine ⟨proper, ?_⟩
  rw [read_write_of_not_sendable proper (Nat.lt_of_le_of_lt small (by decide)) refused,
    if_neg (Nat.not_lt_of_le small)]

theorem read_write_of_long {reason : String} {length : Nat}
    (measured : (Bytes.ofString reason).length = length) (long : maxBody ≤ length)
    (short : 14 + length < Bytes.capacity 4) (rest : Bytes) :
    read (write (.error "" reason) ++ rest) = .error (.tooLarge (14 + length)) := by
  have fits : length < 0x100000000 := Nat.lt_of_le_of_lt (Nat.le_add_left _ _) short
  have written := length_bytes_error_of_long measured (Nat.le_trans (by decide) long) fits
  have announced : (Message.error "" reason).bytes.length % Bytes.capacity 4 = 14 + length := by
    rw [written, Nat.mod_eq_of_lt short]
  rw [read_write_of_cut announced, if_pos (by omega)]

/-- The length of a text of four gibibytes is cut down to 0 before it is written. -/
theorem bytes_error_of_huge {reason : String}
    (measured : (Bytes.ofString reason).length = Bytes.capacity 4) :
    ∃ start, (Message.error "" reason).bytes = start ++ Bytes.ofString reason ∧ start.length = 10 ∧
      Message.ofBytes? start = some (.error "" "") :=
  ⟨_, bytes_error measured, by decide +kernel, by decide +kernel⟩

theorem read_write_of_huge {reason : String}
    (measured : (Bytes.ofString reason).length = Bytes.capacity 4) (rest : Bytes) :
    (Message.error "" reason).bytes.length = 10 + Bytes.capacity 4 ∧
      read (write (.error "" reason) ++ rest) =
        .ok (.error "" "", Bytes.ofString reason ++ rest) := by
  obtain ⟨start, split, width, found⟩ := bytes_error_of_huge measured
  have written : (Message.error "" reason).bytes.length = 10 + Bytes.capacity 4 := by
    rw [split, List.length_append, width, measured]
  have announced : (Message.error "" reason).bytes.length % Bytes.capacity 4 = 10 := by
    rw [written, Nat.add_mod_right]
    rfl
  refine ⟨written, ?_⟩
  rw [read_write_of_cut announced, if_neg (by decide), split, List.take_left' width,
    List.drop_left' width, found]

/-- Deeply nested arrays are written and refused, and so is a text of a hundred mebibytes, by the length
alone. A text of four gibibytes is read as an empty one, and the reader goes on inside it. -/
theorem written_beyond_limits :
    let text (count : Nat) : String := String.ofList (List.replicate count 'a')
    let deep : Message :=
      .invoke 1 (.ofClass "C") "m" [(fun v => Json.array [v])^[1029] (.array [])]
    let long : Message := .error "" (text 104857600)
    let huge : Message := .error "" (text 4294967296)
    (deep.Valid ∧ read (write deep) = .error .undecodable) ∧
      (long.Valid ∧ read (write long) = .error (.tooLarge 104857614) ∧
        ∃ start rest, write long = start ++ rest ∧ start = [0x0e, 0x00, 0x40, 0x06] ∧
          read start = .error (.tooLarge 104857614)) ∧
      huge.Valid ∧ huge.bytes.length = 4294967306 ∧
        read (write huge) = .ok (.error "" "", Bytes.ofString (text 4294967296)) := by
  intro text deep long huge
  have measured (count : Nat) : (Bytes.ofString (text count)).length = count :=
    length_ofString_replicate count
  have alone (m : Message) : read (write m) = read (write m ++ []) := by
    rw [List.append_nil]
  have refused := read_write_of_deep 1029 (by decide) (by decide) []
  refine ⟨⟨refused.1, (alone deep).trans refused.2⟩, ⟨trivial, ?_, ?_⟩, trivial, ?_, ?_⟩
  · rw [alone]
    exact read_write_of_long (measured 104857600) (by decide) (by decide) []
  · have announced : long.bytes.length = 104857614 :=
      length_bytes_error_of_long (measured 104857600) (by decide) (by decide)
    exact ⟨_, long.bytes, rfl, by rw [announced]; rfl, by rw [announced]; rfl⟩
  · exact (read_write_of_huge (measured 4294967296) []).1
  · have isRead := (read_write_of_huge (measured 4294967296) []).2
    rwa [← alone, List.append_nil] at isRead

end Frame

end Coordination
