import Coordination.Json.Decoder
import Coordination.Proofs.Except

/-! What the decoders accept: each scalar decoder accepts exactly the values that stand for its type. -/

namespace Coordination

/-! Where every key stands once, its place does not matter. -/

theorem lookup_eq_some_iff_mem {α β : Type} [BEq α] [LawfulBEq α] {entries : List (α × β)}
    (nodup : (entries.map Prod.fst).Nodup) {key : α} {value : β} :
    entries.lookup key = some value ↔ (key, value) ∈ entries := by
  induction entries with
  | nil => simp
  | cons head rest induction =>
      obtain ⟨fresh, nodup⟩ := List.nodup_cons.mp nodup
      rw [List.lookup_cons, List.mem_cons]
      split
      · rename_i same
        have keyEq := eq_of_beq same
        subst keyEq
        have absent : (head.1, value) ∉ rest := fun member =>
          fresh (List.mem_map.mpr ⟨_, member, rfl⟩)
        simp [absent, Prod.ext_iff, eq_comm]
      · rename_i different
        have notHead : (key, value) ≠ head := by
          rintro rfl
          simp at different
        simp [induction nodup, notHead]

theorem lookup_eq_of_perm {α β : Type} [BEq α] [LawfulBEq α] {entries entries' : List (α × β)}
    (perm : entries.Perm entries') (nodup : (entries.map Prod.fst).Nodup) (key : α) :
    entries.lookup key = entries'.lookup key := by
  have nodup' := (perm.map Prod.fst).nodup_iff.mp nodup
  ext value
  rw [lookup_eq_some_iff_mem nodup, lookup_eq_some_iff_mem nodup', perm.mem_iff]

namespace Json.Decoder

variable {α β : Type}

@[simp] theorem json_eq (v : Json) : json v = .ok v := rfl

@[simp] theorem string_eq_ok_iff {v : Json} {s : String} : string v = .ok s ↔ v = .string s := by
  cases v <;> simp [string, mismatch]

@[simp] theorem bool_eq_ok_iff {v : Json} {b : Bool} : bool v = .ok b ↔ v = .bool b := by
  cases v <;> simp [bool, mismatch]

theorem integerWithin_eq_ok_iff {low high : Int} {expected : String} {v : Json} {n : Int} :
    integerWithin low high expected v = .ok n ↔ v = .integer n ∧ low ≤ n ∧ n ≤ high := by
  cases v with
  | integer m =>
      by_cases inside : low ≤ m ∧ m ≤ high
      · simp only [integerWithin, if_pos inside, Except.ok.injEq, Json.integer.injEq]
        constructor
        · rintro rfl
          exact ⟨rfl, inside⟩
        · exact And.left
      · simp only [integerWithin, if_neg inside, reduceCtorEq, Json.integer.injEq, false_iff]
        rintro ⟨rfl, bounds⟩
        exact inside bounds
  | _ => simp [integerWithin, mismatch]

/-! Words travel as the integers that they denote. -/

@[simp] theorem uint16_eq_ok_iff {v : Json} {n : UInt16} :
    uint16 v = .ok n ↔ v = .ofNat n.toNat := by
  simp only [uint16, map_eq_ok_iff, integerWithin_eq_ok_iff, ofNat]
  constructor
  · rintro ⟨m, ⟨rfl, low, high⟩, rfl⟩
    congr 1
    simp
    omega
  · rintro rfl
    have bound := n.toNat_lt
    exact ⟨n.toNat, ⟨rfl, by omega, by omega⟩, by simp⟩

@[simp] theorem uint64_eq_ok_iff {v : Json} {n : UInt64} :
    uint64 v = .ok n ↔ v = .ofNat n.toNat := by
  simp only [uint64, map_eq_ok_iff, integerWithin_eq_ok_iff, ofNat]
  constructor
  · rintro ⟨m, ⟨rfl, low, high⟩, rfl⟩
    congr 1
    simp
    omega
  · rintro rfl
    have bound := n.toNat_lt
    exact ⟨n.toNat, ⟨rfl, by omega, by omega⟩, by simp⟩

@[simp] theorem int64_eq_ok_iff {v : Json} {n : Int64} :
    int64 v = .ok n ↔ v = .integer n.toInt := by
  simp only [int64, map_eq_ok_iff, integerWithin_eq_ok_iff]
  constructor
  · rintro ⟨m, ⟨rfl, low, high⟩, rfl⟩
    rw [Int64.toInt_ofInt_of_le (by simpa using low) (by omega)]
  · rintro rfl
    exact ⟨n.toInt, ⟨rfl, n.le_toInt, by have := n.toInt_lt; omega⟩, by simp⟩

@[simp] theorem count_eq_ok_iff {v : Json} {n : Nat} : count v = .ok n ↔ v = .ofNat n := by
  cases v with
  | integer m =>
      by_cases negative : 0 ≤ m
      · simp only [count, if_pos negative, Except.ok.injEq, ofNat, Json.integer.injEq]
        omega
      · simp only [count, if_neg negative, reduceCtorEq, ofNat, Json.integer.injEq, false_iff]
        omega
  | _ => simp [count, mismatch, ofNat]

@[simp] theorem string_string (s : String) : string (.string s) = .ok s := rfl

@[simp] theorem bool_bool (b : Bool) : bool (.bool b) = .ok b := rfl

@[simp] theorem uint16_ofNat (n : UInt16) : uint16 (ofNat n.toNat) = .ok n :=
  uint16_eq_ok_iff.mpr rfl

@[simp] theorem uint64_ofNat (n : UInt64) : uint64 (ofNat n.toNat) = .ok n :=
  uint64_eq_ok_iff.mpr rfl

@[simp] theorem int64_integer (n : Int64) : int64 (.integer n.toInt) = .ok n :=
  int64_eq_ok_iff.mpr rfl

@[simp] theorem count_ofNat (n : Nat) : count (ofNat n) = .ok n := count_eq_ok_iff.mpr rfl

/-! Sequences, pairs and options. -/

theorem list_map {decode : Decoder α} {toJson : α → Json}
    (accepted : ∀ a, decode (toJson a) = .ok a) (items : List α) :
    list decode (.array (items.map toJson)) = .ok items := by
  induction items with
  | nil => rfl
  | cons head rest induction =>
      change (rest.map toJson).mapM decode = .ok rest at induction
      change (toJson head :: rest.map toJson).mapM decode = .ok (head :: rest)
      rw [List.mapM_cons, accepted head, induction]
      rfl

theorem pair_array {first : Decoder α} {second : Decoder β} {x y : Json} {a : α} {b : β}
    (firstAccepted : first x = .ok a) (secondAccepted : second y = .ok b) :
    pair first second (.array [x, y]) = .ok (a, b) := by
  simp only [pair, firstAccepted, secondAccepted]
  rfl

theorem option_of_ne_null {decode : Decoder α} {v : Json} (present : v ≠ .null) :
    option decode v = some <$> decode v := by
  cases v with
  | null => contradiction
  | _ => rfl

/-! Records, by their fields. -/

namespace Record

variable (f : α → β) (name : String) (decode : Decoder α)

@[simp] theorem functor_map_eq (r : Record α) : f <$> r = r.map f := rfl

@[simp] theorem seq_eq (f : Record (α → β)) (r : Record α) : f <*> r = f.seq r := rfl

@[simp] theorem fields_map (r : Record α) : (r.map f).fields = r.fields := rfl

@[simp] theorem fields_seq (f : Record (α → β)) (r : Record α) :
    (f.seq r).fields = f.fields ++ r.fields := rfl

@[simp] theorem fields_required :
    (required name decode).fields = [⟨name, fun v => (fun _ => ()) <$> decode v, .refused⟩] := rfl

@[simp] theorem fields_optional :
    (optional name decode).fields =
      [⟨name, fun v => (fun _ => ()) <$> option decode v, .fromObject⟩] := rfl

@[simp] theorem build_map (r : Record α) (values : List (Option Json)) :
    (r.map f).build values = (fun (a, rest) => (f a, rest)) <$> r.build values := rfl

@[simp] theorem build_seq (f : Record (α → β)) (r : Record α) (values : List (Option Json)) :
    (f.seq r).build values =
      f.build values >>= fun (g, rest) => (fun (a, rest) => (g a, rest)) <$> r.build rest := by
  simp only [seq]
  cases f.build values with
  | error e => rfl
  | ok built => simp only [ok_bind, map_eq_pure_bind]

@[simp] theorem build_required (v : Json) (rest : List (Option Json)) :
    (required name decode).build (some v :: rest) = (fun a => (a, rest)) <$> decode v := rfl

@[simp] theorem build_optional (v : Json) (rest : List (Option Json)) :
    (optional name decode).build (some v :: rest) = (fun a => (a, rest)) <$> option decode v := rfl

@[simp] theorem checkMembers_nil (fields : List Field) : checkMembers fields [] = .ok () := rfl

@[simp] theorem checkMembers_cons (fields : List Field) (key : String) (v : Json)
    (members : List (String × Json)) :
    checkMembers fields ((key, v) :: members) =
      (match fields.find? fun f => f.name == key with
        | some f => f.check v
        | none => .ok ()) >>= fun _ => checkMembers fields members := rfl

@[simp] theorem membersInOrder_nil (members : List (String × Json)) :
    membersInOrder [] members = .ok [] := rfl

@[simp] theorem membersInOrder_cons (f : Field) (fields : List Field)
    (members : List (String × Json)) :
    membersInOrder (f :: fields) members =
      (match members.lookup f.name with
        | some v => .ok (some v)
        | none => if f.absence = .refused then .error (.missingField f.name) else .ok none) >>=
      fun v => (v :: ·) <$> membersInOrder fields members := by
  rw [membersInOrder, List.mapM_cons]
  rfl

/-! What a record comes to does not hang on the order of its members. -/

theorem checkMembers_eq_ok_iff (fields : List Field) (members : List (String × Json)) :
    checkMembers fields members = .ok () ↔
      ∀ member ∈ members, checkMembers fields [member] = .ok () := by
  induction members with
  | nil => simp
  | cons member rest induction =>
      obtain ⟨key, v⟩ := member
      rw [List.forall_mem_cons, ← induction, checkMembers_cons, checkMembers_cons, checkMembers_nil]
      simp only [bind_eq_ok_iff, and_true]
      exact ⟨fun ⟨_, first, later⟩ => ⟨⟨_, first⟩, later⟩, fun ⟨⟨_, first⟩, later⟩ => ⟨_, first, later⟩⟩

theorem membersInOrder_congr {members members' : List (String × Json)} (fields : List Field)
    (same : ∀ key, members.lookup key = members'.lookup key) :
    membersInOrder fields members = membersInOrder fields members' := by
  simp only [membersInOrder, same]

theorem ofMembers_eq_ok_of_perm {r : Record α} {members members' : List (String × Json)}
    (perm : members.Perm members') (nodup : (members.map Prod.fst).Nodup) {a : α}
    (decoded : r.ofMembers members = .ok a) : r.ofMembers members' = .ok a := by
  rw [ofMembers] at decoded ⊢
  rw [← membersInOrder_congr r.fields (lookup_eq_of_perm perm nodup)]
  cases checked : checkMembers r.fields members with
  | error e => rw [checked] at decoded; cases decoded
  | ok =>
      rw [checked] at decoded
      have checked' : checkMembers r.fields members' = .ok () := by
        rw [checkMembers_eq_ok_iff] at checked ⊢
        exact fun member inside => checked member (perm.mem_iff.mpr inside)
      rw [checked']
      exact decoded

end Record

end Json.Decoder

end Coordination
