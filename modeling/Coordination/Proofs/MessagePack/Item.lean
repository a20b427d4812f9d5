import Coordination.Json.Nesting
import Coordination.MessagePack.Item
import Coordination.MessagePack.Writer
import Coordination.Proofs.Json.Normalized

/-! Whatever stands behind it, a written value is read back, if the reader may go down deep enough. -/

namespace Coordination

theorem Bytes.take?_bigEndian (width n : Nat) (rest : Bytes) :
    take? width (bigEndian width n ++ rest) = some (bigEndian width n, rest) := by
  have taken := take?_append (bigEndian width n) rest
  rwa [length_bigEndian] at taken

namespace MessagePack

namespace Head

variable {n : Nat}

theorem read_head (tag : UInt8) (width : Nat) (make : Nat → Head)
    (announces : ∀ bytes, read (tag :: bytes) =
      (Bytes.take? width bytes).map fun (number, rest) => (make (Bytes.ofBigEndian number), rest))
    (fits : n < Bytes.capacity width) (rest : Bytes) :
    read (head tag width n ++ rest) = some (make n, rest) := by
  rw [head, List.cons_append, announces, Bytes.take?_bigEndian, Option.map_some]
  dsimp only
  rw [Bytes.ofBigEndian_bigEndian, Nat.mod_eq_of_lt fits]

/-! The first byte holds small numbers itself. -/

theorem read_smallNatural (small : n < 0x80) (rest : Bytes) :
    read (.ofNat n :: rest) = some (.done (.unsigned n), rest) := by
  have value : (UInt8.ofNat n).toNat = n := UInt8.toNat_ofNat_of_lt' (Nat.lt_trans small (by decide))
  simp only [read, value, if_pos small]

theorem read_mapTag (small : n < 0x10) (rest : Bytes) :
    read (.ofNat (0x80 + n) :: rest) = some (.map n, rest) := by
  have value : (UInt8.ofNat (0x80 + n)).toNat = 0x80 + n := UInt8.toNat_ofNat_of_lt' (by
    change 128 + n < 256
    omega)
  simp only [read, value, if_neg (show ¬ 0x80 + n < 0x80 by omega),
    if_pos (show 0x80 + n < 0x90 by omega), Nat.add_sub_cancel_left]

theorem read_arrayTag (small : n < 0x10) (rest : Bytes) :
    read (.ofNat (0x90 + n) :: rest) = some (.array n, rest) := by
  have value : (UInt8.ofNat (0x90 + n)).toNat = 0x90 + n := UInt8.toNat_ofNat_of_lt' (by
    change 144 + n < 256
    omega)
  simp only [read, value, if_neg (show ¬ 0x90 + n < 0x80 by omega),
    if_neg (show ¬ 0x90 + n < 0x90 by omega), if_pos (show 0x90 + n < 0xa0 by omega),
    Nat.add_sub_cancel_left]

theorem read_textTag (small : n < 0x20) (rest : Bytes) :
    read (.ofNat (0xa0 + n) :: rest) = some (.text n, rest) := by
  have value : (UInt8.ofNat (0xa0 + n)).toNat = 0xa0 + n := UInt8.toNat_ofNat_of_lt' (by
    change 160 + n < 256
    omega)
  simp only [read, value, if_neg (show ¬ 0xa0 + n < 0x80 by omega),
    if_neg (show ¬ 0xa0 + n < 0x90 by omega), if_neg (show ¬ 0xa0 + n < 0xa0 by omega),
    if_pos (show 0xa0 + n < 0xc0 by omega), Nat.add_sub_cancel_left]

theorem read_smallNegative (positive : 0 < n) (small : n ≤ 0x20) (rest : Bytes) :
    read (.ofNat (0x100 - n) :: rest) = some (.done (.signed (-n)), rest) := by
  have value : (UInt8.ofNat (0x100 - n)).toNat = 0x100 - n := UInt8.toNat_ofNat_of_lt' (by
    change 256 - n < 256
    omega)
  have denoted : ((0x100 - n : Nat) : Int) - 256 = -n := by omega
  simp only [read, value, if_neg (show ¬ 0x100 - n < 0x80 by omega),
    if_neg (show ¬ 0x100 - n < 0x90 by omega), if_neg (show ¬ 0x100 - n < 0xa0 by omega),
    if_neg (show ¬ 0x100 - n < 0xc0 by omega), if_pos (show 0xe0 ≤ 0x100 - n by omega), denoted]

/-! What is written in front of a value is read back from it. -/

theorem read_naturalBytes (word : n < 0x10000000000000000) (rest : Bytes) :
    read (naturalBytes n ++ rest) = some (.done (.unsigned n), rest) := by
  have wide (tag : UInt8) (width : Nat) := read_head (n := n) tag width fun n => .done (.unsigned n)
  unfold naturalBytes
  split
  · exact read_smallNatural ‹_› rest
  split
  · exact wide 0xcc 1 (fun _ => rfl) ‹_› rest
  split
  · exact wide 0xcd 2 (fun _ => rfl) ‹_› rest
  split
  · exact wide 0xce 4 (fun _ => rfl) ‹_› rest
  · exact wide 0xcf 8 (fun _ => rfl) word rest

theorem signedOf_of_negative {width : Nat} (positive : 0 < n) (small : 2 * n ≤ Bytes.capacity width) :
    signedOf width (Bytes.capacity width - n) = -(n : Int) := by
  rw [signedOf, if_neg (by omega)]
  omega

theorem read_negativeBytes (positive : 0 < n) (word : n ≤ 0x8000000000000000) (rest : Bytes) :
    read (negativeBytes n ++ rest) = some (.done (.signed (-n)), rest) := by
  have wide (tag : UInt8) (width : Nat) (small : 2 * n ≤ Bytes.capacity width)
      (announces : ∀ bytes, read (tag :: bytes) = (Bytes.take? width bytes).map
        fun (number, rest) => (.done (.signed (signedOf width (Bytes.ofBigEndian number))), rest)) :
      read (head tag width (Bytes.capacity width - n) ++ rest) = some (.done (.signed (-n)), rest) := by
    rw [read_head tag width (fun number => .done (.signed (signedOf width number))) announces
      (by omega) rest, signedOf_of_negative positive small]
  unfold negativeBytes
  split
  · exact read_smallNegative positive ‹_› rest
  split
  · exact wide 0xd0 1 (Nat.mul_le_mul_left 2 ‹n ≤ 0x80›) fun _ => rfl
  split
  · exact wide 0xd1 2 (Nat.mul_le_mul_left 2 ‹n ≤ 0x8000›) fun _ => rfl
  split
  · exact wide 0xd2 4 (Nat.mul_le_mul_left 2 ‹n ≤ 0x80000000›) fun _ => rfl
  · exact wide 0xd3 8 (Nat.mul_le_mul_left 2 word) fun _ => rfl

theorem read_textHead (n : UInt32) (rest : Bytes) :
    read (textHead n ++ rest) = some (.text n.toNat, rest) := by
  unfold textHead
  split
  · exact read_textTag ‹_› rest
  split
  · exact read_head 0xd9 1 .text (fun _ => rfl) ‹_› rest
  split
  · exact read_head 0xda 2 .text (fun _ => rfl) ‹_› rest
  · exact read_head 0xdb 4 .text (fun _ => rfl) n.toNat_lt rest

theorem read_arrayHead (n : UInt32) (rest : Bytes) :
    read (arrayHead n ++ rest) = some (.array n.toNat, rest) := by
  unfold arrayHead
  split
  · exact read_arrayTag ‹_› rest
  split
  · exact read_head 0xdc 2 .array (fun _ => rfl) ‹_› rest
  · exact read_head 0xdd 4 .array (fun _ => rfl) n.toNat_lt rest

theorem read_mapHead (n : UInt32) (rest : Bytes) :
    read (mapHead n ++ rest) = some (.map n.toNat, rest) := by
  unfold mapHead
  split
  · exact read_mapTag ‹_› rest
  split
  · exact read_head 0xde 2 .map (fun _ => rfl) ‹_› rest
  · exact read_head 0xdf 4 .map (fun _ => rfl) n.toNat_lt rest

end Head

/-! Lengths. -/

theorem length_textBytes_pos (s : String) : 0 < (textBytes s).length := by
  unfold textBytes textHead head
  split_ifs <;> simp

theorem length_arrayHead_pos (count : UInt32) : 0 < (arrayHead count).length := by
  unfold arrayHead head
  split_ifs <;> simp

theorem length_mapHead_pos (count : UInt32) : 0 < (mapHead count).length := by
  unfold mapHead head
  split_ifs <;> simp

theorem length_integerBytes_pos (n : Int) : 0 < (integerBytes n).length := by
  unfold integerBytes negativeBytes naturalBytes head
  split_ifs <;> simp

theorem length_bytes_pos (v : Json) : 0 < (bytes v).length := by
  cases v with
  | null => decide
  | bool b => cases b <;> decide
  | integer n =>
      rw [bytes]
      exact length_integerBytes_pos n
  | real x => simp [bytes, head]
  | string s =>
      rw [bytes]
      exact length_textBytes_pos s
  | array items =>
      rw [bytes, List.length_append]
      exact Nat.add_pos_left (length_arrayHead_pos _) _
  | object members =>
      rw [bytes, List.length_append]
      exact Nat.add_pos_left (length_mapHead_pos _) _

theorem length_le_length_itemBytes (items : List Json) : items.length ≤ (itemBytes items).length := by
  induction items with
  | nil => exact Nat.zero_le _
  | cons x xs induction =>
      have first := length_bytes_pos x
      rw [itemBytes, List.length_append, List.length_cons]
      omega

theorem length_le_length_memberBytes (members : List (String × Json)) :
    members.length ≤ (memberBytes members).length := by
  induction members with
  | nil => exact Nat.zero_le _
  | cons member members induction =>
      have key := length_textBytes_pos member.1
      rw [memberBytes, List.length_append, List.length_append, List.length_cons]
      omega

/-! Items. -/

namespace Item

mutual
/-- The item that a value is written as. -/
def ofJson : Json → Item
  | .null => .nil
  | .bool b => .bool b
  | .integer n => if n < 0 then .signed n else .unsigned n.natAbs
  | .real x => .real x
  | .string s => .text s
  | .array items => .array (ofItems items)
  | .object members => .map (ofMembers members)

def ofItems : List Json → List Item
  | [] => []
  | x :: xs => ofJson x :: ofItems xs

def ofMembers : List (String × Json) → List (Item × Item)
  | [] => []
  | (k, x) :: xs => (.text k, ofJson x) :: ofMembers xs
end

theorem readWith_of_done {fuel : Nat} {stream rest : Bytes} {item : Item}
    (announced : Head.read stream = some (.done item, rest)) :
    readWith (fuel + 1) stream = some (item, rest) := by
  rw [readWith, announced]

theorem readWith_textBytes {fuel : Nat} {s : String} (short : (textBytes s).length < 0x100000000)
    (rest : Bytes) : readWith (fuel + 1) (textBytes s ++ rest) = some (.text s, rest) := by
  have shortBody : (Bytes.ofString s).length < 0x100000000 := by
    rw [textBytes, List.length_append] at short
    omega
  rw [textBytes, List.append_assoc, readWith, Head.read_textHead, UInt32.toNat_ofNat_of_lt' shortBody]
  simp only [Bytes.take?_append, Option.map_some, ofTextBytes, Bytes.toString?_ofString]

theorem read_integerBytes {n : Int} (word : Json.FitsWord n) (rest : Bytes) :
    Head.read (integerBytes n ++ rest) = some (.done (ofJson (.integer n)), rest) := by
  obtain ⟨low, high⟩ := word
  by_cases negative : n < 0
  · rw [integerBytes, if_pos negative, Head.read_negativeBytes (by omega) (by omega)]
    simp only [ofJson, if_pos negative]
    rw [show -((n.natAbs : Nat) : Int) = n by omega]
  · rw [integerBytes, if_neg negative, Head.read_naturalBytes (by omega)]
    simp only [ofJson, if_neg negative]

theorem read_real (x : Binary64) (rest : Bytes) :
    Head.read (head 0xcb 8 x.bits.toNat ++ rest) = some (.done (.real x), rest) := by
  rw [Head.read_head 0xcb 8 (fun n => .done (.real ⟨.ofNat n⟩)) (fun _ => rfl) x.bits.toNat_lt]
  simp

-- An item takes one unit of fuel and its place in a list another, so two for each byte are enough.
mutual
theorem readWith_bytes : ∀ (v : Json) (fuel : Nat) (rest : Bytes), v.Valid →
    (bytes v).length < 0x100000000 → 2 * (bytes v).length ≤ fuel + 1 →
    readWith fuel (bytes v ++ rest) = some (ofJson v, rest)
  | v, 0, _, _, _, enough => by
      have nonempty := length_bytes_pos v
      omega
  | .null, fuel + 1, rest, _, _, _ => by
      simp only [bytes, ofJson]
      exact readWith_of_done rfl
  | .bool false, fuel + 1, rest, _, _, _ => by
      simp only [bytes, ofJson]
      exact readWith_of_done rfl
  | .bool true, fuel + 1, rest, _, _, _ => by
      simp only [bytes, ofJson]
      exact readWith_of_done rfl
  | .integer n, fuel + 1, rest, valid, _, _ => by
      rw [bytes]
      exact readWith_of_done (read_integerBytes valid rest)
  | .real x, fuel + 1, rest, _, _, _ => by
      simp only [bytes, ofJson]
      exact readWith_of_done (read_real x rest)
  | .string s, fuel + 1, rest, _, short, _ => by
      rw [bytes] at short ⊢
      exact readWith_textBytes short rest
  | .array items, fuel + 1, rest, valid, short, enough => by
      have nonempty := length_arrayHead_pos (.ofNat items.length)
      have count := length_le_length_itemBytes items
      rw [bytes, List.length_append] at short enough
      have inner := readItems_itemBytes items fuel rest valid (by omega) (by omega)
      have small : items.length < 0x100000000 := by omega
      rw [bytes, List.append_assoc, readWith, Head.read_arrayHead, UInt32.toNat_ofNat_of_lt' small]
      simp only [inner, Option.map_some, ofJson]
  | .object members, fuel + 1, rest, valid, short, enough => by
      have nonempty := length_mapHead_pos (.ofNat members.length)
      have count := length_le_length_memberBytes members
      rw [bytes, List.length_append] at short enough
      have inner := readEntries_memberBytes members fuel rest valid.2 (by omega) (by omega)
      have small : members.length < 0x100000000 := by omega
      rw [bytes, List.append_assoc, readWith, Head.read_mapHead, UInt32.toNat_ofNat_of_lt' small]
      simp only [inner, Option.map_some, ofJson]

theorem readItems_itemBytes : ∀ (items : List Json) (fuel : Nat) (rest : Bytes),
    Json.ValidItems items → (itemBytes items).length < 0x100000000 →
    2 * (itemBytes items).length ≤ fuel →
    readItems fuel items.length (itemBytes items ++ rest) = some (ofItems items, rest)
  | [], fuel, rest, _, _, _ => by cases fuel <;> rfl
  | x :: xs, fuel, rest, valid, short, enough => by
      have nonempty := length_bytes_pos x
      rw [itemBytes, List.length_append] at short enough
      obtain ⟨fuel, rfl⟩ : ∃ less, fuel = less + 1 := ⟨fuel - 1, by omega⟩
      have first := readWith_bytes x fuel (itemBytes xs ++ rest) valid.1 (by omega) (by omega)
      have later := readItems_itemBytes xs fuel rest valid.2 (by omega) (by omega)
      rw [itemBytes, List.append_assoc, List.length_cons, readItems, first]
      simp only [later, Option.map_some, ofItems]

theorem readEntries_memberBytes : ∀ (members : List (String × Json)) (fuel : Nat) (rest : Bytes),
    Json.ValidMembers members → (memberBytes members).length < 0x100000000 →
    2 * (memberBytes members).length ≤ fuel →
    readEntries fuel members.length (memberBytes members ++ rest) = some (ofMembers members, rest)
  | [], fuel, rest, _, _, _ => by cases fuel <;> rfl
  | (k, x) :: xs, fuel, rest, valid, short, enough => by
      have keyNonempty := length_textBytes_pos k
      have valueNonempty := length_bytes_pos x
      simp only [memberBytes, List.length_append] at short enough
      obtain ⟨fuel, rfl⟩ : ∃ less, fuel = less + 2 := ⟨fuel - 2, by omega⟩
      have value := readWith_bytes x (fuel + 1) (memberBytes xs ++ rest) valid.1 (by omega) (by omega)
      have later := readEntries_memberBytes xs (fuel + 1) rest valid.2 (by omega) (by omega)
      rw [memberBytes, List.append_assoc, List.append_assoc, List.length_cons, readEntries,
        readWith_textBytes (by omega)]
      simp only [value, later, Option.map_some, ofMembers]
end

/-- Reading takes a written value off the front of a byte string. -/
theorem read_bytes {v : Json} (valid : v.Valid) (short : (bytes v).length < 0x100000000)
    (rest : Bytes) : read (bytes v ++ rest) = some (ofJson v, rest) := by
  rw [read]
  refine readWith_bytes v _ rest valid short ?_
  rw [List.length_append]
  omega

/-! Values. -/

theorem descend?_of_lt {depth budget : Nat} (nested : depth + 1 < budget) :
    ∃ less, descend? budget = some less ∧ depth < less := by
  refine ⟨budget - 1, if_neg (by omega), by omega⟩

theorem descend?_of_le {depth budget : Nat} (deep : budget ≤ depth + 1) :
    descend? budget = none ∨ ∃ less, descend? budget = some less ∧ 0 < less ∧ less ≤ depth := by
  by_cases spent : budget ≤ 1
  · exact .inl (if_pos spent)
  · exact .inr ⟨budget - 1, if_neg spent, by omega, by omega⟩

mutual
theorem json?_ofJson : ∀ (v : Json) (budget : Nat), v.Valid → v.nesting < budget →
    json? budget (ofJson v) = some v
  | .null, _, _, _ | .bool _, _, _, _ | .string _, _, _, _ => by simp only [ofJson, json?]
  | .integer n, _, _, _ => by
      rw [ofJson]
      split
      · rw [json?]
      · rw [json?, show ((n.natAbs : Nat) : Int) = n by omega]
  | .real x, _, valid, _ => by
      have finite : x.isFinite = true := valid
      simp only [ofJson, json?, Json.ofReal, if_pos finite]
  | .array items, budget, valid, nested => by
      obtain ⟨less, descended, inner⟩ := descend?_of_lt nested
      simp only [ofJson, json?, descended, jsonItems?_ofItems items less valid inner, Option.map_some]
  -- A reader looks at the first key before any other, so it is a case of its own.
  | .object [], budget, _, nested => by
      obtain ⟨less, descended, -⟩ := descend?_of_lt nested
      simp only [ofJson, ofMembers]
      unfold json?
      simp only [descended]
  | .object ((k, x) :: xs), budget, valid, nested => by
      obtain ⟨less, descended, inner⟩ := descend?_of_lt nested
      obtain ⟨ascending, first, later⟩ := valid
      rw [Json.membersNesting, Nat.max_lt] at inner
      simp only [ofJson, ofMembers]
      unfold json?
      simp only [descended, json?_ofJson x less first inner.1,
        jsonMembers?_ofMembers xs less later inner.2, Json.ofEntries_of_ascending ascending]

theorem jsonItems?_ofItems : ∀ (items : List Json) (budget : Nat), Json.ValidItems items →
    Json.itemsNesting items < budget → jsonItems? budget (ofItems items) = some items
  | [], _, _, _ => by simp only [ofItems, jsonItems?]
  | x :: xs, budget, valid, nested => by
      rw [Json.itemsNesting, Nat.max_lt] at nested
      simp only [ofItems, jsonItems?, json?_ofJson x budget valid.1 nested.1,
        jsonItems?_ofItems xs budget valid.2 nested.2]

theorem jsonMembers?_ofMembers : ∀ (members : List (String × Json)) (budget : Nat),
    Json.ValidMembers members → Json.membersNesting members < budget →
    jsonMembers? budget (ofMembers members) = some members
  | [], _, _, _ => by simp only [ofMembers, jsonMembers?]
  | (k, x) :: xs, budget, valid, nested => by
      rw [Json.membersNesting, Nat.max_lt] at nested
      simp only [ofMembers, jsonMembers?, text?, json?_ofJson x budget valid.1 nested.1,
        jsonMembers?_ofMembers xs budget valid.2 nested.2]
end

/-! A reader that may not go down deep enough finds nothing, and never another value. -/

mutual
theorem json?_ofJson_of_le : ∀ (v : Json) {budget : Nat}, 0 < budget → budget ≤ v.nesting →
    json? budget (ofJson v) = none
  | .null, _, left, deep | .bool _, _, left, deep | .integer _, _, left, deep
  | .real _, _, left, deep | .string _, _, left, deep => absurd deep (Nat.not_le_of_lt left)
  | .array items, budget, _, deep => by
      simp only [ofJson, json?]
      rcases descend?_of_le deep with stopped | ⟨less, descended, left, inner⟩
      · rw [stopped]
      · simp only [descended, jsonItems?_ofItems_of_le items left inner, Option.map_none]
  | .object [], budget, _, deep => by
      simp only [ofJson, ofMembers]
      unfold json?
      rcases descend?_of_le deep with stopped | ⟨less, -, left, inner⟩
      · rw [stopped]
      · exact absurd inner (Nat.not_le_of_lt left)
  | .object ((k, x) :: xs), budget, _, deep => by
      simp only [ofJson, ofMembers]
      unfold json?
      rcases descend?_of_le deep with stopped | ⟨less, descended, left, inner⟩
      · simp only [stopped]
      · rw [Json.membersNesting, le_max_iff] at inner
        rcases inner with first | later
        · simp only [descended, json?_ofJson_of_le x left first]
        · simp only [descended, jsonMembers?_ofMembers_of_le xs left later]
          cases json? less (ofJson x) <;> rfl

theorem jsonItems?_ofItems_of_le : ∀ (items : List Json) {budget : Nat}, 0 < budget →
    budget ≤ Json.itemsNesting items → jsonItems? budget (ofItems items) = none
  | [], _, left, deep => absurd deep (Nat.not_le_of_lt left)
  | x :: xs, budget, left, deep => by
      rw [Json.itemsNesting, le_max_iff] at deep
      rcases deep with first | later
      · simp only [ofItems, jsonItems?, json?_ofJson_of_le x left first]
      · simp only [ofItems, jsonItems?, jsonItems?_ofItems_of_le xs left later]
        cases json? budget (ofJson x) <;> rfl

theorem jsonMembers?_ofMembers_of_le : ∀ (members : List (String × Json)) {budget : Nat},
    0 < budget → budget ≤ Json.membersNesting members →
    jsonMembers? budget (ofMembers members) = none
  | [], _, left, deep => absurd deep (Nat.not_le_of_lt left)
  | (k, x) :: xs, budget, left, deep => by
      rw [Json.membersNesting, le_max_iff] at deep
      rcases deep with first | later
      · simp only [ofMembers, jsonMembers?, text?, json?_ofJson_of_le x left first]
      · simp only [ofMembers, jsonMembers?, text?, jsonMembers?_ofMembers_of_le xs left later]
        cases json? budget (ofJson x) <;> rfl
end

mutual
theorem eq_of_json?_ofJson : ∀ (v : Json) {budget : Nat} {w : Json}, v.Valid →
    json? budget (ofJson v) = some w → w = v
  | .null, _, _, _, read | .bool _, _, _, _, read | .string _, _, _, _, read => by
      simp only [ofJson, json?] at read
      exact (Option.some.inj read).symm
  | .integer n, _, _, _, read => by
      rw [ofJson] at read
      split at read
      · exact (Option.some.inj read).symm
      · rw [json?, show ((n.natAbs : Nat) : Int) = n by omega] at read
        exact (Option.some.inj read).symm
  | .real x, _, _, valid, read => by
      have finite : x.isFinite = true := valid
      simp only [ofJson, json?, Json.ofReal, if_pos finite] at read
      exact (Option.some.inj read).symm
  | .array items, _, _, valid, read => by
      simp only [ofJson, json?] at read
      split at read
      · obtain ⟨found, inner, rfl⟩ := Option.map_eq_some_iff.mp read
        rw [eq_of_jsonItems?_ofItems items valid inner]
      · cases read
  | .object [], budget, _, _, read => by
      simp only [ofJson, ofMembers] at read
      unfold json? at read
      cases descended : descend? budget with
      | none => simp [descended] at read
      | some less =>
          simp only [descended] at read
          exact (Option.some.inj read).symm
  | .object ((k, x) :: xs), budget, _, valid, read => by
      obtain ⟨ascending, first, later⟩ := valid
      simp only [ofJson, ofMembers] at read
      unfold json? at read
      cases descended : descend? budget with
      | none => simp [descended] at read
      | some less =>
          simp only [descended] at read
          split at read
          · rename_i value members readValue readMembers
            rw [← Option.some.inj read, eq_of_json?_ofJson x first readValue,
              eq_of_jsonMembers?_ofMembers xs later readMembers, Json.ofEntries_of_ascending ascending]
          · cases read

theorem eq_of_jsonItems?_ofItems : ∀ (items : List Json) {budget : Nat} {found : List Json},
    Json.ValidItems items → jsonItems? budget (ofItems items) = some found → found = items
  | [], _, _, _, read => (Option.some.inj read).symm
  | x :: xs, _, _, valid, read => by
      simp only [ofItems, jsonItems?] at read
      split at read
      · rename_i value values readValue readValues
        rw [← Option.some.inj read, eq_of_json?_ofJson x valid.1 readValue,
          eq_of_jsonItems?_ofItems xs valid.2 readValues]
      · cases read

theorem eq_of_jsonMembers?_ofMembers : ∀ (members : List (String × Json)) {budget : Nat}
    {found : List (String × Json)}, Json.ValidMembers members →
    jsonMembers? budget (ofMembers members) = some found → found = members
  | [], _, _, _, read => (Option.some.inj read).symm
  | (k, x) :: xs, _, _, valid, read => by
      simp only [ofMembers, jsonMembers?, text?] at read
      split at read
      · rename_i key value members same readValue readMembers
        rw [← Option.some.inj read, ← Option.some.inj same, eq_of_json?_ofJson x valid.1 readValue,
          eq_of_jsonMembers?_ofMembers xs valid.2 readMembers]
      · cases read
end

end Item

end MessagePack
end Coordination
