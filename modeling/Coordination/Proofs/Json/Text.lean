import Coordination.Json.Plain
import Coordination.Proofs.Json.Number

/-!
JSON texts tell their values apart: of two values with one text, both have null wherever there is a
real that no text tells, and are the same everywhere else.
-/

namespace Coordination.Json

/-! Strings. -/

theorem hexDigit?_digitChar {n : Nat} (small : n < 16) :
    Reader.hexDigit? (Nat.digitChar n) = some n := by
  decide +revert

theorem stringBody_escapedChar (seen : List Char) (c : Char) (rest : List Char) :
    Reader.stringBody seen (escapedChar c ++ rest) = Reader.stringBody (c :: seen) rest := by
  unfold escapedChar
  split
  · rfl
  · rfl
  · rfl
  · rfl
  · rfl
  · rfl
  · rfl
  · rename_i notQuote notBackslash _ _ _ _ _
    split
    · rename_i control
      have unit : Reader.hexUnit? '0' '0' (Nat.digitChar (c.toNat / 16))
          (Nat.digitChar (c.toNat % 16)) = some c.toNat := by
        have zero : Reader.hexDigit? '0' = some 0 := rfl
        rw [Reader.hexUnit?, zero, hexDigit?_digitChar (by omega), hexDigit?_digitChar (by omega)]
        simp
        omega
      have low : Reader.isHighSurrogate c.toNat = false ∧ Reader.isLowSurrogate c.toNat = false := by
        simp only [Reader.isHighSurrogate, Reader.isLowSurrogate, Bool.and_eq_false_imp,
          decide_eq_true_eq, decide_eq_false_iff_not]
        omega
      simp only [List.cons_append, List.nil_append, Reader.stringBody, unit, low.1, low.2,
        Bool.false_eq_true, if_false, Char.ofNat_toNat]
    · rename_i printable
      rw [List.cons_append, List.nil_append]
      conv_lhs => unfold Reader.stringBody
      split
      · rename_i same
        cases same
        exact absurd rfl notQuote
      · rename_i same
        cases same
        exact absurd rfl notBackslash
      · rename_i same
        cases same
        exact absurd rfl notBackslash
      · rename_i same
        cases same
        rw [if_neg]
        simpa [printable] using notBackslash
      · rename_i same
        cases same

theorem stringBody_escaped (seen characters rest : List Char) :
    Reader.stringBody seen (characters.flatMap escapedChar ++ '"' :: rest) =
      some (String.ofList (seen.reverse ++ characters), rest) := by
  induction characters generalizing seen with
  | nil => simp [Reader.stringBody]
  | cons c characters induction =>
      rw [List.flatMap_cons, List.append_assoc, stringBody_escapedChar, induction]
      simp

theorem stringChars_unique {s t : String} {rest rest' : List Char}
    (same : stringChars s ++ rest = stringChars t ++ rest') : s = t ∧ rest = rest' := by
  have bodies : s.toList.flatMap escapedChar ++ '"' :: rest =
      t.toList.flatMap escapedChar ++ '"' :: rest' := by
    simpa [stringChars] using same
  have read := stringBody_escaped [] s.toList rest
  rw [bodies, stringBody_escaped] at read
  simpa [eq_comm] using read

/-! Plain values. -/

theorem plain_ofReal (x : Binary64) : plain (ofReal x) = ofReal x := by
  rw [ofReal]
  split
  · rename_i finite
    exact if_pos finite
  · rfl

mutual
theorem plain_plain : ∀ v : Json, v.plain.plain = v.plain
  | .null | .bool _ | .integer _ | .string _ => rfl
  | .real x => plain_ofReal x
  | .array items => congrArg Json.array (plainItems_plainItems items)
  | .object members => congrArg Json.object (plainMembers_plainMembers members)

theorem plainItems_plainItems : ∀ items : List Json,
    plainItems (plainItems items) = plainItems items
  | [] => rfl
  | x :: xs => congrArg₂ List.cons (plain_plain x) (plainItems_plainItems xs)

theorem plainMembers_plainMembers : ∀ members : List (String × Json),
    plainMembers (plainMembers members) = plainMembers members
  | [] => rfl
  | (k, x) :: xs =>
      congrArg₂ List.cons (congrArg (k, ·) (plain_plain x)) (plainMembers_plainMembers xs)
end

mutual
theorem plain_of_valid : ∀ v : Json, v.Valid → v.plain = v
  | .null, _ | .bool _, _ | .integer _, _ | .string _, _ => rfl
  | .real _, finite => if_pos finite
  | .array items, valid => congrArg Json.array (plainItems_of_valid items valid)
  | .object members, valid => congrArg Json.object (plainMembers_of_valid members valid.2)

theorem plainItems_of_valid : ∀ items : List Json, ValidItems items → plainItems items = items
  | [], _ => rfl
  | x :: xs, valid => congrArg₂ List.cons (plain_of_valid x valid.1) (plainItems_of_valid xs valid.2)

theorem plainMembers_of_valid : ∀ members : List (String × Json), ValidMembers members →
    plainMembers members = members
  | [], _ => rfl
  | (k, x) :: xs, valid =>
      congrArg₂ List.cons (congrArg (k, ·) (plain_of_valid x valid.1))
        (plainMembers_of_valid xs valid.2)
end

theorem scalarChars_ofReal (x : Binary64) : chars (ofReal x) = chars (.real x) := by
  rw [ofReal]
  split
  · rfl
  · rename_i infinite
    exact (if_neg infinite).symm

mutual
theorem chars_plain : ∀ v : Json, v.plain.chars = v.chars
  | .null | .bool _ | .integer _ | .string _ => rfl
  | .real x => scalarChars_ofReal x
  | .array items => by
      simp only [plain, chars, itemChars_plainItems items]
  | .object members => by
      simp only [plain, chars, memberChars_plainMembers members]

theorem itemChars_plainItems : ∀ items : List Json, itemChars (plainItems items) = itemChars items
  | [] => rfl
  | [x] => chars_plain x
  | x :: y :: xs => by
      have rest := itemChars_plainItems (y :: xs)
      simp only [plainItems, itemChars, chars_plain x] at rest ⊢
      rw [rest]

theorem memberChars_plainMembers : ∀ members : List (String × Json),
    memberChars (plainMembers members) = memberChars members
  | [] => rfl
  | [(_, x)] => by
      simp only [plainMembers, memberChars, chars_plain x]
  | (_, x) :: (l, y) :: xs => by
      have rest := memberChars_plainMembers ((l, y) :: xs)
      simp only [plainMembers, memberChars, chars_plain x] at rest ⊢
      rw [rest]
end

/-! The first character tells the kind of a value. -/

inductive Kind where
  | null
  | bool
  | number
  | string
  | array
  | object
  deriving DecidableEq

def kind : Json → Kind
  | .null => .null
  | .bool _ => .bool
  | .integer _ | .real _ => .number
  | .string _ => .string
  | .array _ => .array
  | .object _ => .object

def kindOfFirst? (c : Char) : Option Kind :=
  if isNumberChar c then some .number
  else
    match c with
    | 'n' => some .null
    | 't' | 'f' => some .bool
    | '"' => some .string
    | '[' => some .array
    | '\x7b' => some .object
    | _ => none

theorem kindOfFirst?_number {token : List Char} (inside : ∀ c ∈ token, isNumberChar c = true)
    (nonempty : token ≠ []) : ∃ c rest, token = c :: rest ∧ kindOfFirst? c = some .number := by
  obtain ⟨c, rest, rfl⟩ := List.exists_cons_of_ne_nil nonempty
  exact ⟨c, rest, rfl, if_pos (inside c List.mem_cons_self)⟩

theorem integerChars_ne_nil (n : Int) : integerChars n ≠ [] := by
  cases n with
  | ofNat n => exact Nat.toDigits_ne_nil
  | negSucc n => exact List.cons_ne_nil _ _

theorem realChars_ne_nil {x : Binary64} (finite : x.isFinite = true) : realChars x ≠ [] := by
  intro empty
  rcases mark_mem_realChars finite with point | exponent
  · simp [empty] at point
  · simp [empty] at exponent

theorem finite_of_plain {x : Binary64} (told : plain (.real x) = .real x) : x.isFinite = true := by
  rw [plain, ofReal] at told
  split at told
  · assumption
  · cases told

theorem chars_real {x : Binary64} (finite : x.isFinite = true) : chars (.real x) = realChars x :=
  if_pos finite

theorem exists_first {v : Json} (told : v.plain = v) :
    ∃ c rest, v.chars = c :: rest ∧ kindOfFirst? c = some v.kind := by
  cases v with
  | null => exact ⟨'n', _, rfl, rfl⟩
  | bool b =>
      cases b
      · exact ⟨'f', _, rfl, rfl⟩
      · exact ⟨'t', _, rfl, rfl⟩
  | integer n => exact kindOfFirst?_number (isNumberChar_integerChars n) (integerChars_ne_nil n)
  | real x =>
      have finite := finite_of_plain told
      rw [chars_real finite]
      exact kindOfFirst?_number (isNumberChar_realChars finite) (realChars_ne_nil finite)
  | string s => exact ⟨'"', _, rfl, rfl⟩
  | array items => exact ⟨'[', _, rfl, rfl⟩
  | object members => exact ⟨'\x7b', _, rfl, rfl⟩

theorem kind_eq {v w : Json} (told : v.plain = v) (told' : w.plain = w) {rest rest' : List Char}
    (same : v.chars ++ rest = w.chars ++ rest') : v.kind = w.kind := by
  obtain ⟨c, more, shape, first⟩ := exists_first told
  obtain ⟨c', more', shape', first'⟩ := exists_first told'
  rw [shape, shape'] at same
  obtain ⟨rfl, -⟩ := List.cons.inj same
  exact Option.some.inj (first.symm.trans first')

/-! Values. -/

theorem numberEnds_cons {c : Char} (mark : isNumberChar c = false) (rest : List Char) :
    NumberEnds (c :: rest) := by
  rintro _ ⟨⟩
  exact mark

theorem number_unique {v w : Json} (number : v.kind = .number) (number' : w.kind = .number)
    (told : v.plain = v) (told' : w.plain = w) {rest rest' : List Char} (ends : NumberEnds rest)
    (ends' : NumberEnds rest') (same : v.chars ++ rest = w.chars ++ rest') :
    v = w ∧ rest = rest' := by
  cases v <;> cases number
  case integer m =>
    cases w <;> cases number'
    case integer n =>
      obtain ⟨tokens, rests⟩ := token_unique (isNumberChar_integerChars m)
        (isNumberChar_integerChars n) ends ends' same
      exact ⟨congrArg Json.integer (integerChars_injective tokens), rests⟩
    case real y =>
      have finite := finite_of_plain told'
      rw [chars_real finite] at same
      obtain ⟨tokens, -⟩ := token_unique (isNumberChar_integerChars m)
        (isNumberChar_realChars finite) ends ends' same
      exact absurd tokens (integerChars_ne_realChars m finite)
  case real x =>
    have finite := finite_of_plain told
    cases w <;> cases number'
    case integer n =>
      rw [chars_real finite] at same
      obtain ⟨tokens, -⟩ := token_unique (isNumberChar_realChars finite)
        (isNumberChar_integerChars n) ends ends' same
      exact absurd tokens.symm (integerChars_ne_realChars n finite)
    case real y =>
      have finite' := finite_of_plain told'
      rw [chars_real finite, chars_real finite'] at same
      obtain ⟨tokens, rests⟩ := token_unique (isNumberChar_realChars finite)
        (isNumberChar_realChars finite') ends ends' same
      exact ⟨congrArg Json.real (realChars_injective finite finite' tokens), rests⟩

/-- What follows an item: the end of the array, or a comma and the other items. -/
def afterItem (rest : List Char) : List Json → List Char
  | [] => ']' :: rest
  | x :: xs => ',' :: itemChars (x :: xs) ++ ']' :: rest

def afterMember (rest : List Char) : List (String × Json) → List Char
  | [] => '\x7d' :: rest
  | member :: members => ',' :: memberChars (member :: members) ++ '\x7d' :: rest

theorem itemChars_cons (x : Json) (xs : List Json) (rest : List Char) :
    itemChars (x :: xs) ++ ']' :: rest = x.chars ++ afterItem rest xs := by
  cases xs <;> simp [itemChars, afterItem]

theorem memberChars_cons (k : String) (x : Json) (xs : List (String × Json)) (rest : List Char) :
    memberChars ((k, x) :: xs) ++ '\x7d' :: rest =
      stringChars k ++ ':' :: (x.chars ++ afterMember rest xs) := by
  cases xs <;> simp [memberChars, afterMember]

theorem numberEnds_afterItem (rest : List Char) (xs : List Json) :
    NumberEnds (afterItem rest xs) := by
  cases xs <;> exact numberEnds_cons rfl _

theorem numberEnds_afterMember (rest : List Char) (xs : List (String × Json)) :
    NumberEnds (afterMember rest xs) := by
  cases xs <;> exact numberEnds_cons rfl _

mutual
theorem chars_unique : ∀ v w : Json, v.plain = v → w.plain = w → ∀ {rest rest' : List Char},
    NumberEnds rest → NumberEnds rest' → v.chars ++ rest = w.chars ++ rest' →
      v = w ∧ rest = rest'
  | v, w, told, told', rest, rest', ends, ends', same => by
      have kinds := kind_eq told told' same
      cases v with
      | null =>
          cases w <;> cases kinds
          exact ⟨rfl, List.append_cancel_left same⟩
      | bool b =>
          cases w <;> cases kinds
          rename_i c
          cases b <;> cases c
          · exact ⟨rfl, List.append_cancel_left same⟩
          · cases same
          · cases same
          · exact ⟨rfl, List.append_cancel_left same⟩
      | integer n => exact number_unique rfl kinds.symm told told' ends ends' same
      | real x => exact number_unique rfl kinds.symm told told' ends ends' same
      | string s =>
          cases w <;> cases kinds
          obtain ⟨rfl, rests⟩ := stringChars_unique same
          exact ⟨rfl, rests⟩
      | array xs =>
          cases w <;> cases kinds
          rename_i ys
          have inside : itemChars xs ++ ']' :: rest = itemChars ys ++ ']' :: rest' := by
            simpa [chars] using same
          obtain ⟨rfl, rests⟩ := itemChars_unique xs ys (Json.array.inj told)
            (Json.array.inj told') inside
          exact ⟨rfl, rests⟩
      | object xs =>
          cases w <;> cases kinds
          rename_i ys
          have inside : memberChars xs ++ '\x7d' :: rest = memberChars ys ++ '\x7d' :: rest' := by
            simpa [chars] using same
          obtain ⟨rfl, rests⟩ := memberChars_unique xs ys (Json.object.inj told)
            (Json.object.inj told') inside
          exact ⟨rfl, rests⟩

theorem itemChars_unique : ∀ xs ys : List Json, plainItems xs = xs → plainItems ys = ys →
    ∀ {rest rest' : List Char}, itemChars xs ++ ']' :: rest = itemChars ys ++ ']' :: rest' →
      xs = ys ∧ rest = rest'
  | [], [], _, _, _, _, same => ⟨rfl, (List.cons.inj same).2⟩
  | [], y :: ys, _, told', rest, rest', same => by
      obtain ⟨c, more, shape, first⟩ := exists_first (List.cons.inj told').1
      rw [itemChars_cons, shape] at same
      cases same
      cases first
  | x :: xs, [], told, _, rest, rest', same => by
      obtain ⟨c, more, shape, first⟩ := exists_first (List.cons.inj told).1
      rw [itemChars_cons, shape] at same
      cases same
      cases first
  | x :: xs, y :: ys, told, told', rest, rest', same => by
      rw [itemChars_cons, itemChars_cons] at same
      obtain ⟨rfl, more⟩ := chars_unique x y (List.cons.inj told).1 (List.cons.inj told').1
        (numberEnds_afterItem rest xs) (numberEnds_afterItem rest' ys) same
      cases xs with
      | nil =>
          cases ys with
          | nil => exact ⟨rfl, (List.cons.inj more).2⟩
          | cons z zs => cases more
      | cons z zs =>
          cases ys with
          | nil => cases more
          | cons y ys =>
              obtain ⟨rests, same⟩ := itemChars_unique (z :: zs) (y :: ys) (List.cons.inj told).2
                (List.cons.inj told').2 (List.cons.inj more).2
              exact ⟨congrArg (x :: ·) rests, same⟩

theorem memberChars_unique : ∀ xs ys : List (String × Json), plainMembers xs = xs →
    plainMembers ys = ys → ∀ {rest rest' : List Char},
      memberChars xs ++ '\x7d' :: rest = memberChars ys ++ '\x7d' :: rest' →
        xs = ys ∧ rest = rest'
  | [], [], _, _, _, _, same => ⟨rfl, (List.cons.inj same).2⟩
  | [], (l, y) :: ys, _, _, rest, rest', same => by
      rw [memberChars_cons] at same
      cases same
  | (k, x) :: xs, [], _, _, rest, rest', same => by
      rw [memberChars_cons] at same
      cases same
  | (k, x) :: xs, (l, y) :: ys, told, told', rest, rest', same => by
      rw [memberChars_cons, memberChars_cons] at same
      obtain ⟨rfl, values⟩ := stringChars_unique same
      obtain ⟨rfl, more⟩ := chars_unique x y (Prod.ext_iff.mp (List.cons.inj told).1).2
        (Prod.ext_iff.mp (List.cons.inj told').1).2 (numberEnds_afterMember rest xs)
        (numberEnds_afterMember rest' ys) (List.cons.inj values).2
      cases xs with
      | nil =>
          cases ys with
          | nil => exact ⟨rfl, (List.cons.inj more).2⟩
          | cons z zs => cases more
      | cons z zs =>
          cases ys with
          | nil => cases more
          | cons y ys =>
              obtain ⟨rests, same⟩ := memberChars_unique (z :: zs) (y :: ys)
                (List.cons.inj told).2 (List.cons.inj told').2 (List.cons.inj more).2
              exact ⟨congrArg ((k, x) :: ·) rests, same⟩
end

/-- Two values have one text exactly if no text tells them apart in their reals. -/
theorem text_eq_iff {v w : Json} : v.text = w.text ↔ v.plain = w.plain := by
  have asChars : v.text = w.text ↔ v.plain.chars = w.plain.chars := by
    rw [text, text, String.ofList_inj, chars_plain, chars_plain]
  rw [asChars]
  constructor
  · intro same
    have nothing : NumberEnds [] := fun _ member => nomatch member
    exact (chars_unique v.plain w.plain v.plain_plain w.plain_plain nothing nothing
      (congrArg (· ++ []) same)).1
  · exact congrArg chars

end Coordination.Json
