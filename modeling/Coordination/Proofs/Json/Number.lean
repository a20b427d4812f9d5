import Coordination.Json.Reader
import Coordination.Json.Text
import Coordination.Proofs.Binary64.Decimal

/-!
The texts of numbers. A finite real reads back from its text, and the text of an integer is never one
of a real: a real has a point or an exponent.
-/

namespace Coordination.Json

open Binary64 (Decimal)

/-! Digits. -/

def AllDigits (digits : List Char) : Prop := ∀ c ∈ digits, c.isDigit = true

/-- What follows does not begin with a digit. -/
def DigitsEnd (rest : List Char) : Prop := ∀ c ∈ rest.head?, c.isDigit = false

theorem allDigits_toDigits (n : Nat) : AllDigits (Nat.toDigits 10 n) := fun _ member =>
  Nat.isDigit_of_mem_toDigits (by decide) (by decide) member

theorem AllDigits.append {first second : List Char} (left : AllDigits first)
    (right : AllDigits second) : AllDigits (first ++ second) := by
  intro c member
  rcases List.mem_append.mp member with inFirst | inSecond
  · exact left c inFirst
  · exact right c inSecond

theorem allDigits_zeros (count : Nat) : AllDigits (zeros count) := by
  intro c member
  rw [(List.mem_replicate.mp member).2]
  decide

theorem takeDigits_append {digits rest : List Char} (all : AllDigits digits)
    (ends : DigitsEnd rest) : Reader.takeDigits (digits ++ rest) = (digits, rest) := by
  have stops : rest.takeWhile Char.isDigit = [] ∧ rest.dropWhile Char.isDigit = rest := by
    cases rest with
    | nil => exact ⟨rfl, rfl⟩
    | cons c rest =>
        have nonDigit : c.isDigit = false := ends c rfl
        simp [nonDigit]
  rw [Reader.takeDigits, List.span_eq_takeWhile_dropWhile, List.takeWhile_append_of_pos all,
    List.dropWhile_append_of_pos all, stops.1, stops.2, List.append_nil]

theorem naturalOf_eq (digits : List Char) :
    Reader.naturalOf digits = Nat.ofDigitChars 10 digits 0 := rfl

@[simp] theorem naturalOf_toDigits (n : Nat) : Reader.naturalOf (Nat.toDigits 10 n) = n :=
  Nat.ofDigitChars_toDigits (by decide) (by decide)

theorem toDigits_injective {m n : Nat} (same : Nat.toDigits 10 m = Nat.toDigits 10 n) : m = n := by
  rw [← naturalOf_toDigits m, same, naturalOf_toDigits]

theorem naturalOf_zeros_append (count : Nat) (digits : List Char) :
    Reader.naturalOf (zeros count ++ digits) = Reader.naturalOf digits := by
  rw [naturalOf_eq, naturalOf_eq, Nat.ofDigitChars_append, zeros, Nat.ofDigitChars_replicate_zero,
    Nat.mul_zero]

theorem naturalOf_append_zeros (digits : List Char) (count : Nat) :
    Reader.naturalOf (digits ++ zeros count) = 10 ^ count * Reader.naturalOf digits := by
  rw [naturalOf_eq, naturalOf_eq, Nat.ofDigitChars_append, zeros, Nat.ofDigitChars_replicate_zero]

/-! Numbers by their parts. -/

/-- The digits before the point: a zero only if it stands alone. -/
structure WholePart (whole : List Char) : Prop where
  digits : AllDigits whole
  nonempty : whole ≠ []
  alone : ∀ rest, whole = '0' :: rest → rest = []

def fractionChars : List Char → List Char
  | [] => []
  | fraction => '.' :: fraction

def exponentChars : Option Int → List Char
  | none => []
  | some exponent =>
      'e' :: (if exponent < 0 then '-' else '+') :: Nat.toDigits 10 exponent.natAbs

def isNumberChar (c : Char) : Bool :=
  c.isDigit || c == '-' || c == '+' || c == '.' || c == 'e' || c == 'E'

/-- What follows does not go on with a number. -/
def NumberEnds (rest : List Char) : Prop := ∀ c ∈ rest.head?, isNumberChar c = false

theorem NumberEnds.digitsEnd {rest : List Char} (ends : NumberEnds rest) : DigitsEnd rest := by
  intro c first
  have none := ends c first
  simp only [isNumberChar, Bool.or_eq_false_iff] at none
  exact none.1.1.1.1.1

theorem exponent?_exponentChars (exponent : Option Int) {rest : List Char}
    (ends : NumberEnds rest) :
    Reader.exponent? (exponentChars exponent ++ rest) = some (exponent, rest) := by
  cases exponent with
  | none =>
      rw [exponentChars, List.nil_append]
      unfold Reader.exponent?
      split
      · cases ends 'e' rfl
      · cases ends 'E' rfl
      · rfl
  | some exponent =>
      have taken : Reader.takeDigits (Nat.toDigits 10 exponent.natAbs ++ rest) =
          (Nat.toDigits 10 exponent.natAbs, rest) :=
        takeDigits_append (allDigits_toDigits _) ends.digitsEnd
      have denotes := naturalOf_toDigits exponent.natAbs
      obtain ⟨c, digits, shape⟩ :=
        List.exists_cons_of_ne_nil (Nat.toDigits_ne_nil (n := exponent.natAbs) (b := 10))
      rw [shape] at taken denotes
      by_cases negative : exponent < 0
      · simp only [exponentChars, if_pos negative, List.cons_append, Reader.exponent?, shape]
        rw [← List.cons_append, taken]
        simp only [denotes, if_true]
        congr 3
        omega
      · simp only [exponentChars, if_neg negative, List.cons_append, Reader.exponent?, shape]
        rw [← List.cons_append, taken]
        simp only [denotes, Bool.false_eq_true, if_false]
        congr 3
        omega

theorem fraction?_fractionChars {fraction rest : List Char} (digits : AllDigits fraction)
    (digitsEnd : DigitsEnd rest) (noPoint : ∀ c ∈ rest.head?, c ≠ '.') :
    Reader.fraction? (fractionChars fraction ++ rest) = some (fraction, rest) := by
  cases fraction with
  | nil =>
      rw [fractionChars, List.nil_append]
      unfold Reader.fraction?
      split
      · exact absurd rfl (noPoint '.' rfl)
      · rfl
  | cons c fraction =>
      have taken := takeDigits_append digits digitsEnd
      simp only [fractionChars, List.cons_append, Reader.fraction?]
      rw [List.cons_append] at taken
      rw [taken]

theorem unsignedNumber_parts (negative : Bool) {whole fraction rest : List Char}
    (exponent : Option Int) (isWhole : WholePart whole) (digits : AllDigits fraction)
    (ends : NumberEnds rest) :
    Reader.unsignedNumber negative
        (whole ++ (fractionChars fraction ++ (exponentChars exponent ++ rest))) =
      some (Reader.numberOf negative whole fraction exponent, rest) := by
  have afterFraction : ∀ c ∈ (exponentChars exponent ++ rest).head?, c.isDigit = false ∧ c ≠ '.' := by
    intro c first
    cases exponent with
    | none =>
        have none := ends c first
        refine ⟨ends.digitsEnd c first, ?_⟩
        rintro rfl
        cases none
    | some exponent =>
        cases first
        exact ⟨rfl, by decide⟩
  have afterWhole : DigitsEnd (fractionChars fraction ++ (exponentChars exponent ++ rest)) := by
    cases fraction with
    | nil => exact fun c first => (afterFraction c first).1
    | cons c fraction =>
        rintro _ ⟨⟩
        rfl
  have fractionRead := fraction?_fractionChars digits (fun c first => (afterFraction c first).1)
    (fun c first => (afterFraction c first).2)
  have exponentRead := exponent?_exponentChars exponent ends
  rw [Reader.unsignedNumber, takeDigits_append isWhole.digits afterWhole]
  split
  · rename_i same
    exact absurd (Prod.mk.inj same).1 isWhole.nonempty
  · rename_i c more _ same
    exact absurd (isWhole.alone _ (Prod.mk.inj same).1) (List.cons_ne_nil c more)
  · rename_i same
    obtain ⟨rfl, rfl⟩ := Prod.mk.inj same
    simp only [fractionRead, exponentRead, Option.bind_eq_bind, Option.bind_some, Option.pure_def]

def signed (negative : Bool) (digits : List Char) : List Char :=
  if negative then '-' :: digits else digits

theorem number_signed (negative : Bool) {whole : List Char} (isWhole : WholePart whole)
    (rest : List Char) :
    Reader.number (signed negative (whole ++ rest)) =
      Reader.unsignedNumber negative (whole ++ rest) := by
  cases negative with
  | true => rfl
  | false =>
      obtain ⟨c, whole, rfl⟩ := List.exists_cons_of_ne_nil isWhole.nonempty
      have digit := isWhole.digits c List.mem_cons_self
      simp only [signed, Bool.false_eq_true, if_false, List.cons_append]
      unfold Reader.number
      split
      · rename_i same
        cases same
        cases digit
      · rfl

/-! The texts of decimals. -/

theorem head?_toDigits_ne_zero {n : Nat} (nonzero : n ≠ 0) : (Nat.toDigits 10 n).head? ≠ some '0' := by
  induction n using Nat.strong_induction_on with
  | _ n induction =>
      rw [Nat.toDigits_eq_if (by decide)]
      split
      · simpa using nonzero
      · rw [List.head?_append_of_ne_nil _ Nat.toDigits_ne_nil]
        exact induction (n / 10) (by omega) (by omega)

theorem wholePart_of_head? {whole : List Char} (digits : AllDigits whole) (nonempty : whole ≠ [])
    (head : whole.head? ≠ some '0') : WholePart whole where
  digits := digits
  nonempty := nonempty
  alone := by
    rintro rest rfl
    exact absurd rfl head

theorem wholePart_zero : WholePart ['0'] where
  digits := by simp [AllDigits]
  nonempty := List.cons_ne_nil _ _
  alone := by
    rintro rest ⟨⟩
    rfl

/-- A decimal as its text gives it: a whole part, a fraction and an exponent, not both of which are
left out. -/
structure DecimalParts (d : Decimal) (whole fraction : List Char) (exponent : Option Int) : Prop where
  chars : decimalChars d = whole ++ (fractionChars fraction ++ exponentChars exponent)
  isWhole : WholePart whole
  digits : AllDigits fraction
  marked : (fraction.isEmpty && exponent.isNone) = false
  value : Decimal.value ⟨Reader.naturalOf (whole ++ fraction), exponent.getD 0 - fraction.length⟩ =
    d.value

theorem fractionChars_of_ne_nil {fraction : List Char} (nonempty : fraction ≠ []) :
    fractionChars fraction = '.' :: fraction := by
  cases fraction with
  | nil => contradiction
  | cons => rfl

variable {digits : List Char} {exponent : Int}

theorem plainNumber_of_nonneg (whole : 0 ≤ exponent) :
    plainNumber digits exponent =
      (digits ++ zeros exponent.toNat) ++ (fractionChars ['0'] ++ exponentChars none) := by
  simp [plainNumber, whole, fractionChars, exponentChars]

theorem plainNumber_of_lt_length (part : exponent < 0) (inside : (-exponent).toNat < digits.length) :
    plainNumber digits exponent = digits.take (digits.length - (-exponent).toNat) ++
      (fractionChars (digits.drop (digits.length - (-exponent).toNat)) ++ exponentChars none) := by
  have nonempty : digits.drop (digits.length - (-exponent).toNat) ≠ [] := by
    rw [ne_eq, List.drop_eq_nil_iff]
    omega
  rw [fractionChars_of_ne_nil nonempty, plainNumber, if_neg (by omega), if_pos inside]
  simp [exponentChars]

theorem plainNumber_of_length_le (nonempty : digits ≠ []) (part : exponent < 0)
    (outside : digits.length ≤ (-exponent).toNat) :
    plainNumber digits exponent = ['0'] ++
      (fractionChars (zeros ((-exponent).toNat - digits.length) ++ digits) ++ exponentChars none) := by
  have nonempty : zeros ((-exponent).toNat - digits.length) ++ digits ≠ [] := by simp [nonempty]
  rw [fractionChars_of_ne_nil nonempty, plainNumber, if_neg (by omega), if_neg (by omega)]
  simp [exponentChars]

theorem scientificNumber_cons (c : Char) (digits : List Char) (leading : Int) :
    scientificNumber (c :: digits) leading =
      [c] ++ (fractionChars digits ++ exponentChars (some leading)) := by
  cases digits <;> rfl

theorem value_of_same {d : Decimal} {count : Nat} (sameDigits : count = d.digits)
    (sameExponent : exponent = d.exponent) : Decimal.value ⟨count, exponent⟩ = d.value := by
  subst sameDigits sameExponent
  rfl

theorem value_shifted (d : Decimal) (places : Nat) :
    Decimal.value ⟨10 ^ places * d.digits, d.exponent - places⟩ = d.value := by
  rw [Decimal.value, Decimal.value, zpow_sub₀ (by norm_num), zpow_natCast]
  push_cast
  field_simp

section NonzeroDigits

variable {d : Decimal} (nonzero : d.digits ≠ 0)

include nonzero

theorem wholePart_append {more : List Char} (digits : AllDigits more) :
    WholePart (Nat.toDigits 10 d.digits ++ more) := by
  have nonempty : Nat.toDigits 10 d.digits ≠ [] := Nat.toDigits_ne_nil
  apply wholePart_of_head? ((allDigits_toDigits _).append digits) (by simp)
  rw [List.head?_append_of_ne_nil _ nonempty]
  exact head?_toDigits_ne_zero nonzero

theorem wholePart_take {count : Nat} (some : 0 < count) :
    WholePart ((Nat.toDigits 10 d.digits).take count) := by
  apply wholePart_of_head?
  · exact fun c member => allDigits_toDigits _ c (List.mem_of_mem_take member)
  · simp [Nat.ne_of_gt some]
  · rw [List.head?_take, if_neg (Nat.ne_of_gt some)]
    exact head?_toDigits_ne_zero nonzero

theorem exists_plainParts : ∃ whole fraction,
    plainNumber (Nat.toDigits 10 d.digits) d.exponent =
        whole ++ (fractionChars fraction ++ exponentChars none) ∧
      WholePart whole ∧ AllDigits fraction ∧ fraction ≠ [] ∧
      Decimal.value ⟨Reader.naturalOf (whole ++ fraction), -fraction.length⟩ = d.value := by
  have denotes := naturalOf_toDigits d.digits
  have all := allDigits_toDigits d.digits
  have nonempty : Nat.toDigits 10 d.digits ≠ [] := Nat.toDigits_ne_nil
  by_cases whole : 0 ≤ d.exponent
  · refine ⟨_, _, plainNumber_of_nonneg whole, wholePart_append nonzero (allDigits_zeros _),
      wholePart_zero.digits, List.cons_ne_nil _ _, ?_⟩
    have oneZero : Nat.toDigits 10 d.digits ++ zeros d.exponent.toNat ++ ['0'] =
        Nat.toDigits 10 d.digits ++ zeros (d.exponent.toNat + 1) := by
      rw [List.append_assoc, zeros, zeros, List.replicate_succ']
    rw [oneZero, naturalOf_append_zeros, denotes, ← value_shifted d (d.exponent.toNat + 1)]
    congr 2
    simp
    omega
  · have part : d.exponent < 0 := by omega
    by_cases inside : (-d.exponent).toNat < (Nat.toDigits 10 d.digits).length
    · refine ⟨_, _, plainNumber_of_lt_length part inside, wholePart_take nonzero (by omega),
        fun c member => all c (List.mem_of_mem_drop member), ?_, ?_⟩
      · rw [ne_eq, List.drop_eq_nil_iff]
        omega
      · rw [List.take_append_drop, denotes, List.length_drop]
        exact value_of_same rfl (by omega)
    · refine ⟨_, _, plainNumber_of_length_le nonempty part (Nat.not_lt.mp inside), wholePart_zero,
        (allDigits_zeros _).append all, by simp [nonempty], ?_⟩
      have leading : ['0'] = zeros 1 := rfl
      rw [leading, naturalOf_zeros_append, naturalOf_zeros_append, denotes]
      apply value_of_same rfl
      simp [zeros]
      omega

theorem exists_scientificParts (leading : Int)
    (isLeading : leading = d.exponent + (Nat.toDigits 10 d.digits).length - 1) :
    ∃ whole fraction,
      scientificNumber (Nat.toDigits 10 d.digits) leading =
          whole ++ (fractionChars fraction ++ exponentChars (some leading)) ∧
        WholePart whole ∧ AllDigits fraction ∧
        Decimal.value ⟨Reader.naturalOf (whole ++ fraction), leading - fraction.length⟩ =
          d.value := by
  have denotes := naturalOf_toDigits d.digits
  have all := allDigits_toDigits d.digits
  have head := head?_toDigits_ne_zero nonzero
  obtain ⟨c, digits, shape⟩ :=
    List.exists_cons_of_ne_nil (Nat.toDigits_ne_nil (n := d.digits) (b := 10))
  rw [shape] at denotes all head isLeading ⊢
  refine ⟨[c], digits, scientificNumber_cons c digits leading, ?_, ?_, ?_⟩
  · exact wholePart_of_head? (fun e member => all e (by simp_all)) (List.cons_ne_nil _ _) head
  · exact fun e member => all e (List.mem_cons_of_mem _ member)
  · rw [List.length_cons] at isLeading
    exact value_of_same denotes (by omega)

end NonzeroDigits

theorem exists_decimalParts {d : Decimal} (proper : d.digits ≠ 0 ∨ d = ⟨0, 0⟩) :
    ∃ whole fraction exponent, DecimalParts d whole fraction exponent := by
  rcases proper with nonzero | rfl
  · by_cases plain : plainFrom ≤ d.exponent + (Nat.toDigits 10 d.digits).length - 1 ∧
        d.exponent + (Nat.toDigits 10 d.digits).length - 1 < scientificFrom
    · obtain ⟨whole, fraction, chars, isWhole, digits, nonempty, value⟩ :=
        exists_plainParts nonzero
      refine ⟨whole, fraction, none, (if_pos plain).trans chars, isWhole, digits, ?_, ?_⟩
      · simp [nonempty]
      · simpa using value
    · obtain ⟨whole, fraction, chars, isWhole, digits, value⟩ :=
        exists_scientificParts nonzero _ rfl
      exact ⟨whole, fraction, _, (if_neg plain).trans chars, isWhole, digits, by simp, value⟩
  · exact ⟨['0'], ['0'], none, by decide, wholePart_zero, wholePart_zero.digits, rfl,
      by norm_num [Decimal.value, Reader.naturalOf]⟩

/-! The texts of reals. -/

theorem proper_shortest {x : Binary64} (finite : x.isFinite = true) :
    x.shortest.digits ≠ 0 ∨ x.shortest = ⟨0, 0⟩ := by
  cases zero : x.isZero with
  | true => exact .inr (Binary64.shortest_of_isZero zero)
  | false =>
      left
      intro none
      have reads := of_decide_eq_true (Binary64.readsBack_shortest finite)
      have magnitude := of_decide_eq_false zero
      rw [← reads, Decimal.toBinary64, none] at magnitude
      exact magnitude rfl

theorem number_realChars {x : Binary64} (finite : x.isFinite = true) {rest : List Char}
    (ends : NumberEnds rest) : Reader.number (realChars x ++ rest) = some (.real x, rest) := by
  obtain ⟨whole, fraction, exponent, parts⟩ := exists_decimalParts (proper_shortest finite)
  have chars : realChars x ++ rest = signed x.isNegative
      (whole ++ (fractionChars fraction ++ (exponentChars exponent ++ rest))) := by
    rw [realChars, parts.chars, signed]
    split <;> simp
  rw [chars, number_signed _ parts.isWhole, unsignedNumber_parts _ _ parts.isWhole parts.digits ends,
    Reader.numberOf]
  simp only [parts.marked, Bool.false_and, Bool.false_eq_true, if_false]
  rw [Binary64.ofDecimal_congr parts.value, Binary64.ofDecimal_shortest finite]

theorem realChars_injective {x y : Binary64} (finite : x.isFinite = true)
    (finite' : y.isFinite = true) (same : realChars x = realChars y) : x = y := by
  have nothing : NumberEnds [] := fun _ member => nomatch member
  have read := number_realChars finite nothing
  rw [same, number_realChars finite' nothing] at read
  cases read
  rfl

/-! Numbers as tokens. -/

theorem isNumberChar_of_isDigit {c : Char} (digit : c.isDigit = true) : isNumberChar c = true := by
  simp [isNumberChar, digit]

theorem isNumberChar_exponentChars (exponent : Option Int) :
    ∀ c ∈ exponentChars exponent, isNumberChar c = true := by
  cases exponent with
  | none => simp [exponentChars]
  | some exponent =>
      intro c member
      simp only [exponentChars, List.mem_cons] at member
      rcases member with rfl | rfl | digit
      · rfl
      · split <;> rfl
      · exact isNumberChar_of_isDigit (allDigits_toDigits _ c digit)

theorem isNumberChar_realChars {x : Binary64} (finite : x.isFinite = true) :
    ∀ c ∈ realChars x, isNumberChar c = true := by
  obtain ⟨whole, fraction, exponent, parts⟩ := exists_decimalParts (proper_shortest finite)
  have unsigned : ∀ c ∈ decimalChars x.shortest, isNumberChar c = true := by
    intro c member
    rw [parts.chars, List.mem_append, List.mem_append] at member
    rcases member with inWhole | inFraction | inExponent
    · exact isNumberChar_of_isDigit (parts.isWhole.digits c inWhole)
    · cases fraction with
      | nil => cases inFraction
      | cons d fraction =>
          rcases List.mem_cons.mp inFraction with rfl | digit
          · rfl
          · exact isNumberChar_of_isDigit (parts.digits c digit)
    · exact isNumberChar_exponentChars exponent c inExponent
  intro c member
  rw [realChars] at member
  split at member
  · rcases List.mem_cons.mp member with rfl | inDecimal
    · rfl
    · exact unsigned c inDecimal
  · exact unsigned c member

theorem mark_mem_realChars {x : Binary64} (finite : x.isFinite = true) :
    '.' ∈ realChars x ∨ 'e' ∈ realChars x := by
  obtain ⟨whole, fraction, exponent, parts⟩ := exists_decimalParts (proper_shortest finite)
  have unsigned : '.' ∈ decimalChars x.shortest ∨ 'e' ∈ decimalChars x.shortest := by
    have marked := parts.marked
    rw [parts.chars]
    cases fraction with
    | cons c fraction => simp [fractionChars]
    | nil =>
        cases exponent with
        | none => cases marked
        | some exponent => simp [exponentChars]
  rw [realChars]
  split
  · exact unsigned.imp (List.mem_cons_of_mem _) (List.mem_cons_of_mem _)
  · exact unsigned

theorem mem_integerChars {n : Int} {c : Char} (member : c ∈ integerChars n) :
    c = '-' ∨ c.isDigit = true := by
  cases n with
  | ofNat n => exact .inr (allDigits_toDigits _ c member)
  | negSucc n =>
      rcases List.mem_cons.mp member with minus | digit
      · exact .inl minus
      · exact .inr (allDigits_toDigits _ c digit)

theorem isNumberChar_integerChars (n : Int) : ∀ c ∈ integerChars n, isNumberChar c = true := by
  intro c member
  rcases mem_integerChars member with rfl | digit
  · rfl
  · exact isNumberChar_of_isDigit digit

theorem integerChars_ne_realChars (n : Int) {x : Binary64} (finite : x.isFinite = true) :
    integerChars n ≠ realChars x := by
  intro same
  rcases mark_mem_realChars finite with point | exponent
  · rcases mem_integerChars (same ▸ point) with minus | digit
    · cases minus
    · cases digit
  · rcases mem_integerChars (same ▸ exponent) with minus | digit
    · cases minus
    · cases digit

theorem integerChars_injective {m n : Int} (same : integerChars m = integerChars n) : m = n := by
  have unsigned (k : Nat) : '-' ∉ integerChars (.ofNat k) := fun member =>
    nomatch allDigits_toDigits k '-' member
  cases m with
  | ofNat m =>
      cases n with
      | ofNat n => exact congrArg Int.ofNat (toDigits_injective same)
      | negSucc n =>
          have member : '-' ∈ integerChars (.negSucc n) := List.mem_cons_self
          rw [← same] at member
          exact absurd member (unsigned m)
  | negSucc m =>
      cases n with
      | ofNat n =>
          have member : '-' ∈ integerChars (.negSucc m) := List.mem_cons_self
          rw [same] at member
          exact absurd member (unsigned n)
      | negSucc n =>
          have digits := toDigits_injective (List.cons.inj same).2
          exact congrArg Int.negSucc (Nat.succ_injective digits)

/-- A number's text ends where the characters of numbers end. -/
theorem takeWhile_isNumberChar {token rest : List Char}
    (inside : ∀ c ∈ token, isNumberChar c = true) (ends : NumberEnds rest) :
    (token ++ rest).takeWhile isNumberChar = token := by
  have stops : rest.takeWhile isNumberChar = [] := by
    cases rest with
    | nil => rfl
    | cons c rest => simp [ends c rfl]
  rw [List.takeWhile_append_of_pos inside, stops, List.append_nil]

theorem token_unique {first second rest rest' : List Char}
    (inside : ∀ c ∈ first, isNumberChar c = true) (inside' : ∀ c ∈ second, isNumberChar c = true)
    (ends : NumberEnds rest) (ends' : NumberEnds rest')
    (same : first ++ rest = second ++ rest') : first = second ∧ rest = rest' := by
  have tokens : first = second := by
    rw [← takeWhile_isNumberChar inside ends, same, takeWhile_isNumberChar inside' ends']
  subst tokens
  exact ⟨rfl, List.append_cancel_left same⟩

end Coordination.Json
