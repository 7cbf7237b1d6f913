import LightningInvoice.Amount
import LightningInvoice.Proofs.Radix

/-!
The grammar of amounts. A text is nothing, or it falls into a numeral and a multiplier; what it
denotes is counted in picobitcoin without a bound, and `parse` stops exactly where that number does
not fit in 64 bits. `parse_iff` says for each text what it is read as, or why it is refused.
-/
namespace LightningInvoice

/-- The bounds as numerals, for `omega`. -/
theorem toNat_of_isDigit {c : Char} (h : c.isDigit = true) : 48 ≤ c.toNat ∧ c.toNat ≤ 57 :=
  Char.isDigit_iff_toNat.mp h

theorem toNat_digitValue {c : Char} (h : c.isDigit = true) :
    (Amount.digitValue c).toNat = c.toNat - 48 := by
  obtain ⟨_, high⟩ := toNat_of_isDigit h
  exact UInt8.toNat_ofNat_of_lt' (by show c.toNat - 48 < 256; omega)

namespace Multiplier

theorem isDigit_letter (m : Multiplier) : m.letter.isDigit = false := by
  cases m <;> rfl

theorem parse_letter (m : Multiplier) : parse [m.letter] = .ok m := by
  cases m <;> rfl

theorem parse_of_not_mem {c : Char} (other : c ∉ ['m', 'u', 'n', 'p']) :
    parse [c] = .error (.malformed (.unknownMultiplier c)) := by
  simp only [List.mem_cons, List.not_mem_nil, or_false, not_or] at other
  obtain ⟨milli, micro, nano, pico⟩ := other
  simp [parse, milli, micro, nano, pico]

theorem exists_letter_eq {c : Char} (member : c ∈ ['m', 'u', 'n', 'p']) :
    ∃ m : Multiplier, m.letter = c := by
  simp only [List.mem_cons, List.not_mem_nil, or_false] at member
  obtain rfl | rfl | rfl | rfl := member
  exacts [⟨.milli, rfl⟩, ⟨.micro, rfl⟩, ⟨.nano, rfl⟩, ⟨.pico, rfl⟩]

end Multiplier

namespace Amount

/-- The digits of a decimal number, without a zero in front of others. -/
def Numeral (digits : List Char) : Prop :=
  digits = ['0'] ∨
    digits ≠ [] ∧ (∀ c ∈ digits, c.isDigit = true) ∧ digits.head? ≠ some '0'

/-- What stands behind the digits: nothing, or the letter of a fraction. -/
def letters : Option Multiplier → List Char
  | none => []
  | some .milli => ['m']
  | some .micro => ['u']
  | some .nano => ['n']
  | some .pico => ['p']

/-- The number of picobitcoin in a bitcoin, or in the fraction of one that a letter names. -/
def unit : Option Multiplier → Nat
  | none => 10 ^ 12
  | some .milli => 10 ^ 9
  | some .micro => 10 ^ 6
  | some .nano => 10 ^ 3
  | some .pico => 1

/-- The number of picobitcoin that digits with a multiplier stand for. -/
def pico (digits : List Char) (multiplier : Option Multiplier) : Nat :=
  Nat.ofDigitChars 10 digits 0 * unit multiplier

/-- The texts of an amount of `m` millisatoshis. -/
def Denotes (text : List Char) (m : UInt64) : Prop :=
  ∃ digits multiplier, text = digits ++ letters multiplier ∧ Numeral digits ∧
    pico digits multiplier < 2 ^ 64 ∧ pico digits multiplier % 10 = 0 ∧
    m.toNat = pico digits multiplier / 10

/-- How a text falls into what stands before its multiplier and the multiplier. Without a
multiplier it ends in a digit. -/
inductive Parted : List Char → List Char → Option Multiplier → Prop where
  | whole {front : List Char} {last : Char} (digit : last.isDigit = true) :
      Parted (front ++ [last]) (front ++ [last]) none
  | fraction (digits : List Char) (m : Multiplier) :
      Parted (digits ++ letters (some m)) digits (some m)

/-- Why a text is no amount. Each reason is given where those before it do not apply. -/
inductive Refusal : List Char → Malformation → Prop where
  | unknownMultiplier (front : List Char) {last : Char} (noDigit : last.isDigit = false)
      (noLetter : last ∉ ['m', 'u', 'n', 'p']) :
      Refusal (front ++ [last]) (.unknownMultiplier last)
  | invalidAmount {text digits : List Char} {multiplier : Option Multiplier}
      (parted : Parted text digits multiplier)
      (noNumber : digits = [] ∨ ∃ c ∈ digits, c.isDigit = false) : Refusal text .invalidAmount
  | leadingZero {text rest : List Char} {multiplier : Option Multiplier}
      (parted : Parted text ('0' :: rest) multiplier) (number : ∀ c ∈ rest, c.isDigit = true)
      (more : rest ≠ []) : Refusal text .leadingZeroAmount
  | overflow {text digits : List Char} {multiplier : Option Multiplier}
      (parted : Parted text digits multiplier) (numeral : Numeral digits)
      (large : 2 ^ 64 ≤ pico digits multiplier) : Refusal text .integerOverflow
  | imprecise {text digits : List Char} {multiplier : Option Multiplier}
      (parted : Parted text digits multiplier) (numeral : Numeral digits)
      (fits : pico digits multiplier < 2 ^ 64) (fraction : pico digits multiplier % 10 ≠ 0) :
      Refusal text .impreciseAmount

theorem letters_some (m : Multiplier) : letters (some m) = [m.letter] := by
  cases m <;> rfl

theorem length_letters_le (multiplier : Option Multiplier) : (letters multiplier).length ≤ 1 := by
  cases multiplier with
  | none => exact Nat.zero_le 1
  | some m => rw [letters_some, List.length_singleton]

/-! ### Numbers -/

theorem Numeral.isDigit {digits : List Char} (numeral : Numeral digits) :
    ∀ c ∈ digits, c.isDigit = true := by
  rcases numeral with rfl | ⟨_, number, _⟩
  · simp [Char.isDigit]
  · exact number

theorem Numeral.ne_nil {digits : List Char} (numeral : Numeral digits) : digits ≠ [] := by
  rcases numeral with rfl | ⟨nonempty, _, _⟩
  · simp
  · exact nonempty

theorem Numeral.no_leading_zero {digits : List Char} (numeral : Numeral digits) :
    ¬ (1 < digits.length ∧ digits.head? = some '0') := by
  rintro ⟨long, zero⟩
  rcases numeral with rfl | ⟨_, _, nonzero⟩
  · simp at long
  · exact nonzero zero

theorem value_eq_ofDigitChars {digits : List Char} (number : ∀ c ∈ digits, c.isDigit = true) :
    Radix.value 10 (digits.map digitValue) = Nat.ofDigitChars 10 digits 0 := by
  induction digits using List.reverseRecOn with
  | nil => rfl
  | append_singleton digits c ih =>
    have digit := toNat_digitValue (number c (by simp))
    rw [List.map_append, List.map_singleton, Radix.value_concat, digit,
      ih fun d member => number d (List.mem_append_left _ member), Nat.ofDigitChars_append,
      Nat.ofDigitChars_cons, Nat.ofDigitChars_nil, Nat.mul_comm]
    rfl

/-- The unit of an amount as the word that its reader multiplies by. -/
def unitWord (multiplier : Option Multiplier) : UInt64 :=
  multiplier.elim picobitcoinPerBitcoin Multiplier.picobitcoin

theorem toNat_unitWord (multiplier : Option Multiplier) :
    (unitWord multiplier).toNat = unit multiplier := by
  rcases multiplier with _ | m
  · rfl
  · cases m <;> rfl

theorem unit_pos (multiplier : Option Multiplier) : 0 < unit multiplier := by
  rcases multiplier with _ | m
  · decide
  · cases m <;> decide

/-- Reading the digits and multiplying them out stops nowhere but at a product that does not fit. -/
theorem product_eq_some_iff {digits : List Char} {multiplier : Option Multiplier} {p : UInt64}
    (number : ∀ c ∈ digits, c.isDigit = true) :
    (Radix.value? 10 (digits.map digitValue)).bind (Checked.mul? · (unitWord multiplier)) = some p ↔
      pico digits multiplier = p.toNat := by
  have base : (10 : UInt64).toNat = 10 := rfl
  have positive : 0 < (10 : UInt64).toNat := by decide
  rw [Option.bind_eq_some_iff, pico, ← value_eq_ofDigitChars number]
  simp only [Radix.value?_eq_some_iff positive, Checked.mul?_eq_some, toNat_unitWord, base]
  constructor
  · rintro ⟨n, value, product⟩
    rw [value, product]
  · intro product
    have small : Radix.value 10 (digits.map digitValue) ≤
        Radix.value 10 (digits.map digitValue) * unit multiplier :=
      Nat.le_mul_of_pos_right _ (unit_pos multiplier)
    have word : (UInt64.ofNat (Radix.value 10 (digits.map digitValue))).toNat =
        Radix.value 10 (digits.map digitValue) := toNat_ofNat_of_le (small.trans_eq product)
    exact ⟨_, word.symm, by rw [word, product]⟩

/-! ### Digits and a unit -/

section
variable {digits : List Char}

theorem ofDigits_of_no_number (unit : UInt64)
    (noNumber : digits = [] ∨ ∃ c ∈ digits, c.isDigit = false) :
    ofDigits digits unit = .error (.malformed .invalidAmount) := by
  apply if_pos
  rcases noNumber with rfl | ⟨c, member, noDigit⟩
  · rfl
  · rw [Bool.or_eq_true, Bool.not_eq_true', List.all_eq_false]
    exact Or.inr ⟨c, member, by simp [noDigit]⟩

theorem ofDigits_of_leading_zero {rest : List Char} (unit : UInt64)
    (number : ∀ c ∈ rest, c.isDigit = true) (more : rest ≠ []) :
    ofDigits ('0' :: rest) unit = .error (.malformed .leadingZeroAmount) := by
  have long : 1 < ('0' :: rest).length := Nat.succ_lt_succ (List.length_pos_iff.mpr more)
  have all : ('0' :: rest).all Char.isDigit = true := by
    rw [List.all_cons, List.all_eq_true.mpr number]
    rfl
  rw [ofDigits, if_neg (by rw [all]; exact Bool.false_ne_true), if_pos]
  rw [decide_eq_true long]
  rfl

/-- The form of a numeral is never refused. -/
theorem Numeral.accepted (numeral : Numeral digits) :
    ¬ (digits.isEmpty || !digits.all Char.isDigit) = true ∧
      ¬ (decide (1 < digits.length) && digits.head? == some '0') = true := by
  constructor
  · rw [List.all_eq_true.mpr numeral.isDigit, List.isEmpty_eq_false_iff.mpr numeral.ne_nil]
    exact Bool.false_ne_true
  · rw [Bool.and_eq_true, decide_eq_true_eq, beq_iff_eq]
    exact numeral.no_leading_zero

variable {multiplier : Option Multiplier}

theorem ofDigits_of_overflow (numeral : Numeral digits) (large : 2 ^ 64 ≤ pico digits multiplier) :
    ofDigits digits (unitWord multiplier) = .error (.malformed .integerOverflow) := by
  rw [ofDigits, if_neg numeral.accepted.1, if_neg numeral.accepted.2]
  cases product :
      (Radix.value? 10 (digits.map digitValue)).bind (Checked.mul? · (unitWord multiplier)) with
  | none => rfl
  | some p =>
    have bound := p.toNat_lt
    rw [product_eq_some_iff numeral.isDigit] at product
    omega

/-- A product that fits is a whole number of millisatoshis or is refused. -/
theorem ofDigits_of_fits (numeral : Numeral digits) (fits : pico digits multiplier < 2 ^ 64) :
    ofDigits digits (unitWord multiplier) =
      if pico digits multiplier % 10 = 0 then
        .ok (.msat (UInt64.ofNat (pico digits multiplier / 10)))
      else .error (.malformed .impreciseAmount) := by
  have word : (UInt64.ofNat (pico digits multiplier)).toNat = pico digits multiplier :=
    UInt64.toNat_ofNat_of_lt' fits
  have product := (product_eq_some_iff numeral.isDigit).mpr word.symm
  have whole : UInt64.ofNat (pico digits multiplier) % 10 = 0 ↔ pico digits multiplier % 10 = 0 := by
    rw [← UInt64.toNat_inj, UInt64.toNat_mod, word]
    rfl
  have quotient : UInt64.ofNat (pico digits multiplier) / 10 =
      UInt64.ofNat (pico digits multiplier / 10) := by
    have ten : (10 : UInt64).toNat = 10 := rfl
    rw [← UInt64.toNat_inj, UInt64.toNat_div, word, ten,
      UInt64.toNat_ofNat_of_lt' (by show _ < 2 ^ 64; omega)]
  rw [ofDigits, if_neg numeral.accepted.1, if_neg numeral.accepted.2, product]
  simp only [beq_iff_eq, whole, quotient]

end

/-! ### Texts -/

theorem parse_of_parted {text digits : List Char} {multiplier : Option Multiplier}
    (parted : Parted text digits multiplier) :
    parse text = ofDigits digits (unitWord multiplier) := by
  cases parted with
  | whole digit =>
    rw [parse, List.getLast?_concat]
    exact if_pos digit
  | fraction digits m =>
    rw [letters_some, parse, List.getLast?_concat]
    simp only [Multiplier.isDigit_letter, Multiplier.parse_letter, List.dropLast_concat]
    rfl

/-- A numeral and a multiplier are the parts of the text that they make up. -/
theorem Numeral.parted {digits : List Char} (numeral : Numeral digits)
    (multiplier : Option Multiplier) : Parted (digits ++ letters multiplier) digits multiplier := by
  rcases multiplier with _ | m
  · obtain ⟨front, last, rfl⟩ := (List.eq_nil_or_concat digits).resolve_left numeral.ne_nil
    rw [List.concat_eq_append] at numeral ⊢
    have ends : front ++ [last] ++ letters none = front ++ [last] := List.append_nil _
    rw [ends]
    exact .whole (numeral.isDigit last (by simp))
  · exact .fraction digits m

theorem Parted.eq_append {text digits : List Char} {multiplier : Option Multiplier}
    (parted : Parted text digits multiplier) : text = digits ++ letters multiplier := by
  cases parted with
  | whole digit => exact (List.append_nil _).symm
  | fraction digits m => rfl

/-- The ways in which the end of a text can be cut off. -/
theorem cases_of_end (text : List Char) :
    text = [] ∨ (∃ digits multiplier, Parted text digits multiplier) ∨
      ∃ front last, text = front ++ [last] ∧ last.isDigit = false ∧
        last ∉ ['m', 'u', 'n', 'p'] := by
  rcases List.eq_nil_or_concat text with rfl | ⟨front, last, rfl⟩
  · exact Or.inl rfl
  rw [List.concat_eq_append]
  right
  cases digit : last.isDigit with
  | true => exact Or.inl ⟨_, _, .whole digit⟩
  | false =>
    by_cases letter : last ∈ ['m', 'u', 'n', 'p']
    · obtain ⟨m, rfl⟩ := Multiplier.exists_letter_eq letter
      rw [← letters_some]
      exact Or.inl ⟨_, _, .fraction front m⟩
    · exact Or.inr ⟨front, last, rfl, digit, letter⟩

/-- Digits that are no numeral are no number at all, or have a zero in front. -/
theorem cases_of_digits (digits : List Char) :
    Numeral digits ∨ (digits = [] ∨ ∃ c ∈ digits, c.isDigit = false) ∨
      ∃ rest, digits = '0' :: rest ∧ (∀ c ∈ rest, c.isDigit = true) ∧ rest ≠ [] := by
  by_cases number : ∃ c ∈ digits, c.isDigit = false
  · exact Or.inr (Or.inl (Or.inr number))
  have all : ∀ c ∈ digits, c.isDigit = true := by simpa using number
  cases digits with
  | nil => exact Or.inr (Or.inl (Or.inl rfl))
  | cons c rest =>
    by_cases zero : c = '0'
    · subst zero
      by_cases more : rest = []
      · exact Or.inl (Or.inl (by rw [more]))
      · exact Or.inr (Or.inr ⟨rest, rfl, fun d member => all d (List.mem_cons_of_mem _ member), more⟩)
    · exact Or.inl (Or.inr ⟨List.cons_ne_nil _ _, all, by simpa using zero⟩)

theorem parse_of_denotes {text : List Char} {m : UInt64} (denotes : Denotes text m) :
    parse text = .ok (.msat m) := by
  obtain ⟨digits, multiplier, rfl, numeral, fits, whole, amount⟩ := denotes
  rw [parse_of_parted (numeral.parted multiplier), ofDigits_of_fits numeral fits, if_pos whole,
    ← amount, UInt64.ofNat_toNat]

theorem parse_of_refusal {text : List Char} {reason : Malformation} (refusal : Refusal text reason) :
    parse text = .error (.malformed reason) := by
  cases refusal with
  | unknownMultiplier front noDigit noLetter =>
    rw [parse, List.getLast?_concat]
    simp only [noDigit, Multiplier.parse_of_not_mem noLetter]
    rfl
  | invalidAmount parted noNumber =>
    rw [parse_of_parted parted, ofDigits_of_no_number _ noNumber]
  | leadingZero parted number more =>
    rw [parse_of_parted parted, ofDigits_of_leading_zero _ number more]
  | overflow parted numeral large => rw [parse_of_parted parted, ofDigits_of_overflow numeral large]
  | imprecise parted numeral fits fraction =>
    rw [parse_of_parted parted, ofDigits_of_fits numeral fits, if_neg fraction]

/-- What the grammar says of a text. -/
inductive Reading (text : List Char) : Except ParseError Amount → Prop where
  | unspecified (nothing : text = []) : Reading text (.ok .unspecified)
  | msat {m : UInt64} (denotes : Denotes text m) : Reading text (.ok (.msat m))
  | refused {reason : Malformation} (refusal : Refusal text reason) :
      Reading text (.error (.malformed reason))

theorem exists_reading (text : List Char) : ∃ result, Reading text result := by
  rcases cases_of_end text with nothing | ⟨digits, multiplier, parted⟩ |
    ⟨front, last, rfl, noDigit, noLetter⟩
  · exact ⟨_, .unspecified nothing⟩
  · rcases cases_of_digits digits with numeral | noNumber | ⟨rest, rfl, number, more⟩
    · by_cases fits : pico digits multiplier < 2 ^ 64
      · by_cases whole : pico digits multiplier % 10 = 0
        · refine ⟨.ok (.msat (UInt64.ofNat (pico digits multiplier / 10))), .msat ?_⟩
          refine ⟨digits, multiplier, parted.eq_append, numeral, fits, whole, ?_⟩
          exact UInt64.toNat_ofNat_of_lt' (by show _ < 2 ^ 64; omega)
        · exact ⟨_, .refused (.imprecise parted numeral fits whole)⟩
      · exact ⟨_, .refused (.overflow parted numeral (Nat.le_of_not_lt fits))⟩
    · exact ⟨_, .refused (.invalidAmount parted noNumber)⟩
    · exact ⟨_, .refused (.leadingZero parted number more)⟩
  · exact ⟨_, .refused (.unknownMultiplier front noDigit noLetter)⟩

theorem parse_of_reading {text : List Char} {result : Except ParseError Amount}
    (reading : Reading text result) : parse text = result := by
  cases reading with
  | unspecified nothing =>
    rw [nothing]
    rfl
  | msat denotes => exact parse_of_denotes denotes
  | refused refusal => exact parse_of_refusal refusal

theorem parse_eq_iff_reading {text : List Char} {result : Except ParseError Amount} :
    parse text = result ↔ Reading text result := by
  refine ⟨?_, parse_of_reading⟩
  rintro rfl
  obtain ⟨result, reading⟩ := exists_reading text
  rwa [parse_of_reading reading]

/-- What a text is read as, and why it is refused. -/
theorem parse_iff (text : List Char) :
    (parse text = .ok .unspecified ↔ text = []) ∧
      (∀ m, parse text = .ok (.msat m) ↔ Denotes text m) ∧
      ∀ e, parse text = .error e ↔ ∃ reason, e = .malformed reason ∧ Refusal text reason := by
  refine ⟨?_, fun m => ?_, fun e => ?_⟩ <;> rw [parse_eq_iff_reading] <;> constructor
  · intro reading
    cases reading with
    | unspecified nothing => exact nothing
  · exact .unspecified
  · intro reading
    cases reading with
    | msat denotes => exact denotes
  · exact .msat
  · intro reading
    cases reading with
    | refused refusal => exact ⟨_, rfl, refusal⟩
  · rintro ⟨reason, rfl, refusal⟩
    exact .refused refusal

example : parse "18446744".toList = .ok (.msat 1844674400000000000) ∧
    parse "18446745".toList = .error (.malformed .integerOverflow) := by decide

example : parse "1m".toList = .ok (.msat 100000000) ∧
    parse "2500u".toList = .ok (.msat 250000000) ∧ parse "10n".toList = .ok (.msat 1000) ∧
    parse "10p".toList = .ok (.msat 1) ∧
    parse "2500x".toList = .error (.malformed (.unknownMultiplier 'x')) := by decide

end Amount
end LightningInvoice
