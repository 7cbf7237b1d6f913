import LightningInvoice.Proofs.HumanReadable
import LightningInvoice.Proofs.Request.Characters

/-! The heads that are read are in ASCII and in lower case: they are letters of a network, decimal
digits, and at most one multiplier. They are short, since a long number does not fit in 64 bits. -/
namespace LightningInvoice

/-- Whether a character is in ASCII and not a capital letter. -/
def plain (c : Char) : Bool := c.toNat < 128 && c.toLower == c

theorem plain_of_isDigit {c : Char} (h : c.isDigit = true) : plain c = true := by
  obtain ⟨_, high⟩ := toNat_of_isDigit h
  have same : c.toLower = c := by
    apply toLower_of_not_upper
    intro upper
    have low : 65 ≤ c.toNat := UInt32.le_iff_toNat_le.mp upper.1
    omega
  rw [plain, same, beq_self_eq_true, Bool.and_true, decide_eq_true_eq]
  omega

theorem plain_lead (n : Network) : n.lead.all plain = true := by
  cases n <;> decide

theorem plain_letter (m : Multiplier) : plain m.letter = true := by
  cases m <;> decide

theorem plain_of_isDigit_all {digits : List Char} (h : digits.all Char.isDigit = true) :
    digits.all plain = true := by
  rw [List.all_eq_true] at h ⊢
  exact fun c member => plain_of_isDigit (h c member)

theorem plain_of_amount {text : List Char} {amount : Amount} (h : Amount.parse text = .ok amount) :
    text.all plain = true := by
  cases Amount.parse_eq_iff_reading.mp h with
  | unspecified nothing => rw [nothing, List.all_nil]
  | msat denotes =>
    obtain ⟨digits, multiplier, rfl, numeral, _⟩ := denotes
    rw [List.all_append, plain_of_isDigit_all (List.all_eq_true.mpr numeral.isDigit)]
    cases multiplier with
    | none => rfl
    | some m =>
      rw [Amount.letters_some, List.all_cons, plain_letter]
      rfl

theorem plain_of_parse {head : List Char} {human : HumanReadable}
    (h : HumanReadable.parse head = .ok human) : head.all plain = true := by
  obtain ⟨text, rfl, read⟩ := HumanReadable.exists_amount_of_parse h
  rw [List.all_append, plain_lead, plain_of_amount read]
  rfl

theorem isAscii_of_plain {text : List Char} (h : text.all plain = true) :
    Envelope.isAscii text = true := by
  rw [Envelope.isAscii, List.all_eq_true] at *
  intro c member
  exact (Bool.and_eq_true _ _ ▸ h c member).1

theorem map_toLower_of_plain {text : List Char} (h : text.all plain = true) :
    text.map Char.toLower = text := by
  rw [List.all_eq_true] at h
  refine (List.map_congr_left fun c member => ?_).trans (List.map_id text)
  have both := h c member
  rw [plain, Bool.and_eq_true, beq_iff_eq] at both
  exact both.2

/-- A numeral of more digits stands for a number that does not fit in 64 bits. -/
theorem length_of_numeral {digits : List Char} (numeral : Amount.Numeral digits)
    (fits : Nat.ofDigitChars 10 digits 0 < 2 ^ 64) : digits.length ≤ 20 := by
  have number := numeral.isDigit
  rcases numeral with rfl | ⟨nonempty, _, leading⟩
  · decide
  by_contra long
  obtain ⟨c, rest, rfl⟩ := List.exists_cons_of_ne_nil nonempty
  rw [List.length_cons] at long
  have digit := number c List.mem_cons_self
  have first : Amount.digitValue c ≠ 0 := by
    intro zero
    have value := toNat_digitValue digit
    obtain ⟨low, _⟩ := toNat_of_isDigit digit
    rw [zero, UInt8.toNat_zero] at value
    have isZero : c = '0' := Char.toNat_inj.mp (by show c.toNat = 48; omega)
    exact leading (by rw [isZero, List.head?_cons])
  have least : 10 ^ _ ≤ Radix.value 10 _ := Radix.pow_le_value first (rest.map Amount.digitValue)
  rw [List.length_map, ← List.map_cons, Amount.value_eq_ofDigitChars number] at least
  have huge : 10 ^ 20 ≤ 10 ^ rest.length := Nat.pow_le_pow_right (by decide) (by omega)
  omega

theorem length_of_amount {text : List Char} {amount : Amount} (h : Amount.parse text = .ok amount) :
    text.length ≤ 21 := by
  cases Amount.parse_eq_iff_reading.mp h with
  | unspecified nothing =>
    rw [nothing]
    exact Nat.zero_le _
  | msat denotes =>
    obtain ⟨digits, multiplier, rfl, numeral, fits, _⟩ := denotes
    have few := length_of_numeral numeral
      (Nat.lt_of_le_of_lt (Nat.le_mul_of_pos_right _ (Amount.unit_pos multiplier)) fits)
    have letter := Amount.length_letters_le multiplier
    rw [List.length_append]
    omega

theorem length_lead_le (n : Network) : n.lead.length ≤ 6 := by
  cases n <;> decide

/-- A head that is read is short: six letters, twenty digits and a multiplier at most. -/
theorem length_of_parse {head : List Char} {human : HumanReadable}
    (h : HumanReadable.parse head = .ok human) : head.length ≤ 27 := by
  obtain ⟨text, rfl, read⟩ := HumanReadable.exists_amount_of_parse h
  have letters := length_lead_le human.network
  have rest := length_of_amount read
  rw [List.length_append]
  omega

theorem encode_of_isAscii {text : List Char} (ascii : Envelope.isAscii text = true) :
    Utf8.encode text = text.map fun c => c.toNat.toUInt8 := by
  rw [Envelope.isAscii, List.all_eq_true] at ascii
  induction text with
  | nil => rfl
  | cons c rest ih =>
    have one := ascii c List.mem_cons_self
    have code : String.utf8EncodeChar c = [c.toNat.toUInt8] := by
      rw [decide_eq_true_eq] at one
      exact if_pos (Nat.le_of_lt_succ one)
    rw [Utf8.encode, List.flatMap_cons, code, ← Utf8.encode,
      ih fun d member => ascii d (List.mem_cons_of_mem _ member)]
    rfl

end LightningInvoice
