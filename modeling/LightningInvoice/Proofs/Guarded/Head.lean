import LightningInvoice.Proofs.Guarded.Access
import LightningInvoice.Proofs.Request.Head

/-! The head of a request, cut at the positions of its letters, its digits and its multiplier. All of
them lie between two characters, whatever characters there are. -/
namespace LightningInvoice.Guarded

def isDigit (b : UInt8) : Bool := 48 ≤ b && b ≤ 57

theorem isDigit_eq_true_iff {b : UInt8} : isDigit b = true ↔ 48 ≤ b.toNat ∧ b.toNat ≤ 57 := by
  rw [isDigit, Bool.and_eq_true, decide_eq_true_eq, decide_eq_true_eq, UInt8.le_iff_toNat_le,
    UInt8.le_iff_toNat_le]
  rfl

theorem exists_lead_of_not_ascii {c : Char} (wide : 127 < c.toNat) :
    ∃ lead rest, String.utf8EncodeChar c = lead :: rest ∧ 128 ≤ lead.toNat := by
  have : c.val.toNat = c.toNat := rfl
  fun_cases String.utf8EncodeChar c
  · omega
  all_goals
    refine ⟨_, _, rfl, ?_⟩
    rw [UInt8.toNat_ofNat']
    omega

theorem all_isDigit_utf8EncodeChar (c : Char) :
    (String.utf8EncodeChar c).all isDigit = c.isDigit := by
  by_cases ascii : c.toNat ≤ 127
  · rw [show String.utf8EncodeChar c = [UInt8.ofNat c.toNat] from if_pos ascii, List.all_cons,
      List.all_nil, Bool.and_true, Bool.eq_iff_iff, isDigit_eq_true_iff, Char.isDigit_iff_toNat,
      UInt8.toNat_ofNat_of_lt' (by show c.toNat < 256; omega)]
    rfl
  · obtain ⟨lead, rest, code, high⟩ := exists_lead_of_not_ascii (Nat.lt_of_not_le ascii)
    have notLead : isDigit lead = false := by
      rw [Bool.eq_false_iff, Ne, isDigit_eq_true_iff]
      omega
    have not : c.isDigit = false := by
      rw [Bool.eq_false_iff]
      intro digit
      have := toNat_of_isDigit digit
      omega
    rw [code, List.all_cons, notLead, not, Bool.false_and]

theorem all_isDigit_encode (text : List Char) :
    (Utf8.encode text).all isDigit = text.all Char.isDigit := by
  rw [Utf8.encode, List.all_flatMap]
  simp only [all_isDigit_utf8EncodeChar]

theorem subByte?_of_isDigit {digits : List Char} (h : digits.all Char.isDigit = true) :
    (Utf8.encode digits).mapM (subByte? · 48) = some (digits.map Amount.digitValue) := by
  rw [encode_of_isAscii (isAscii_of_plain (plain_of_isDigit_all h)), List.mapM_map]
  apply mapM_eq_some
  intro c member
  obtain ⟨low, high⟩ := toNat_of_isDigit (List.all_eq_true.mp h c member)
  have byte : c.toNat.toUInt8.toNat = c.toNat :=
    UInt8.toNat_ofNat_of_lt' (by show c.toNat < 256; omega)
  have enough : (48 : UInt8) ≤ c.toNat.toUInt8 := by
    rw [UInt8.le_iff_toNat_le, byte]
    exact low
  have difference : c.toNat.toUInt8 - 48 = Amount.digitValue c := by
    rw [← UInt8.toNat_inj, UInt8.toNat_sub_of_le _ _ enough, byte,
      toNat_digitValue (List.all_eq_true.mp h c member)]
    rfl
  exact (if_pos enough).trans (congrArg some difference)

/-- The amount of `digits` units of `unit` picobitcoin each, read off the bytes of the digits. -/
def ofDigits (digits : List Char) (unit : UInt64) : Option (Except ParseError Amount) :=
  let bytes := Utf8.encode digits
  if bytes.isEmpty || !bytes.all isDigit then some (.error (.malformed .invalidAmount))
  else if 1 < bytes.length && digits.head? == some '0' then
    some (.error (.malformed .leadingZeroAmount))
  else do
    let values ← bytes.mapM (subByte? · 48)
    match (Radix.value? 10 values).bind (Checked.mul? · unit) with
    | none => return .error (.malformed .integerOverflow)
    | some pico =>
      if pico % 10 == 0 then return .ok (.msat (pico / 10))
      else return .error (.malformed .impreciseAmount)

theorem ofDigits_eq (digits : List Char) (unit : UInt64) :
    ofDigits digits unit = some (Amount.ofDigits digits unit) := by
  unfold ofDigits Amount.ofDigits
  have empty : (Utf8.encode digits).isEmpty = digits.isEmpty := by
    cases digits with
    | nil => rfl
    | cons c rest =>
      have := length_encode_cons c rest
      have := c.utf8Size_pos
      exact List.isEmpty_eq_false_iff.mpr (List.ne_nil_of_length_pos (by omega))
  simp only [empty, all_isDigit_encode]
  by_cases number : (digits.isEmpty || !digits.all Char.isDigit) = true
  · rw [if_pos number, if_pos number]
  · have all : digits.all Char.isDigit = true := by simp_all
    have length : (Utf8.encode digits).length = digits.length := by
      rw [encode_of_isAscii (isAscii_of_plain (plain_of_isDigit_all all)), List.length_map]
    rw [if_neg number, if_neg number, length, subByte?_of_isDigit all]
    by_cases zero : (decide (1 < digits.length) && digits.head? == some '0') = true
    · rw [if_pos zero, if_pos zero]
    · rw [if_neg zero, if_neg zero, Option.bind_eq_bind, Option.bind_some]
      cases (Radix.value? 10 (digits.map Amount.digitValue)).bind (Checked.mul? · unit) with
      | none => rfl
      | some pico => exact (apply_ite some _ _ _).symm

def amount (text : List Char) : Option (Except ParseError Amount) :=
  match (positions 0 text).getLast? with
  | none => some (.ok .unspecified)
  | some (position, last) =>
    if last.isDigit then ofDigits text Amount.picobitcoinPerBitcoin
    else do
      let (_, letter) ← cut? position text
      match Multiplier.parse letter with
      | .error e => return .error e
      | .ok m =>
        let (digits, _) ← cut? position text
        ofDigits digits m.picobitcoin

theorem amount_eq (text : List Char) : amount text = some (Amount.parse text) := by
  obtain rfl | ⟨front, last, rfl⟩ := List.eq_nil_or_concat text
  · rfl
  · rw [List.concat_eq_append]
    unfold amount Amount.parse
    rw [getLast?_positions, List.getLast?_concat]
    show (if _ then _ else _) = some (if _ then _ else _)
    by_cases digit : last.isDigit = true
    · rw [if_pos digit, if_pos digit, ofDigits_eq]
    · rw [if_neg digit, if_neg digit, cut?_append, Option.bind_eq_bind, Option.bind_some]
      dsimp only
      cases Multiplier.parse [last] with
      | error e => rfl
      | ok m =>
        show ofDigits front m.picobitcoin = _
        rw [ofDigits_eq, List.dropLast_concat]

def human (head : List Char) : Option (Except ParseError HumanReadable) :=
  match Network.opening? head with
  | none => some (.error (.malformed .unknownNetwork))
  | some network => do
    let (_, rest) ← cut? (Utf8.encode network.lead).length head
    return (← amount rest).map fun amount => ⟨network, amount⟩

theorem human_eq (head : List Char) : human head = some (HumanReadable.parse head) := by
  unfold human HumanReadable.parse
  cases opening : Network.opening? head with
  | none => rfl
  | some network =>
    obtain ⟨rest, rfl⟩ := Network.exists_eq_append_of_opening? opening
    simp only [cut?_append, Option.bind_eq_bind, Option.bind_some, List.drop_left, amount_eq]
    cases Amount.parse rest <;> rfl

end LightningInvoice.Guarded
