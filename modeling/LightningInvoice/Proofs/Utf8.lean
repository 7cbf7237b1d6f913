import LightningInvoice.Text.Utf8

/-!
Reading UTF-8 and writing it undo each other. The characters that bytes are read as are written as
these bytes: within the ranges of `tails?`, the number that a sequence stands for is a character that
needs exactly as many bytes as the sequence has. And what is written is read: the bytes of every
character lie within these ranges.
-/
namespace LightningInvoice.Utf8

/-- There are as many bytes as ranges, and each byte lies in its range. -/
def Meets : List ByteRange → List UInt8 → Prop
  | [], later => later = []
  | r :: ranges, later => ∃ b rest, later = b :: rest ∧ r.contains b = true ∧ Meets ranges rest

theorem meets_of_mismatch {seen : Nat} {ranges : List ByteRange} {bytes : List UInt8}
    (h : mismatch seen ranges bytes = none) : Meets ranges (bytes.take ranges.length) := by
  induction ranges generalizing seen bytes with
  | nil => exact List.take_zero
  | cons r ranges ih =>
    cases bytes with
    | nil => simp [mismatch] at h
    | cons b rest =>
      rw [mismatch] at h
      split at h
      · rename_i inside
        exact ⟨b, rest.take ranges.length, rfl, inside, ih h⟩
      · simp at h

theorem contains_iff {r : ByteRange} {b : UInt8} :
    r.contains b = true ↔ r.least.toNat ≤ b.toNat ∧ b.toNat ≤ r.greatest.toNat := by
  rw [ByteRange.contains, Bool.and_eq_true, decide_eq_true_eq, decide_eq_true_eq,
    UInt8.le_iff_toNat_le, UInt8.le_iff_toNat_le]

theorem toNat_ofNat {v : Nat} (valid : v.isValidChar) : (Char.ofNat v).val.toNat = v := by
  rw [Char.ofNat, dif_pos valid]
  rfl

theorem ofNat_eq {b : UInt8} {v : Nat} (h : v = b.toNat) : UInt8.ofNat v = b := by
  rw [h, UInt8.ofNat_toNat]

/-! ### Sequences of one to four bytes -/

section
variable {a b c d : UInt8}

theorem encodeChar_one (first : a.toNat ≤ 0x7f) :
    String.utf8EncodeChar (Char.ofNat a.toNat) = [a] := by
  have value := toNat_ofNat (v := a.toNat) (Or.inl (by omega))
  simp only [String.utf8EncodeChar, value]
  rw [if_pos first, ofNat_eq rfl]

theorem encodeChar_two (first : 0xc2 ≤ a.toNat ∧ a.toNat ≤ 0xdf)
    (second : 0x80 ≤ b.toNat ∧ b.toNat ≤ 0xbf) :
    String.utf8EncodeChar (Char.ofNat (a.toNat % 32 * 64 + b.toNat % 64)) = [a, b] := by
  have value := toNat_ofNat (v := a.toNat % 32 * 64 + b.toNat % 64) (Or.inl (by omega))
  simp only [String.utf8EncodeChar, value]
  rw [if_neg (by omega), if_pos (by omega), ofNat_eq (b := a) (by omega),
    ofNat_eq (b := b) (by omega)]

theorem encodeChar_three (first : 0xe0 ≤ a.toNat ∧ a.toNat ≤ 0xef)
    (second : 0x80 ≤ b.toNat ∧ b.toNat ≤ 0xbf) (third : 0x80 ≤ c.toNat ∧ c.toNat ≤ 0xbf)
    (long : a.toNat = 0xe0 → 0xa0 ≤ b.toNat) (valid : a.toNat = 0xed → b.toNat ≤ 0x9f) :
    String.utf8EncodeChar
      (Char.ofNat ((a.toNat % 16 * 64 + b.toNat % 64) * 64 + c.toNat % 64)) = [a, b, c] := by
  have value := toNat_ofNat (v := (a.toNat % 16 * 64 + b.toNat % 64) * 64 + c.toNat % 64) (by
    unfold Nat.isValidChar
    omega)
  simp only [String.utf8EncodeChar, value]
  rw [if_neg (by omega), if_neg (by omega), if_pos (by omega), ofNat_eq (b := a) (by omega),
    ofNat_eq (b := b) (by omega), ofNat_eq (b := c) (by omega)]

theorem encodeChar_four (first : 0xf0 ≤ a.toNat ∧ a.toNat ≤ 0xf4)
    (second : 0x80 ≤ b.toNat ∧ b.toNat ≤ 0xbf) (third : 0x80 ≤ c.toNat ∧ c.toNat ≤ 0xbf)
    (fourth : 0x80 ≤ d.toNat ∧ d.toNat ≤ 0xbf) (long : a.toNat = 0xf0 → 0x90 ≤ b.toNat)
    (valid : a.toNat = 0xf4 → b.toNat ≤ 0x8f) :
    String.utf8EncodeChar (Char.ofNat
      (((a.toNat % 8 * 64 + b.toNat % 64) * 64 + c.toNat % 64) * 64 + d.toNat % 64)) =
        [a, b, c, d] := by
  have value := toNat_ofNat
    (v := ((a.toNat % 8 * 64 + b.toNat % 64) * 64 + c.toNat % 64) * 64 + d.toNat % 64) (by
      unfold Nat.isValidChar
      omega)
  simp only [String.utf8EncodeChar, value]
  rw [if_neg (by omega), if_neg (by omega), if_neg (by omega), ofNat_eq (b := a) (by omega),
    ofNat_eq (b := b) (by omega), ofNat_eq (b := c) (by omega), ofNat_eq (b := d) (by omega)]

end

/-! ### The character of a sequence -/

/-- A first byte and the ranges of the bytes behind it, by their number. -/
inductive Opens (first : UInt8) : List ByteRange → Prop where
  | one (low : first.toNat ≤ 0x7f) : Opens first []
  | two (bounds : 0xc2 ≤ first.toNat ∧ first.toNat ≤ 0xdf) : Opens first [continuation]
  | three {second : ByteRange} (bounds : 0xe0 ≤ first.toNat ∧ first.toNat ≤ 0xef)
      (within : 0x80 ≤ second.least.toNat ∧ second.greatest.toNat ≤ 0xbf)
      (long : first.toNat = 0xe0 → 0xa0 ≤ second.least.toNat)
      (valid : first.toNat = 0xed → second.greatest.toNat ≤ 0x9f) :
      Opens first [second, continuation]
  | four {second : ByteRange} (bounds : 0xf0 ≤ first.toNat ∧ first.toNat ≤ 0xf4)
      (within : 0x80 ≤ second.least.toNat ∧ second.greatest.toNat ≤ 0xbf)
      (long : first.toNat = 0xf0 → 0x90 ≤ second.least.toNat)
      (valid : first.toNat = 0xf4 → second.greatest.toNat ≤ 0x8f) :
      Opens first [second, continuation, continuation]

theorem opens_of_tails? {first : UInt8} {ranges : List ByteRange}
    (known : tails? first = some ranges) : Opens first ranges := by
  have least : continuation.least.toNat = 0x80 := rfl
  have greatest : continuation.greatest.toNat = 0xbf := rfl
  unfold tails? at known
  simp only [UInt8.le_iff_toNat_le, UInt8.lt_iff_toNat_lt, ← UInt8.toNat_inj,
    UInt8.reduceToNat] at known
  repeat' split at known
  -- The first bytes that open no sequence are gone with `cases`; eight kinds remain.
  all_goals cases known
  · exact .one ‹_›
  · exact .two (by omega)
  · exact .three (by omega) (by decide) (fun _ => by decide) (by omega)
  · exact .three (by omega) (by decide) (by omega) (fun _ => by decide)
  · exact .three (by omega) (by omega) (by omega) (by omega)
  · exact .four (by omega) (by decide) (fun _ => by decide) (by omega)
  · exact .four (by omega) (by omega) (by omega) (by omega)
  · exact .four (by omega) (by decide) (by omega) (fun _ => by decide)

theorem encodeChar_scalar {first : UInt8} {ranges : List ByteRange} {later : List UInt8}
    (opens : Opens first ranges) (meets : Meets ranges later) :
    String.utf8EncodeChar (Char.ofNat (scalar first later)) = first :: later := by
  cases opens with
  | one low =>
    obtain rfl : later = [] := meets
    exact encodeChar_one low
  | two bounds =>
    obtain ⟨b, rest, rfl, second, nothing⟩ := meets
    obtain rfl : rest = [] := nothing
    exact encodeChar_two bounds (contains_iff.mp second)
  | three bounds within long valid =>
    obtain ⟨b, rest, rfl, second, c, rest, rfl, third, nothing⟩ := meets
    obtain rfl : rest = [] := nothing
    have inside := contains_iff.mp second
    exact encodeChar_three bounds (by omega) (contains_iff.mp third) (by omega) (by omega)
  | four bounds within long valid =>
    obtain ⟨b, rest, rfl, second, c, rest, rfl, third, d, rest, rfl, fourth, nothing⟩ := meets
    obtain rfl : rest = [] := nothing
    have inside := contains_iff.mp second
    exact encodeChar_four bounds (by omega) (contains_iff.mp third) (contains_iff.mp fourth)
      (by omega) (by omega)

theorem encode_of_decodeFrom {index : Nat} {bytes : List UInt8} {text : List Char}
    (h : decodeFrom index bytes = .ok text) : encode text = bytes := by
  fun_induction decodeFrom index bytes generalizing text with
  | case1 =>
    obtain rfl := Except.ok.inj h
    rfl
  | case2 => simp at h
  | case3 => simp at h
  | case4 index first rest ranges known met more read ih =>
    obtain rfl := Except.ok.inj h
    have char := encodeChar_scalar (opens_of_tails? known) (meets_of_mismatch met)
    show String.utf8EncodeChar _ ++ encode more = _
    rw [char, ih read, List.cons_append, List.take_append_drop]
  | case5 => simp at h

theorem encode_of_decode {bytes : List UInt8} {text : List Char} (h : decode bytes = .ok text) :
    encode text = bytes := encode_of_decodeFrom h

/-! ### The bytes of a character -/

theorem tails?_one {first : UInt8} (low : first.toNat ≤ 0x7f) : tails? first = some [] :=
  if_pos (UInt8.le_iff_toNat_le.mpr low)

theorem tails?_two {first : UInt8} (bounds : 0xc2 ≤ first.toNat ∧ first.toNat ≤ 0xdf) :
    tails? first = some [continuation] := by
  unfold tails?
  simp only [UInt8.le_iff_toNat_le, UInt8.lt_iff_toNat_lt, UInt8.reduceToNat]
  rw [if_neg (by omega), if_neg (by omega), if_pos (by omega)]

theorem tails?_three (first second : UInt8) (bounds : 0xe0 ≤ first.toNat ∧ first.toNat ≤ 0xef)
    (within : 0x80 ≤ second.toNat ∧ second.toNat ≤ 0xbf)
    (long : first.toNat = 0xe0 → 0xa0 ≤ second.toNat)
    (valid : first.toNat = 0xed → second.toNat ≤ 0x9f) :
    ∃ range, tails? first = some [range, continuation] ∧ range.contains second = true := by
  unfold tails?
  simp only [UInt8.le_iff_toNat_le, UInt8.lt_iff_toNat_lt, ← UInt8.toNat_inj, UInt8.reduceToNat]
  rw [if_neg (by omega), if_neg (by omega), if_neg (by omega)]
  split
  · rename_i least
    exact ⟨_, rfl, contains_iff.mpr ⟨long least, within.2⟩⟩
  split
  · rename_i surrogates
    exact ⟨_, rfl, contains_iff.mpr ⟨within.1, valid surrogates⟩⟩
  · rw [if_pos bounds.2]
    exact ⟨_, rfl, contains_iff.mpr within⟩

theorem tails?_four (first second : UInt8) (bounds : 0xf0 ≤ first.toNat ∧ first.toNat ≤ 0xf4)
    (within : 0x80 ≤ second.toNat ∧ second.toNat ≤ 0xbf)
    (long : first.toNat = 0xf0 → 0x90 ≤ second.toNat)
    (valid : first.toNat = 0xf4 → second.toNat ≤ 0x8f) :
    ∃ range, tails? first = some [range, continuation, continuation] ∧
      range.contains second = true := by
  unfold tails?
  simp only [UInt8.le_iff_toNat_le, UInt8.lt_iff_toNat_lt, ← UInt8.toNat_inj, UInt8.reduceToNat]
  rw [if_neg (by omega), if_neg (by omega), if_neg (by omega), if_neg (by omega), if_neg (by omega),
    if_neg (by omega)]
  split
  · rename_i least
    exact ⟨_, rfl, contains_iff.mpr ⟨long least, within.2⟩⟩
  split
  · exact ⟨_, rfl, contains_iff.mpr within⟩
  · rw [if_pos (by omega)]
    exact ⟨_, rfl, contains_iff.mpr ⟨within.1, valid (by omega)⟩⟩

theorem contains_continuation (v : Nat) :
    continuation.contains (UInt8.ofNat (v % 0x40 + 0x80)) = true := by
  have byte : (UInt8.ofNat (v % 0x40 + 0x80)).toNat = v % 0x40 + 0x80 :=
    UInt8.toNat_ofNat_of_lt' (by show _ < 256; omega)
  have least : continuation.least.toNat = 0x80 := rfl
  have greatest : continuation.greatest.toNat = 0xbf := rfl
  exact contains_iff.mpr (by omega)

/-- The bytes of a character lie in the ranges that the first of them opens. -/
theorem exists_ranges_of_encodeChar (c : Char) :
    ∃ first later ranges, String.utf8EncodeChar c = first :: later ∧
      tails? first = some ranges ∧ Meets ranges later := by
  have valid : c.val.toNat.isValidChar := c.valid
  unfold Nat.isValidChar at valid
  have byte (n : Nat) (small : n < 256) : (UInt8.ofNat n).toNat = n :=
    UInt8.toNat_ofNat_of_lt' small
  fun_cases String.utf8EncodeChar c with
  | case1 v one =>
    have first := byte v (by omega)
    exact ⟨_, _, _, rfl, tails?_one (by omega), rfl⟩
  | case2 v more two =>
    have first := byte (v / 64 % 0x20 + 0xc0) (by omega)
    exact ⟨_, _, _, rfl, tails?_two (by omega), _, _, rfl, contains_continuation _, rfl⟩
  | case3 v more most three =>
    have first := byte (v / 4096 % 0x10 + 0xe0) (by omega)
    have second := byte (v / 64 % 0x40 + 0x80) (by omega)
    obtain ⟨range, known, inside⟩ := tails?_three (UInt8.ofNat (v / 4096 % 0x10 + 0xe0))
      (UInt8.ofNat (v / 64 % 0x40 + 0x80)) (by omega) (by omega) (by omega) (by omega)
    exact ⟨_, _, _, rfl, known, _, _, rfl, inside, _, _, rfl, contains_continuation _, rfl⟩
  | case4 v more most three =>
    have first := byte (v / 262144 % 0x08 + 0xf0) (by omega)
    have second := byte (v / 4096 % 0x40 + 0x80) (by omega)
    obtain ⟨range, known, inside⟩ := tails?_four (UInt8.ofNat (v / 262144 % 0x08 + 0xf0))
      (UInt8.ofNat (v / 4096 % 0x40 + 0x80)) (by omega) (by omega) (by omega) (by omega)
    exact ⟨_, _, _, rfl, known, _, _, rfl, inside, _, _, rfl, contains_continuation _, _, _, rfl,
      contains_continuation _, rfl⟩

theorem encodeChar_injective {c d : Char} (h : String.utf8EncodeChar c = String.utf8EncodeChar d) :
    c = d := by
  have read (c : Char) :=
    ByteArray.utf8DecodeChar?_utf8EncodeChar_append (b := ByteArray.empty) (c := c)
  exact Option.some.inj ((read c).symm.trans (h ▸ read d))

/-! ### Reading back what was written -/

theorem length_of_meets {ranges : List ByteRange} {later : List UInt8} (meets : Meets ranges later) :
    later.length = ranges.length := by
  induction ranges generalizing later with
  | nil => exact congrArg List.length meets
  | cons r ranges ih =>
    obtain ⟨b, more, rfl, _, meets⟩ := meets
    rw [List.length_cons, List.length_cons, ih meets]

theorem mismatch_of_meets {ranges : List ByteRange} {later : List UInt8}
    (meets : Meets ranges later) (seen : Nat) (rest : List UInt8) :
    mismatch seen ranges (later ++ rest) = none := by
  induction ranges generalizing later seen with
  | nil => rfl
  | cons r ranges ih =>
    obtain ⟨b, more, rfl, inside, meets⟩ := meets
    rw [List.cons_append, mismatch, if_pos inside]
    exact ih meets (seen + 1)

theorem decodeFrom_encode (index : Nat) (text : List Char) :
    decodeFrom index (encode text) = .ok text := by
  induction text generalizing index with
  | nil =>
    rw [encode, List.flatMap_nil, decodeFrom]
  | cons c text ih =>
    obtain ⟨first, later, ranges, code, known, meets⟩ := exists_ranges_of_encodeChar c
    have same : Char.ofNat (scalar first later) = c :=
      encodeChar_injective ((encodeChar_scalar (opens_of_tails? known) meets).trans code.symm)
    have bytes : encode (c :: text) = first :: (later ++ encode text) := by
      rw [encode, List.flatMap_cons, code]
      rfl
    rw [bytes, decodeFrom]
    simp only [known, mismatch_of_meets meets]
    rw [← length_of_meets meets, List.drop_left, List.take_left, ih, same]

/-- Bytes that characters are written as. -/
def WellFormed (bytes : List UInt8) : Prop := ∃ text, encode text = bytes

theorem decode_encode (text : List Char) : decode (encode text) = .ok text :=
  decodeFrom_encode 0 text

theorem wellFormed_iff {bytes : List UInt8} : WellFormed bytes ↔ ∃ text, decode bytes = .ok text := by
  constructor
  · rintro ⟨text, rfl⟩
    exact ⟨text, decode_encode text⟩
  · rintro ⟨text, read⟩
    exact ⟨text, encode_of_decode read⟩

theorem not_wellFormed_iff {bytes : List UInt8} :
    ¬ WellFormed bytes ↔ ∃ fault, decode bytes = .error fault := by
  rw [wellFormed_iff]
  cases decode bytes <;> simp

end LightningInvoice.Utf8
