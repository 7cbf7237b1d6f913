import LightningInvoice.Proofs.Checksum.Linear
import LightningInvoice.Proofs.Radix

/-!
The checksum of a message is the one suffix of six symbols that makes it valid. Up to six symbols,
read from zero, are left standing side by side in the remainder; so every remainder is reached by
one suffix, and `create` finds it.
-/
namespace LightningInvoice.Checksum

theorem toNat_step {c : Remainder} (small : c.toNat < 32 ^ 5) (s : Symbol) :
    (step c s).toNat = c.toNat * 32 + s.toNat := by
  have symbol := s.isLt
  have quiet : feedback c = 0 := by
    rw [feedback_eq, show lead c = 0 from ?_]
    · decide
    · apply BitVec.eq_of_toNat_eq
      have none : c.toNat / 2 ^ 25 = 0 := Nat.div_eq_of_lt small
      rw [lead, BitVec.extractLsb'_toNat, Nat.shiftRight_eq_div_pow, none]
      rfl
  have shifted : (c <<< 5).toNat = c.toNat * 2 ^ 5 := by
    rw [BitVec.toNat_shiftLeft, Nat.shiftLeft_eq]
    exact Nat.mod_eq_of_lt (by omega)
  rw [step, quiet]
  show (c <<< 5 ^^^ s.setWidth 30 ^^^ 0#30).toNat = _
  rw [BitVec.xor_zero, BitVec.toNat_xor, shifted, BitVec.toNat_setWidth,
    Nat.mod_eq_of_lt (a := s.toNat) (by omega)]
  -- The two parts of the exclusive or lie on either side of bit five.
  conv => rhs; rw [show 32 = 2 ^ 5 from rfl]
  rw [← Nat.div_add_mod (c.toNat * 2 ^ 5 ^^^ s.toNat) (2 ^ 5), Nat.xor_div_two_pow,
    Nat.xor_mod_two_pow, Nat.mul_div_cancel _ (by decide), Nat.mul_mod_left,
    Nat.div_eq_of_lt symbol, Nat.mod_eq_of_lt symbol, Nat.xor_zero, Nat.zero_xor, Nat.mul_comm]

theorem toNat_foldl_step {symbols : List Symbol} (short : symbols.length ≤ 6) :
    (symbols.foldl step 0).toNat = Symbol.number symbols := by
  induction symbols using List.reverseRecOn with
  | nil => rfl
  | append_singleton symbols s ih =>
    rw [List.length_append, List.length_singleton] at short
    have before := ih (by omega)
    have bound : Symbol.number symbols < 32 ^ 5 :=
      Nat.lt_of_lt_of_le (Symbol.number_lt symbols) (Nat.pow_le_pow_right (by decide) (by omega))
    rw [List.foldl_append, List.foldl_cons, List.foldl_nil, toNat_step (by rw [before]; exact bound),
      before, Symbol.number_concat]

theorem coefficients_eq (c : Remainder) : coefficients c = Symbol.ofNumber width c.toNat := by
  have digit : ∀ start n, n % 32 = (c.toNat >>> start) % 32 →
      c.extractLsb' start 5 = BitVec.ofNat 5 (n % 32) := by
    intro start n same
    apply BitVec.eq_of_toNat_eq
    rw [BitVec.extractLsb'_toNat, BitVec.toNat_ofNat, same, Nat.mod_mod_of_dvd _ (by decide)]
  simp only [coefficients, Symbol.ofNumber, width, Radix.digits, List.range_succ_eq_map,
    List.range_zero, List.map_cons, List.map_nil, List.nil_append, List.cons_append]
  simp only [List.cons.injEq, and_true]
  refine ⟨digit 25 _ ?_, digit 20 _ ?_, digit 15 _ ?_, digit 10 _ ?_,
    digit 5 _ (by rw [Nat.shiftRight_eq_div_pow]), digit 0 _ rfl⟩
  all_goals
    rw [Nat.shiftRight_eq_div_pow]
    omega

theorem number_coefficients (c : Remainder) : Symbol.number (coefficients c) = c.toNat := by
  rw [coefficients_eq, Symbol.number_ofNumber]
  exact Nat.mod_eq_of_lt c.isLt

theorem length_coefficients (c : Remainder) : (coefficients c).length = width := by
  rw [coefficients, List.length_map, List.length_range]

theorem length_create (head : List Char) (data : List Symbol) :
    (create head data).length = width := length_coefficients _

theorem zipWith_xor_zeros (suffix : List Symbol) :
    List.zipWith (· ^^^ ·) (List.replicate suffix.length Symbol.least) suffix = suffix := by
  induction suffix with
  | nil => rfl
  | cons s rest ih =>
    rw [List.length_cons, List.replicate_succ, List.zipWith_cons_cons, ih]
    exact congrArg (· :: rest) BitVec.zero_xor

theorem remainder_append {message suffix : List Symbol} (six : suffix.length = width) :
    remainder (message ++ suffix) =
      remainder (message ++ List.replicate width Symbol.least) ^^^ suffix.foldl step 0 := by
  have zeros : (List.replicate suffix.length Symbol.least).length = suffix.length :=
    List.length_replicate
  have sum := foldl_step_xor (message.foldl step 1) 0 zeros
  have start : message.foldl step 1 ^^^ 0 = message.foldl step 1 := BitVec.xor_zero
  rw [zipWith_xor_zeros, start, six] at sum
  rw [remainder, remainder, List.foldl_append, List.foldl_append, sum]

/-- A suffix of six symbols makes a message valid if and only if it is the created one. -/
theorem remainder_append_eq_target_iff {message suffix : List Symbol}
    (six : suffix.length = width) :
    remainder (message ++ suffix) = target ↔
      suffix = coefficients
        (remainder (message ++ List.replicate width Symbol.least) ^^^ target) := by
  have short : suffix.length ≤ 6 := Nat.le_of_eq six
  constructor
  · intro valid
    apply Symbol.number_injective (by rw [six, length_coefficients])
    rw [number_coefficients, ← toNat_foldl_step short, ← valid, remainder_append six,
      ← BitVec.xor_assoc, BitVec.xor_self, BitVec.zero_xor]
  · intro created
    have value : suffix.foldl step 0 =
        remainder (message ++ List.replicate width Symbol.least) ^^^ target := by
      apply BitVec.eq_of_toNat_eq
      rw [toNat_foldl_step short, ← number_coefficients, ← created]
    rw [remainder_append six, value, ← BitVec.xor_assoc, BitVec.xor_self, BitVec.zero_xor]

theorem verify_append_iff {head : List Char} {data suffix : List Symbol}
    (six : suffix.length = width) :
    verify head (data ++ suffix) = true ↔ suffix = create head data := by
  rw [verify, beq_iff_eq, ← List.append_assoc, create]
  exact remainder_append_eq_target_iff six

/-- The checksum of a message has six symbols, and it is the only suffix of six symbols with which
the message is valid. -/
theorem verify_append_iff_eq_create (head : List Char) (data : List Symbol) :
    (create head data).length = 6 ∧ ∀ suffix : List Symbol, suffix.length = 6 →
      (verify head (data ++ suffix) = true ↔ suffix = create head data) := by
  constructor
  · exact length_create head data
  · intro suffix six
    exact verify_append_iff six

/-- A head with a separator and a letter outside ASCII, under its checksum and under one that is
wrong in the last bit. -/
theorem verify_append_sample :
    verify ['l', 'n', 'é', '1'] ([0, 31] ++ [8, 22, 7, 4, 26, 25]) = true ∧
      ¬ verify ['l', 'n', 'é', '1'] ([0, 31] ++ [8, 22, 7, 4, 26, 24]) = true := by
  obtain ⟨_, valid⟩ := verify_append_iff_eq_create ['l', 'n', 'é', '1'] [0, 31]
  constructor
  · rw [valid _ rfl]
    decide +kernel
  · rw [valid _ rfl]
    decide +kernel

end LightningInvoice.Checksum
