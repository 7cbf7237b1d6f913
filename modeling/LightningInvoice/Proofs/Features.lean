import LightningInvoice.Features

/-! Feature bits as bits of bytes: the bytes made from a list of bits have these bits, and bytes of
one length are told apart by their bits. Features without a zero byte at the end need no common
length for that: their last byte has a bit, so the bits that are set determine them. -/
namespace LightningInvoice.Features

/-- Bit `n` of bytes whose lowest eight bits come first. -/
def bitAt (flags : List UInt8) (n : Nat) : Bool :=
  flags[n / 8]?.any fun b => b.toBitVec.getLsbD (n % 8)

theorem eq_of_bitAt {a b : List UInt8} (length : a.length = b.length)
    (bits : ∀ n, bitAt a n = bitAt b n) : a = b := by
  apply List.ext_getElem length
  intro i inA inB
  apply UInt8.toBitVec_inj.mp
  apply BitVec.eq_of_getLsbD_eq
  intro j low
  have same := bits (i * 8 + j)
  unfold bitAt at same
  rwa [show (i * 8 + j) / 8 = i by omega, show (i * 8 + j) % 8 = j by omega,
    List.getElem?_eq_getElem inA, List.getElem?_eq_getElem inB] at same

theorem testBit_foldr (bits : List Bool) (n : Nat) :
    (bits.foldr (fun b : Bool => fun n => b.toNat + 2 * n) 0).testBit n = bits.getD n false := by
  induction bits generalizing n with
  | nil => simp
  | cons b rest ih =>
    rw [List.foldr_cons]
    cases n with
    | zero => cases b <;> simp [Nat.testBit_zero]
    | succ n =>
      have := b.toNat_le
      rw [Nat.testBit_succ, List.getD_cons_succ, ← ih]
      congr 1
      omega

theorem getLsbD_byte {bits : List Bool} (n : Nat) (low : n < 8) :
    (byte bits).toBitVec.getLsbD n = bits.getD n false := by
  have word : ∀ v : Nat, (UInt8.ofNat v).toBitVec.getLsbD n = v.testBit n := by
    intro v
    rw [UInt8.toBitVec_ofNat', BitVec.getLsbD_ofNat, decide_eq_true low, Bool.true_and]
  rw [byte, word, testBit_foldr]

theorem length_bytesOfBits (bits : List Bool) :
    (bytesOfBits bits).length = (bits.length + 7) / 8 := by
  fun_induction bytesOfBits bits with
  | case1 => rfl
  | case2 bits nonempty ih =>
    have := List.length_pos_iff.mpr nonempty
    rw [List.length_cons, ih, List.length_drop]
    omega

theorem bitAt_cons (b : UInt8) (rest : List UInt8) (n : Nat) :
    bitAt (b :: rest) n = if n < 8 then b.toBitVec.getLsbD n else bitAt rest (n - 8) := by
  unfold bitAt
  split
  · rename_i first
    rw [Nat.div_eq_of_lt first, Nat.mod_eq_of_lt first]
    rfl
  · rw [show n / 8 = (n - 8) / 8 + 1 by omega, show n % 8 = (n - 8) % 8 by omega]
    rfl

theorem bitAt_bytesOfBits (bits : List Bool) (n : Nat) :
    bitAt (bytesOfBits bits) n = bits.getD n false := by
  fun_induction bytesOfBits bits generalizing n with
  | case1 => rfl
  | case2 bits nonempty ih =>
    rw [bitAt_cons]
    split
    · rename_i first
      rw [getLsbD_byte n first, List.getD_eq_getElem?_getD, List.getElem?_take_of_lt first,
        ← List.getD_eq_getElem?_getD]
    · rw [ih, List.getD_eq_getElem?_getD, List.getElem?_drop, show 8 + (n - 8) = n by omega,
        ← List.getD_eq_getElem?_getD]

theorem bitAt_replicate (count n : Nat) : bitAt (List.replicate count 0) n = false := by
  unfold bitAt
  rw [List.getElem?_replicate]
  split <;> simp

theorem length_bitsFromEnd (symbols : List Symbol) :
    (bitsFromEnd symbols).length = symbols.length * 5 := by
  simp only [bitsFromEnd, List.length_flatMap, List.length_map, List.length_range,
    List.map_const', List.sum_replicate_nat, List.length_reverse]

/-- Zero bytes at the end hold no bit. -/
theorem bitAt_trim (bytes : List UInt8) (n : Nat) : bitAt (trim bytes) n = bitAt bytes n := by
  induction bytes generalizing n with
  | nil => rfl
  | cons b rest ih =>
    rw [trim, bitAt_cons, ← ih]
    split
    · rename_i nothing
      rw [nothing]
      split
      · rename_i zero
        rw [zero]
        split <;> simp [bitAt]
      · exact bitAt_cons b [] n
    · rename_i c more kept
      rw [kept]
      exact bitAt_cons b (c :: more) n

theorem isSet_ofSymbols (symbols : List Symbol) (n : Nat) :
    (ofSymbols symbols).isSet n = (bitsFromEnd symbols).getD n false :=
  (bitAt_trim _ n).trans (bitAt_bytesOfBits _ n)

theorem exists_getLsbD_of_ne_zero {b : UInt8} (nonzero : b ≠ 0) :
    ∃ i < 8, b.toBitVec.getLsbD i = true := by
  apply Classical.byContradiction
  intro none
  apply nonzero
  apply UInt8.toBitVec_inj.mp
  apply BitVec.eq_of_getLsbD_eq
  intro i low
  cases bit : b.toBitVec.getLsbD i with
  | false => simp
  | true => exact absurd ⟨i, low, bit⟩ none

theorem lt_of_isSet {f : Features} {n : Nat} (set : f.isSet n = true) :
    n < f.flags.length * 8 := by
  apply Nat.lt_of_not_le
  intro beyond
  unfold isSet at set
  rw [List.getElem?_eq_none (by omega)] at set
  simp at set

theorem mem_setBits {f : Features} {n : Nat} : n ∈ f.setBits ↔ f.isSet n = true := by
  rw [setBits, List.mem_filter, List.mem_range]
  exact and_iff_right_of_imp lt_of_isSet

theorem pairwise_setBits (f : Features) : f.setBits.Pairwise (· < ·) :=
  List.pairwise_lt_range.filter f.isSet

theorem length_flags_le {f g : Features} (bits : ∀ n, f.isSet n = true → g.isSet n = true) :
    f.flags.length ≤ g.flags.length := by
  cases last : f.flags.getLast? with
  | none => simp [List.getLast?_eq_none_iff.mp last]
  | some b =>
    have nonzero : b ≠ 0 := by
      rintro rfl
      exact f.trimmed last
    obtain ⟨i, low, bit⟩ := exists_getLsbD_of_ne_zero nonzero
    have set : f.isSet ((f.flags.length - 1) * 8 + i) = true := by
      rw [List.getLast?_eq_getElem?] at last
      unfold isSet
      rw [show ((f.flags.length - 1) * 8 + i) / 8 = f.flags.length - 1 by omega,
        show ((f.flags.length - 1) * 8 + i) % 8 = i by omega, last]
      exact bit
    have inside := lt_of_isSet (bits _ set)
    omega

theorem eq_of_isSet {f g : Features} (bits : ∀ n, f.isSet n = g.isSet n) : f = g := by
  have lengths : f.flags.length = g.flags.length :=
    Nat.le_antisymm (length_flags_le fun n set => (bits n).symm.trans set)
      (length_flags_le fun n set => (bits n).trans set)
  have flags : f.flags = g.flags := eq_of_bitAt lengths bits
  cases f
  cases g
  simpa using flags

theorem setBits_injective {f g : Features} (h : f.setBits = g.setBits) : f = g := by
  apply eq_of_isSet
  intro n
  rw [Bool.eq_iff_iff, ← mem_setBits, ← mem_setBits, h]

/-! ### Features of bytes -/

theorem bitAt_eq_testBit (flags : List UInt8) (n : Nat) :
    bitAt flags n = (flags.getD (n / 8) 0).toNat.testBit (n % 8) := by
  unfold bitAt
  rw [List.getD_eq_getElem?_getD]
  cases flags[n / 8]? with
  | none => exact (Nat.zero_testBit _).symm
  | some b => exact (BitVec.testBit_toNat _).symm

theorem isSet_ofLittleEndian (bytes : List UInt8) (n : Nat) :
    (ofLittleEndian bytes).isSet n = (bytes.getD (n / 8) 0).toNat.testBit (n % 8) :=
  (bitAt_trim bytes n).trans (bitAt_eq_testBit bytes n)

/-- Features that are made of their own bytes are unchanged, since these have no zero at the end. -/
theorem ofLittleEndian_flags (f : Features) : ofLittleEndian f.flags = f :=
  eq_of_isSet (bitAt_trim f.flags)

/-- There is one value for each set of bits. Bytes give equal features if and only if they have equal
bits, the bits behind the last byte being unset; the features have no zero byte at the end, and their
own bytes give them back; and their bits in ascending order, each listed once, determine them. -/
theorem ofLittleEndian_canonical (a b : List UInt8) :
    (ofLittleEndian a = ofLittleEndian b ↔
      ∀ n, (ofLittleEndian a).isSet n = (ofLittleEndian b).isSet n) ∧
    (∀ n, (ofLittleEndian a).isSet n = (a.getD (n / 8) 0).toNat.testBit (n % 8)) ∧
    (ofLittleEndian a).flags.getLast? ≠ some 0 ∧
    (∀ f : Features, ofLittleEndian f.flags = f) ∧
    (∀ f : Features, f.setBits.Pairwise (· < ·) ∧ ∀ n, n ∈ f.setBits ↔ f.isSet n = true) ∧
    ∀ f g : Features, f.setBits = g.setBits ↔ f = g := by
  refine ⟨⟨fun same n => by rw [same], eq_of_isSet⟩, isSet_ofLittleEndian a, getLast?_trim a,
    ofLittleEndian_flags, fun f => ⟨pairwise_setBits f, fun n => mem_setBits⟩,
    fun f g => ⟨setBits_injective, ?_⟩⟩
  rintro rfl
  rfl

example : (ofLittleEndian [0, 65, 2, 0, 0]).flags = [0, 65, 2] ∧
    (ofLittleEndian [0, 65, 2, 0, 0]).setBits = [8, 14, 17] := by decide +kernel

end LightningInvoice.Features
