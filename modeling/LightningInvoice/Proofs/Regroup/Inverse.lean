import LightningInvoice.Proofs.Regroup.Bits

/-!
How far packing and unpacking undo each other. Bytes always come back. Symbols come back when they
fill whole bytes; the padded bytes of other symbols leave open whether one zero symbol more was
there, and nothing else.
-/
namespace LightningInvoice
open Bits

/-- The whole bytes that the bits of some symbols begin with are those that they are packed into. -/
theorem ofBytes_pack_dropped (symbols : List Symbol) :
    ofBytes (pack .dropped symbols) = (ofWords symbols).take (symbols.length * 5 / 8 * 8) := by
  obtain ⟨lost, _, packed⟩ := pack_dropped_bits symbols
  have whole : (ofBytes (pack .dropped symbols)).length = symbols.length * 5 / 8 * 8 := by
    rw [length_ofBytes, length_pack_dropped]
  rw [← packed, List.take_left' whole]

theorem length_pack_padded (symbols : List Symbol) :
    (pack .padded symbols).length = (symbols.length * 5 + 7) / 8 := by
  rw [length_pack, Packer.expected, Packer.idle, Nat.zero_add]

theorem ofBytes_pack_padded (symbols : List Symbol) :
    ofBytes (pack .padded symbols) =
      (ofWords symbols).rightpad ((symbols.length * 5 + 7) / 8 * 8) false := by
  obtain ⟨fill, _, packed⟩ := pack_padded_bits symbols
  have lengths := congrArg List.length packed
  rw [length_ofBytes, length_pack_padded, List.length_append, List.length_replicate] at lengths
  rw [packed, List.rightpad, lengths, Nat.add_sub_cancel_left]

theorem pack_dropped_eq_iff {a b : List Symbol} :
    pack .dropped a = pack .dropped b ↔
      (ofWords a).take (a.length * 5 / 8 * 8) = (ofWords b).take (b.length * 5 / 8 * 8) := by
  rw [← ofBytes_pack_dropped, ← ofBytes_pack_dropped]
  exact ⟨congrArg ofBytes, fun same => ofBytes_injective same⟩

theorem pack_dropped_unpack (bytes : List UInt8) : pack .dropped (unpack bytes) = bytes := by
  obtain ⟨lost, lostLt, packed⟩ := pack_dropped_bits (unpack bytes)
  obtain ⟨fill, fillLt, unpacked⟩ := unpack_bits bytes
  rw [unpacked] at packed
  have lengths := congrArg List.length packed
  simp only [List.length_append, length_ofBytes, List.length_replicate] at lengths
  have same : (ofBytes (pack .dropped (unpack bytes))).length = (ofBytes bytes).length := by
    rw [length_ofBytes, length_ofBytes]
    omega
  exact ofBytes_injective (List.append_inj packed same).1

theorem length_unpack (bytes : List UInt8) :
    (unpack bytes).length = (bytes.length * 8 + 4) / 5 := by
  obtain ⟨fill, fillLt, unpacked⟩ := unpack_bits bytes
  have lengths := congrArg List.length unpacked
  simp only [List.length_append, length_ofBytes, length_ofWords, List.length_replicate] at lengths
  omega

theorem ofWords_unpack (bytes : List UInt8) :
    ofWords (unpack bytes) = (ofBytes bytes).rightpad ((bytes.length * 8 + 4) / 5 * 5) false := by
  obtain ⟨fill, _, unpacked⟩ := unpack_bits bytes
  have lengths := congrArg List.length unpacked
  rw [length_ofWords, length_unpack, List.length_append, List.length_replicate] at lengths
  rw [unpacked, List.rightpad, lengths, Nat.add_sub_cancel_left]

theorem unpack_pack_dropped {symbols : List Symbol} (whole : symbols.length * 5 % 8 = 0) :
    unpack (pack .dropped symbols) = symbols := by
  obtain ⟨lost, lostLt, packed⟩ := pack_dropped_bits symbols
  obtain ⟨fill, fillLt, unpacked⟩ := unpack_bits (pack .dropped symbols)
  have packedLengths := congrArg List.length packed
  have unpackedLengths := congrArg List.length unpacked
  simp only [List.length_append, length_ofBytes, length_ofWords, List.length_replicate]
    at packedLengths unpackedLengths
  have noneLost : lost = [] := List.length_eq_zero_iff.mp (by omega)
  have noFill : fill = 0 := by omega
  rw [noFill, List.replicate_zero, List.append_nil] at unpacked
  rw [noneLost, List.append_nil] at packed
  exact ofWords_injective (by decide) (unpacked.trans packed)

/-- Words that have the bits of other words and zeros are those words and zero words. -/
theorem eq_append_zeros {w fill : Nat} (positive : 0 < w) {a b : List (BitVec w)}
    (h : ofWords a = ofWords b ++ List.replicate fill false) :
    ∃ zeros, zeros * w = fill ∧ a = b ++ List.replicate zeros 0 := by
  have lengths := congrArg List.length h
  rw [List.length_append, length_ofWords, length_ofWords, List.length_replicate] at lengths
  have whole : (a.length - b.length) * w = fill := by
    rw [Nat.sub_mul]
    omega
  refine ⟨a.length - b.length, whole, ofWords_injective positive ?_⟩
  rw [h, ofWords_append, ofWords_replicate_zero, whole]

/-- Two lists of symbols with the same padded bytes are equal, or the longer one is the shorter
one and a zero symbol. -/
theorem eq_or_eq_append_of_pack_padded_eq {a b : List Symbol}
    (h : pack .padded a = pack .padded b) (shorter : a.length ≤ b.length) :
    b = a ∨ b = a ++ [Symbol.least] := by
  obtain ⟨fillA, ltA, bitsA⟩ := pack_padded_bits a
  obtain ⟨fillB, ltB, bitsB⟩ := pack_padded_bits b
  have bits : ofWords a ++ List.replicate fillA false = ofWords b ++ List.replicate fillB false := by
    rw [← bitsA, ← bitsB, h]
  have lengths := congrArg List.length bits
  simp only [List.length_append, length_ofWords, List.length_replicate] at lengths
  -- The zeros behind `b` stand behind `a` as well, and those before them are words of `b`.
  rw [show fillA = fillA - fillB + fillB by omega, ← List.replicate_append_replicate,
    ← List.append_assoc] at bits
  obtain ⟨zeros, count, rfl⟩ :=
    eq_append_zeros (by decide) (List.append_inj_left' bits rfl).symm
  have few : zeros = 0 ∨ zeros = 1 := by omega
  rcases few with rfl | rfl
  · exact .inl (List.append_nil a)
  · exact .inr rfl

/-- One more zero symbol leaves the padded bytes as they are if its bits lie in the padding. -/
theorem pack_padded_append_least {symbols : List Symbol} (partly : 0 < symbols.length * 5 % 8)
    (room : symbols.length * 5 % 8 ≤ 3) :
    pack .padded (symbols ++ [Symbol.least]) = pack .padded symbols := by
  apply ofBytes_injective
  have bytes : ((symbols ++ [Symbol.least]).length * 5 + 7) / 8 = (symbols.length * 5 + 7) / 8 := by
    rw [List.length_append, List.length_singleton]
    have residue : symbols.length * 5 % 8 = 1 ∨ symbols.length * 5 % 8 = 2 ∨
        symbols.length * 5 % 8 = 3 := by omega
    rcases residue with residue | residue | residue <;> omega
  rw [ofBytes_pack_padded, ofBytes_pack_padded, bytes]
  have longer : ofWords (symbols ++ [Symbol.least]) = ofWords symbols ++ List.replicate 5 false := by
    rw [ofWords_append]
    exact congrArg _ (ofWords_replicate_zero 1)
  rw [longer, List.rightpad, List.rightpad, List.append_assoc, List.replicate_append_replicate,
    List.length_append, length_ofWords, List.length_replicate]
  congr 2
  rw [List.length_append, List.length_singleton] at bytes
  omega

/-- `longer` is `shorter` and a zero symbol, whose bits lie in the padding of `shorter`. -/
def OneZeroMore (shorter longer : List Symbol) : Prop :=
  longer = shorter ++ [Symbol.least] ∧ 0 < shorter.length * 5 % 8 ∧ shorter.length * 5 % 8 ≤ 3

theorem eq_or_oneZeroMore {a b : List Symbol} (h : pack .padded a = pack .padded b)
    (shorter : a.length ≤ b.length) : a = b ∨ OneZeroMore a b := by
  rcases eq_or_eq_append_of_pack_padded_eq h shorter with rfl | rfl
  · exact .inl rfl
  · have lengths := congrArg List.length h
    rw [length_pack_padded, length_pack_padded, List.length_append, List.length_singleton]
      at lengths
    refine .inr ⟨rfl, by omega, Nat.le_of_not_lt fun wide => ?_⟩
    have residue : a.length * 5 % 8 = 4 ∨ a.length * 5 % 8 = 5 ∨ a.length * 5 % 8 = 6 ∨
        a.length * 5 % 8 = 7 := by omega
    rcases residue with residue | residue | residue | residue <;> omega

theorem pack_padded_eq_iff {a b : List Symbol} :
    pack .padded a = pack .padded b ↔ a = b ∨ OneZeroMore a b ∨ OneZeroMore b a := by
  constructor
  · intro h
    rcases Nat.le_total a.length b.length with shorter | shorter
    · exact (eq_or_oneZeroMore h shorter).imp_right .inl
    · exact (eq_or_oneZeroMore h.symm shorter).imp .symm .inr
  · rintro (rfl | ⟨rfl, partly, room⟩ | ⟨rfl, partly, room⟩)
    · rfl
    · exact (pack_padded_append_least partly room).symm
    · exact pack_padded_append_least partly room

/-- Padded bytes of unpacked bytes are those bytes, with a zero byte behind them if the bits of the
last symbol reach into it. -/
theorem pack_padded_unpack (bytes : List UInt8) :
    pack .padded (unpack bytes) = bytes ∨ pack .padded (unpack bytes) = bytes ++ [0] := by
  obtain ⟨fill, fillLt, unpacked⟩ := unpack_bits bytes
  obtain ⟨more, moreLt, packed⟩ := pack_padded_bits (unpack bytes)
  rw [unpacked, List.append_assoc, List.replicate_append_replicate] at packed
  obtain ⟨zeros, count, same⟩ := eq_append_zeros (by decide) packed
  have few : zeros = 0 ∨ zeros = 1 := by omega
  have back : ∀ other : List UInt8, (pack .padded (unpack bytes)).map UInt8.toBitVec =
      other.map UInt8.toBitVec → pack .padded (unpack bytes) = other :=
    fun _ => (List.map_inj_right fun _ _ => UInt8.toBitVec_inj.mp).mp
  rcases few with rfl | rfl
  · exact .inl (back bytes (same.trans (List.append_nil _)))
  · refine .inr (back (bytes ++ [0]) (same.trans ?_))
    rw [List.map_append]
    rfl

theorem unpack_pack_padded (symbols : List Symbol) :
    ∃ zeros, zeros ≤ 2 ∧
      unpack (pack .padded symbols) = symbols ++ List.replicate zeros Symbol.least := by
  obtain ⟨fill, fillLt, packed⟩ := pack_padded_bits symbols
  obtain ⟨more, moreLt, unpacked⟩ := unpack_bits (pack .padded symbols)
  rw [packed, List.append_assoc, List.replicate_append_replicate] at unpacked
  obtain ⟨zeros, count, same⟩ := eq_append_zeros (by decide) unpacked
  exact ⟨zeros, by omega, same⟩

theorem eq_iff_pack_padded_eq {a b : List Symbol} :
    a = b ↔ a.length = b.length ∧ pack .padded a = pack .padded b := by
  constructor
  · rintro rfl
    exact ⟨rfl, rfl⟩
  · rintro ⟨lengths, packed⟩
    rcases eq_or_oneZeroMore packed (Nat.le_of_eq lengths) with same | ⟨rfl, _⟩
    · exact same
    · rw [List.length_append, List.length_singleton] at lengths
      omega

/-- Packing and unpacking undo each other up to padding. Bytes come back, from padded bytes with at
most one zero byte behind them; symbols come back with at most two zero symbols behind them. Padded
bytes determine symbols of a known number, and leave open else at most whether one zero symbol more
was there. -/
theorem pack_unpack_inverse (bytes : List UInt8) (symbols other : List Symbol) :
    pack .dropped (unpack bytes) = bytes ∧
    (pack .padded (unpack bytes) = bytes ∨ pack .padded (unpack bytes) = bytes ++ [0]) ∧
    (∃ zeros, zeros ≤ 2 ∧
      unpack (pack .padded symbols) = symbols ++ List.replicate zeros Symbol.least) ∧
    (symbols = other ↔
      symbols.length = other.length ∧ pack .padded symbols = pack .padded other) ∧
    (pack .padded symbols = pack .padded other ↔
      symbols = other ∨ OneZeroMore symbols other ∨ OneZeroMore other symbols) :=
  ⟨pack_dropped_unpack bytes, pack_padded_unpack bytes, unpack_pack_padded symbols,
    eq_iff_pack_padded_eq, pack_padded_eq_iff⟩

end LightningInvoice
