import LightningInvoice.Signature
import LightningInvoice.Proofs.Bytes
import LightningInvoice.Proofs.Regroup.Inverse
import Mathlib.Data.Set.Function

/-! The symbols of a signature and the signature determine each other: 104 symbols are 65 bytes
without a bit to spare. Any other number of symbols and any greater recovery flag are refused. -/
namespace LightningInvoice.Signature

def bytes (sig : Signature) : List UInt8 := sig.r.toList ++ sig.s.toList ++ [sig.recoveryFlag]

def ofBytes (bytes : List UInt8) (total : bytes.length = 65) : Signature :=
  ⟨.slice bytes 0 32 (by omega), .slice bytes 32 32 (by omega), bytes.get ⟨64, by omega⟩⟩

theorem length_bytes (sig : Signature) : sig.bytes.length = 65 := by
  rw [bytes, List.length_append, List.length_append, sig.r.length_toList, sig.s.length_toList]
  rfl

theorem bytes_ofBytes {bytes : List UInt8} (total : bytes.length = 65) :
    (ofBytes bytes total).bytes = bytes := by
  have last : bytes.drop 64 = [bytes.get ⟨64, by omega⟩] := by
    rw [List.drop_eq_getElem_cons (by omega), List.drop_eq_nil_of_le (Nat.le_of_eq total)]
    rfl
  show (bytes.drop 0).take 32 ++ (bytes.drop 32).take 32 ++ [bytes.get ⟨64, by omega⟩] = bytes
  rw [← last, List.drop_zero, List.append_assoc, show bytes.drop 64 = (bytes.drop 32).drop 32 by
    rw [List.drop_drop], List.take_append_drop, List.take_append_drop]

theorem bytes_injective {a b : Signature} (h : a.bytes = b.bytes) : a = b := by
  unfold bytes at h
  obtain ⟨numbers, flag⟩ := List.append_inj' h rfl
  obtain ⟨r, s⟩ := Bytes.append_toList_inj numbers
  cases a
  cases b
  rw [Signature.mk.injEq]
  exact ⟨Bytes.ext r, s, List.singleton_inj.mp flag⟩

theorem ofBytes_bytes (sig : Signature) : ofBytes sig.bytes sig.length_bytes = sig :=
  bytes_injective (bytes_ofBytes sig.length_bytes)

theorem ofSymbols_eq {symbols : List Symbol} (length : symbols.length = width) :
    ofSymbols symbols =
      let sig := ofBytes (pack .dropped symbols) (length_pack_width length)
      if 3 < sig.recoveryFlag then .error (.malformed (.invalidRecoveryFlag sig.recoveryFlag))
      else .ok sig := by
  rw [ofSymbols, dif_pos length]
  rfl

theorem length_symbols (sig : Signature) : sig.symbols.length = width := by
  rw [symbols, ← bytes, length_unpack, length_bytes]
  rfl

theorem ofSymbols_symbols {sig : Signature} (low : sig.recoveryFlag ≤ 3) :
    ofSymbols sig.symbols = .ok sig := by
  have back : ∀ (bytes : List UInt8) (total : bytes.length = 65), bytes = sig.bytes →
      ofBytes bytes total = sig := by
    rintro _ total rfl
    exact ofBytes_bytes sig
  have same := back _ (length_pack_width (length_symbols sig)) (pack_dropped_unpack sig.bytes)
  rw [ofSymbols_eq (length_symbols sig), same]
  exact if_neg (UInt8.not_lt.mpr low)

theorem exists_flag_of_ofSymbols {symbols : List Symbol} {e : ParseError}
    (length : symbols.length = width) (h : ofSymbols symbols = .error e) :
    ∃ flag, (pack .dropped symbols)[64]? = some flag ∧ 3 < flag ∧
      e = .malformed (.invalidRecoveryFlag flag) := by
  unfold ofSymbols at h
  rw [dif_pos length] at h
  dsimp only at h
  split at h
  · rename_i high
    exact ⟨_, List.getElem?_eq_getElem _, high, (Except.error.inj h).symm⟩
  · simp at h

theorem eq_symbols_of_ofSymbols {symbols : List Symbol} {sig : Signature}
    (h : ofSymbols symbols = .ok sig) : sig.recoveryFlag ≤ 3 ∧ symbols = sig.symbols := by
  by_cases length : symbols.length = width
  · rw [ofSymbols_eq length] at h
    dsimp only at h
    split at h
    · exact absurd h (by simp)
    · rename_i low
      have whole : symbols.length * 5 % 8 = 0 := by rw [length, width]
      have same := Except.ok.inj h
      rw [same] at low
      refine ⟨UInt8.not_lt.mp low, ?_⟩
      rw [Signature.symbols, ← bytes, ← same, bytes_ofBytes, unpack_pack_dropped whole]
  · rw [ofSymbols, dif_neg length] at h
    exact absurd h (by simp)

theorem length_of_ofSymbols {symbols : List Symbol} {sig : Signature}
    (h : ofSymbols symbols = .ok sig) : symbols.length = width := by
  rw [(eq_symbols_of_ofSymbols h).2, length_symbols]

theorem ofSymbols_eq_ok_iff {symbols : List Symbol} {sig : Signature} :
    ofSymbols symbols = .ok sig ↔ sig.recoveryFlag ≤ 3 ∧ symbols = sig.symbols := by
  constructor
  · exact eq_symbols_of_ofSymbols
  · rintro ⟨low, rfl⟩
    exact ofSymbols_symbols low

theorem ofSymbols_eq_shortData_iff {symbols : List Symbol} :
    ofSymbols symbols = .error (.malformed .shortData) ↔ symbols.length ≠ width := by
  constructor
  · intro short length
    obtain ⟨flag, _, _, other⟩ := exists_flag_of_ofSymbols length short
    cases other
  · intro other
    rw [ofSymbols, dif_neg other]

theorem ofSymbols_eq_invalidFlag_iff {symbols : List Symbol} {flag : UInt8} :
    ofSymbols symbols = .error (.malformed (.invalidRecoveryFlag flag)) ↔
      symbols.length = width ∧ (pack .dropped symbols)[64]? = some flag ∧ 3 < flag := by
  constructor
  · intro refused
    by_cases length : symbols.length = width
    · obtain ⟨found, place, high, same⟩ := exists_flag_of_ofSymbols length refused
      cases same
      exact ⟨length, place, high⟩
    · rw [ofSymbols_eq_shortData_iff.mpr length] at refused
      cases refused
  · rintro ⟨length, place, high⟩
    obtain ⟨_, found⟩ := List.getElem?_eq_some_iff.mp place
    have last : (ofBytes (pack .dropped symbols) (length_pack_width length)).recoveryFlag = flag :=
      found
    rw [ofSymbols_eq length]
    dsimp only
    rw [last, if_pos high]

/-- A signature is read from the 104 symbols that it is written as and from no others. Symbols that
hold a greater recovery flag are refused with this flag, and any other number of symbols is too
short or too long to be a signature. -/
theorem ofSymbols_outcome :
    (∀ symbols r s flag, ofSymbols symbols = .ok ⟨r, s, flag⟩ ↔
      flag ≤ 3 ∧ symbols = unpack (r.toList ++ s.toList ++ [flag])) ∧
    (∀ symbols flag, ofSymbols symbols = .error (.malformed (.invalidRecoveryFlag flag)) ↔
      symbols.length = 104 ∧ (pack .dropped symbols)[64]? = some flag ∧ 3 < flag) ∧
    (∀ symbols, ofSymbols symbols = .error (.malformed .shortData) ↔ symbols.length ≠ 104) ∧
    Set.InjOn ofSymbols {symbols | ∃ sig, ofSymbols symbols = .ok sig} := by
  refine ⟨fun symbols r s flag => ofSymbols_eq_ok_iff,
    fun symbols flag => ofSymbols_eq_invalidFlag_iff,
    fun symbols => ofSymbols_eq_shortData_iff, ?_⟩
  rintro symbols ⟨sig, read⟩ other _ same
  have again : ofSymbols other = .ok sig := same.symm.trans read
  rw [(eq_symbols_of_ofSymbols read).2, (eq_symbols_of_ofSymbols again).2]

end LightningInvoice.Signature
