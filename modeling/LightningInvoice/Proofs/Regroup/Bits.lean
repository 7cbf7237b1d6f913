import LightningInvoice.Regroup

/-!
Packing and unpacking as operations on bit strings. What a packer has given out, followed by the
bits that it holds, is what it has taken in; so is it with an unpacker. A whole run therefore
gives out the bits of its input, up to fewer than eight or five bits at the end.
-/
namespace LightningInvoice
namespace Bits

/-- The bits of a word, the most significant first. -/
def ofWord {w : Nat} (v : BitVec w) : List Bool := (List.range w).map v.getMsbD

def ofWords {w : Nat} (words : List (BitVec w)) : List Bool := words.flatMap ofWord

def ofBytes (bytes : List UInt8) : List Bool := ofWords (bytes.map UInt8.toBitVec)

theorem length_ofWord {w : Nat} (v : BitVec w) : (ofWord v).length = w := by
  rw [ofWord, List.length_map, List.length_range]

theorem ofWord_injective {w : Nat} {u v : BitVec w} (h : ofWord u = ofWord v) : u = v := by
  apply BitVec.eq_of_getMsbD_eq
  intro i hi
  exact List.map_inj_left.mp h i (List.mem_range.mpr hi)

theorem ofWords_cons {w : Nat} (v : BitVec w) (words : List (BitVec w)) :
    ofWords (v :: words) = ofWord v ++ ofWords words := rfl

theorem ofWords_append {w : Nat} (a b : List (BitVec w)) :
    ofWords (a ++ b) = ofWords a ++ ofWords b := List.flatMap_append

theorem length_ofWords {w : Nat} (words : List (BitVec w)) :
    (ofWords words).length = words.length * w := by
  induction words with
  | nil => rw [List.length_nil, Nat.zero_mul]; rfl
  | cons v rest ih =>
    rw [ofWords_cons, List.length_append, length_ofWord, ih, List.length_cons, Nat.succ_mul,
      Nat.add_comm]

theorem ofWords_injective {w : Nat} (positive : 0 < w) {a b : List (BitVec w)}
    (h : ofWords a = ofWords b) : a = b := by
  have lengths := congrArg List.length h
  rw [length_ofWords, length_ofWords] at lengths
  have same : a.length = b.length := Nat.eq_of_mul_eq_mul_right positive lengths
  clear lengths
  induction a generalizing b with
  | nil => exact (List.length_eq_zero_iff.mp same.symm).symm
  | cons u rest ih =>
    obtain ⟨v, more, rfl⟩ := List.exists_cons_of_length_eq_add_one same.symm
    rw [ofWords_cons, ofWords_cons] at h
    obtain ⟨first, later⟩ := List.append_inj h (by rw [length_ofWord, length_ofWord])
    rw [ofWord_injective first, ih later (Nat.succ.inj same)]

theorem ofWord_zero {w : Nat} : ofWord (0 : BitVec w) = List.replicate w false := by
  apply List.ext_getElem
  · rw [length_ofWord, List.length_replicate]
  · intro i _ _
    simp [ofWord]

theorem ofWords_replicate_zero {w : Nat} (count : Nat) :
    ofWords (List.replicate count (0 : BitVec w)) = List.replicate (count * w) false := by
  induction count with
  | zero => rw [Nat.zero_mul]; rfl
  | succ count ih =>
    rw [List.replicate_succ, ofWords_cons, ih, ofWord_zero, List.replicate_append_replicate,
      Nat.succ_mul, Nat.add_comm]

theorem ofBytes_append (a b : List UInt8) : ofBytes (a ++ b) = ofBytes a ++ ofBytes b := by
  rw [ofBytes, List.map_append, ofWords_append]
  rfl

theorem length_ofBytes (bytes : List UInt8) : (ofBytes bytes).length = bytes.length * 8 := by
  rw [ofBytes, length_ofWords, List.length_map]

theorem ofBytes_injective {a b : List UInt8} (h : ofBytes a = ofBytes b) : a = b :=
  (List.map_inj_right fun _ _ => UInt8.toBitVec_inj.mp).mp (ofWords_injective (by decide) h)

/-- The upper `count` bits of a byte, the ones that are under way. -/
def pending (count : Nat) (held : BitVec 8) : List Bool := (ofWord held).take count

/-- Fewer than eight bits are under way, and zeros stand below them. -/
structure Clean (count : Nat) (held : BitVec 8) : Prop where
  count_lt : count < 8
  below : ∀ i, count ≤ i → held.getMsbD i = false

theorem clean_zero : Clean 0 0 := ⟨by decide, fun _ _ => BitVec.getMsbD_zero⟩

theorem length_pending {count : Nat} {held : BitVec 8} (clean : Clean count held) :
    (pending count held).length = count := by
  rw [pending, List.length_take, length_ofWord, Nat.min_eq_left (Nat.le_of_lt clean.count_lt)]

theorem held_bits {count : Nat} {held : BitVec 8} (clean : Clean count held) :
    ofWord held = pending count held ++ List.replicate (8 - count) false := by
  rw [pending]
  conv => lhs; rw [← List.take_append_drop count (ofWord held)]
  congr 1
  apply List.ext_getElem
  · rw [List.length_drop, length_ofWord, List.length_replicate]
  · intro i _ _
    simp only [ofWord, List.getElem_drop, List.getElem_map, List.getElem_range,
      List.getElem_replicate]
    exact clean.below _ (Nat.le_add_right _ _)

theorem Clean.held_eq_zero {count : Nat} {held : BitVec 8} (clean : Clean count held)
    (empty : count = 0) : held = 0 := by
  apply BitVec.eq_of_getMsbD_eq
  intro i _
  rw [clean.below i (by omega)]
  exact BitVec.getMsbD_zero.symm

theorem clean_shiftLeft (v : BitVec 8) {count shift : Nat} (lt : count < 8)
    (enough : 8 ≤ count + shift) : Clean count (v <<< shift) := by
  refine ⟨lt, ?_⟩
  intro i hi
  rw [BitVec.getMsbD_shiftLeft]
  exact BitVec.getMsbD_of_ge _ _ (by omega)

end Bits

open Bits

namespace Packer

theorem absorb_clean {p : Packer} (clean : Clean p.count p.held) (s : Symbol) :
    Clean (absorb p s).2.count (absorb p s).2.held := by
  unfold absorb
  split
  · have lt := clean.count_lt
    exact clean_shiftLeft _ (by dsimp only; omega) (by dsimp only; omega)
  · refine ⟨by dsimp only; omega, ?_⟩
    intro i hi
    dsimp only at hi ⊢
    rw [BitVec.getMsbD_or, clean.below i (by omega), BitVec.getMsbD_shiftLeft, Bool.false_or]
    exact BitVec.getMsbD_of_ge _ _ (by omega)

/-- One symbol taken in: the bits given out and the bits held are those held before and those of
the symbol. -/
theorem absorb_bits {p : Packer} (clean : Clean p.count p.held) (s : Symbol) :
    ofBytes (absorb p s).1.toList ++ pending (absorb p s).2.count (absorb p s).2.held =
      pending p.count p.held ++ ofWord s := by
  obtain ⟨count, held⟩ := p
  obtain ⟨count_lt, below⟩ := clean
  dsimp only at count_lt below
  -- With the count fixed, both sides are lists of at most twelve single bits.
  have counts : count = 0 ∨ count = 1 ∨ count = 2 ∨ count = 3 ∨ count = 4 ∨ count = 5 ∨
      count = 6 ∨ count = 7 := by omega
  rcases counts with rfl | rfl | rfl | rfl | rfl | rfl | rfl | rfl <;>
    simp [absorb, pending, ofBytes, ofWords, ofWord, List.range_succ_eq_map,
      BitVec.getMsbD_setWidth, below]

theorem run_dropped_bits {p : Packer} (clean : Clean p.count p.held) (symbols : List Symbol) :
    ∃ lost : List Bool, lost.length < 8 ∧
      ofBytes (run .dropped p symbols) ++ lost = pending p.count p.held ++ ofWords symbols := by
  induction symbols generalizing p with
  | nil =>
    refine ⟨pending p.count p.held, ?_, ?_⟩
    · rw [length_pending clean]; exact clean.count_lt
    · rw [ofWords, List.flatMap_nil, List.append_nil]
      simp [run, flush, ofBytes, ofWords]
  | cons s rest ih =>
    obtain ⟨lost, short, bits⟩ := ih (absorb_clean clean s)
    refine ⟨lost, short, ?_⟩
    rw [run, ofBytes_append, List.append_assoc, bits, ← List.append_assoc, absorb_bits clean,
      List.append_assoc, ← ofWords_cons]

theorem run_padded_bits {p : Packer} (clean : Clean p.count p.held) (symbols : List Symbol) :
    ∃ fill, fill < 8 ∧ ofBytes (run .padded p symbols) =
      pending p.count p.held ++ ofWords symbols ++ List.replicate fill false := by
  induction symbols generalizing p with
  | nil =>
    by_cases holds : 0 < p.count
    · refine ⟨8 - p.count, by omega, ?_⟩
      rw [run, flush, if_pos ⟨rfl, holds⟩, ofWords, List.flatMap_nil, List.append_nil,
        ← held_bits clean]
      exact List.append_nil _
    · refine ⟨0, by decide, ?_⟩
      rw [run, flush, if_neg (fun both => holds both.2), Nat.eq_zero_of_not_pos holds]
      rfl
  | cons s rest ih =>
    obtain ⟨fill, short, bits⟩ := ih (absorb_clean clean s)
    refine ⟨fill, short, ?_⟩
    rw [run, ofBytes_append, bits, ← List.append_assoc, ← List.append_assoc, absorb_bits clean,
      List.append_assoc (pending p.count p.held), ← ofWords_cons]

end Packer

theorem pack_dropped_bits (symbols : List Symbol) :
    ∃ lost : List Bool, lost.length < 8 ∧
      ofBytes (pack .dropped symbols) ++ lost = ofWords symbols :=
  Packer.run_dropped_bits clean_zero symbols

theorem pack_padded_bits (symbols : List Symbol) :
    ∃ fill, fill < 8 ∧
      ofBytes (pack .padded symbols) = ofWords symbols ++ List.replicate fill false :=
  Packer.run_padded_bits clean_zero symbols

namespace Unpacker

theorem release_clean {u : Unpacker} (clean : Clean u.count u.held) :
    Clean u.release.2.count u.release.2.held := by
  obtain ⟨count_lt, below⟩ := clean
  refine ⟨by dsimp only [release]; omega, ?_⟩
  intro i hi
  dsimp only [release] at hi ⊢
  rw [BitVec.getMsbD_shiftLeft]
  exact below _ (by omega)

theorem release_count_lt {u : Unpacker} (clean : Clean u.count u.held) :
    u.release.2.count < 5 := by
  have lt := clean.count_lt
  dsimp only [release]
  omega

theorem absorb_clean {u : Unpacker} (few : u.count < 5) (b : UInt8) :
    Clean (absorb u b).2.count (absorb u b).2.held :=
  clean_shiftLeft _ (by dsimp only [absorb]; omega) (by dsimp only [absorb]; omega)

theorem getMsbD_top (v : BitVec 8) {i : Nat} (h : i < 5) : (top v).getMsbD i = v.getMsbD i := by
  simp only [top, BitVec.getMsbD, BitVec.getLsbD_extractLsb', decide_eq_true h, Bool.true_and,
    decide_eq_true (show i < 8 by omega), decide_eq_true (show 5 - 1 - i < 5 by omega)]
  rw [show 3 + (5 - 1 - i) = 8 - 1 - i by omega]

theorem top_bits (v : BitVec 8) : ofWord (top v) = (ofWord v).take 5 := by
  rw [ofWord, ofWord, ← List.map_take, List.take_range]
  exact List.map_congr_left fun i hi => getMsbD_top v (List.mem_range.mp hi)

theorem release_bits {u : Unpacker} (clean : Clean u.count u.held) (enough : 5 ≤ u.count) :
    ofWord u.release.1 ++ pending u.release.2.count u.release.2.held =
      pending u.count u.held := by
  obtain ⟨count, held⟩ := u
  obtain ⟨count_lt, below⟩ := clean
  dsimp only at count_lt below enough
  have counts : count = 5 ∨ count = 6 ∨ count = 7 := by omega
  rcases counts with rfl | rfl | rfl <;>
    simp [release, pending, getMsbD_top, ofWord, List.range_succ_eq_map]

/-- One byte taken in: the bits given out and the bits held are those held before and those of the
byte. -/
theorem absorb_bits {u : Unpacker} (clean : Clean u.count u.held) (few : u.count < 5) (b : UInt8) :
    ofWord (absorb u b).1 ++ pending (absorb u b).2.count (absorb u b).2.held =
      pending u.count u.held ++ ofWord b.toBitVec := by
  obtain ⟨count, held⟩ := u
  obtain ⟨_, below⟩ := clean
  dsimp only at below few
  have counts : count = 0 ∨ count = 1 ∨ count = 2 ∨ count = 3 ∨ count = 4 := by omega
  rcases counts with rfl | rfl | rfl | rfl | rfl <;>
    simp [absorb, pending, getMsbD_top, ofWord, List.range_succ_eq_map, below]

theorem flush_bits {u : Unpacker} (clean : Clean u.count u.held) (few : u.count < 5) :
    ∃ fill, fill < 5 ∧
      ofWords u.flush.1.toList = pending u.count u.held ++ List.replicate fill false := by
  by_cases holds : 0 < u.count
  · refine ⟨5 - u.count, by omega, ?_⟩
    rw [flush, if_pos holds]
    show ofWord (top u.held) ++ [] = _
    rw [List.append_nil, top_bits, held_bits clean, List.take_append,
      List.take_of_length_le (by rw [length_pending clean]; omega), length_pending clean,
      List.take_replicate, Nat.min_eq_left (by omega)]
  · refine ⟨0, by decide, ?_⟩
    rw [flush, if_neg holds, Nat.eq_zero_of_not_pos holds]
    rfl

theorem run_bits {u : Unpacker} (clean : Clean u.count u.held) (bytes : List UInt8) :
    ∃ fill, fill < 5 ∧ ofWords (run u bytes) =
      pending u.count u.held ++ ofBytes bytes ++ List.replicate fill false := by
  induction bytes generalizing u with
  | nil =>
    rw [run, show ofBytes [] = [] from rfl, List.append_nil]
    split
    · rename_i enough
      have after := release_clean clean
      have few := release_count_lt clean
      obtain ⟨fill, short, bits⟩ := flush_bits after few
      refine ⟨fill, short, ?_⟩
      rw [ofWords_cons, bits, ← List.append_assoc, release_bits clean enough]
    · rename_i few
      exact flush_bits clean (by omega)
  | cons b rest ih =>
    -- Whether or not a symbol is released first, the byte is taken in with few bits held.
    have later : ∀ v : Unpacker, Clean v.count v.held → v.count < 5 → ∃ fill, fill < 5 ∧
        ofWord (absorb v b).1 ++ ofWords (run (absorb v b).2 rest) =
          pending v.count v.held ++ ofBytes (b :: rest) ++ List.replicate fill false := by
      intro v clean few
      obtain ⟨fill, short, bits⟩ := ih (absorb_clean few b)
      refine ⟨fill, short, ?_⟩
      rw [bits, List.append_assoc _ (ofBytes rest), ← List.append_assoc (ofWord _) (pending _ _),
        absorb_bits clean few]
      simp only [ofBytes, List.map_cons, ofWords_cons, List.append_assoc]
    rw [run]
    split
    · rename_i enough
      obtain ⟨fill, short, bits⟩ := later u.release.2 (release_clean clean) (release_count_lt clean)
      refine ⟨fill, short, ?_⟩
      rw [ofWords_cons, ofWords_cons, bits, ← release_bits clean enough]
      simp only [List.append_assoc]
    · rename_i few
      exact later u clean (Nat.lt_of_not_le few)

end Unpacker

theorem unpack_bits (bytes : List UInt8) :
    ∃ fill, fill < 5 ∧
      ofWords (unpack bytes) = ofBytes bytes ++ List.replicate fill false :=
  Unpacker.run_bits clean_zero bytes

end LightningInvoice
