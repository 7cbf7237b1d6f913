import LightningInvoice.Proofs.Checksum.Detection
import LightningInvoice.Proofs.Request.Decomposition

/-!
Damage to the data of a request. If a request is read, a request that differs from it in few places
of its data is refused, and it is the checksum that is blamed.
-/
namespace LightningInvoice

/-- The places in which two lists differ lie within six consecutive ones, or they are two that are
fewer than 1023 apart. -/
def Confined {α : Type} (a b : List α) : Prop :=
  (∃ start, ∀ k : Nat, a[k]? ≠ b[k]? → start ≤ k ∧ k < start + 6) ∨
    ∃ i j : Nat, i < j ∧ j < i + 1023 ∧ ∀ k : Nat, a[k]? ≠ b[k]? ↔ k = i ∨ k = j

theorem confined_map_iff {α β : Type} {f : α → β} (injective : ∀ x y, f x = f y → x = y)
    {a b : List α} : Confined (a.map f) (b.map f) ↔ Confined a b := by
  have places : ∀ k : Nat, (a.map f)[k]? ≠ (b.map f)[k]? ↔ a[k]? ≠ b[k]? := by
    intro k
    rw [List.getElem?_map, List.getElem?_map, Ne, Ne, not_iff_not]
    exact (Option.map_injective injective).eq_iff
  simp only [Confined, places]

theorem Checksum.verify_of_confined {head : List Char} {a b : List Symbol}
    (lengths : a.length = b.length) (valid : verify head a = true) (changed : a ≠ b)
    (few : Confined a b) : verify head b = false := by
  rcases few with ⟨_, inside⟩ | ⟨_, _, order, near, pair⟩
  · exact verify_of_burst lengths valid changed inside
  · exact verify_of_pair lengths valid order near pair

namespace Envelope

theorem ofParts_of_verify {head : List Char} {data : List Symbol}
    (long : Checksum.width ≤ data.length) (damaged : Checksum.verify head data = false) :
    ofParts head data = .error .wrongChecksum := by
  rw [ofParts, if_neg (Nat.not_lt.mpr long), damaged, Bool.and_false]
  rfl

theorem read_of_verify {text head characters : List Char} {data : List Symbol}
    (cut : splitLast '1' text = some (head, characters)) (known : Symbol.ofText characters = .ok data)
    (long : Checksum.width ≤ data.length) (damaged : Checksum.verify head data = false) :
    read text = .error .wrongChecksum := by
  rw [read, cut]
  dsimp only
  rw [known]
  exact ofParts_of_verify long damaged

end Envelope

namespace Request

theorem decode_of_read_error {request : String} {e : ParseError}
    (refused : Envelope.read (lowered request) = .error e) : decode request = .error e := by
  rw [lowered] at refused
  rw [decode, decodeUnder, violation?_default]
  dsimp only
  rw [refused]

/-- If a request is read, then a request with the same head and as many characters of data, all of
them known, is refused for its checksum if the data differ, but only within six consecutive
characters or in two that are fewer than 1023 apart. -/
theorem decode_of_confined {a b : String} {inv : Invoice} {head first second : List Char}
    (read : decode a = .ok inv)
    (cutA : Envelope.splitLast '1' (lowered a) = some (head, first))
    (cutB : Envelope.splitLast '1' (lowered b) = some (head, second))
    (lengths : first.length = second.length)
    (known : ∀ c ∈ second, (Symbol.ofChar? c).isSome)
    (changed : first ≠ second) (few : Confined first second) :
    decode b = .error .wrongChecksum := by
  obtain ⟨l, text, denotes⟩ := decode_eq_ok_iff.mp read
  have spells := denotes.spells
  rw [← text] at spells
  obtain ⟨rfl, rfl⟩ := Prod.mk.inj (Option.some.inj (cutA.symm.trans spells.splitLast))
  obtain ⟨data, symbols⟩ := Symbol.exists_ofText known
  obtain ⟨_, lower⟩ := Envelope.map_toLower_of_splitLast (map_toLower_map_toLower b.toList) cutB
  have same : second = Symbol.text data := lower.symm.trans (Symbol.text_of_ofText symbols).symm
  rw [same] at lengths changed few
  rw [Symbol.text, Symbol.text, List.length_map, List.length_map] at lengths
  have damage : l.body ++ l.checksum ≠ data := fun equal => changed (congrArg Symbol.text equal)
  have valid : Checksum.verify l.head (l.body ++ l.checksum) = true :=
    (Checksum.verify_append_iff spells.checksum_length).mpr rfl
  have confined : Confined (l.body ++ l.checksum) data :=
    (confined_map_iff fun _ _ => Symbol.toChar_injective).mp few
  have damaged := Checksum.verify_of_confined lengths valid damage confined
  have long : Checksum.width ≤ data.length := by
    rw [← lengths, List.length_append, spells.checksum_length]
    exact Nat.le_add_left _ _
  exact decode_of_read_error (Envelope.read_of_verify cutB symbols long damaged)

def damaged : List Symbol := ((Layout.sample.body ++ Layout.sample.checksum).set 3 0).set 90 1

theorem damaged_confined : Confined (Layout.sample.body ++ Layout.sample.checksum) damaged := by
  refine Or.inr ⟨3, 90, by decide, by decide, ?_⟩
  intro k
  by_cases upper : k = 90
  · rw [upper]
    decide +kernel
  · by_cases lower : k = 3
    · rw [lower]
      decide +kernel
    · rw [damaged, List.getElem?_set_ne (Ne.symm upper), List.getElem?_set_ne (Ne.symm lower)]
      simp only [ne_eq, not_true_eq_false, lower, upper, or_self]

theorem decode_damaged :
    decode (String.ofList (Layout.sample.head ++ '1' :: Symbol.text damaged)) =
      .error .wrongChecksum := by
  have plain := map_toLower_of_plain (plain_of_parse Layout.sample_denotes.human)
  have read : decode (String.ofList Layout.sample.text) = .ok Invoice.sample :=
    decode_eq_ok_iff.mpr ⟨_, lowered_ofList plain _, Layout.sample_denotes⟩
  have cut : ∀ data, Envelope.splitLast '1'
      (lowered (String.ofList (Layout.sample.head ++ '1' :: Symbol.text data))) =
      some (Layout.sample.head, Symbol.text data) := by
    intro data
    rw [lowered_ofList plain]
    exact Envelope.splitLast_append (Symbol.separator_not_mem_text data) _
  have lengths : (Layout.sample.body ++ Layout.sample.checksum).length = damaged.length := by
    rw [damaged, List.length_set, List.length_set]
  have changed : Layout.sample.body ++ Layout.sample.checksum ≠ damaged := by decide +kernel
  refine decode_of_confined read (cut _) (cut damaged) ?_ (Symbol.ofChar?_of_mem_text damaged) ?_
    ((confined_map_iff fun _ _ => Symbol.toChar_injective).mpr damaged_confined)
  · rw [Symbol.text, Symbol.text, List.length_map, List.length_map, lengths]
  · exact fun same => changed (Symbol.text_injective same)

end Request
end LightningInvoice
