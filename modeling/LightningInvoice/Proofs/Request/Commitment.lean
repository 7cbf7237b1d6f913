import LightningInvoice.Proofs.Request.Decomposition

/-!
A signature commits to a request by bytes, and the last of these bytes is filled up. Filling up
forgets at most one symbol, and a stream of fields does not go on with a single symbol. So the bytes
determine the symbols before the signature, and with the signature they determine the request.
-/
namespace LightningInvoice
namespace Layout

theorem signed_eq_of_pack_eq {l m : Layout} (seven : l.timestamp.length = m.timestamp.length)
    (packed : pack .padded l.signed = pack .padded m.signed)
    (shorter : l.signed.length ≤ m.signed.length) : l.signed = m.signed := by
  rcases eq_or_eq_append_of_pack_padded_eq packed shorter with same | extra
  · exact same.symm
  · -- The filling of the last byte could be a symbol of value zero, but no field is that short.
    rw [signed, signed, List.append_assoc] at extra
    obtain ⟨_, stream⟩ := List.append_inj extra seven.symm
    have nothing : Frame.take? [] = none := rfl
    have single : Frame.take? [Symbol.least] = none := rfl
    rw [← List.append_nil (m.fields.flatMap Frame.symbols)] at stream
    obtain ⟨_, rest⟩ := Frame.flatMap_symbols_injective nothing single stream
    exact absurd rest (by simp)

theorem signed_eq_of_signingData_eq {l m : Layout} {a b : Invoice} (first : l.Denotes a)
    (second : m.Denotes b) (head : l.head = m.head) (data : a.signingData = b.signingData) :
    l.signed = m.signed := by
  have seven : l.timestamp.length = m.timestamp.length := first.seven.trans second.seven.symm
  rw [first.signingData, second.signingData, Request.signingData, Request.signingData, head] at data
  have packed := List.append_cancel_left data
  rcases Nat.le_total l.signed.length m.signed.length with shorter | longer
  · exact signed_eq_of_pack_eq seven packed shorter
  · exact (signed_eq_of_pack_eq seven.symm packed.symm longer).symm

theorem eq_of_signingData_eq {l m : Layout} {a b : Invoice} (first : l.Denotes a)
    (second : m.Denotes b) (head : l.head = m.head) (data : a.signingData = b.signingData)
    (signature : a.signature = b.signature) : l = m := by
  have signed := signed_eq_of_signingData_eq first second head data
  obtain ⟨_, symbolsA⟩ := Signature.eq_symbols_of_ofSymbols first.signature
  obtain ⟨_, symbolsB⟩ := Signature.eq_symbols_of_ofSymbols second.signature
  exact ext_of_signed head (first.seven.trans second.seven.symm) signed
    (symbolsA.trans (signature ▸ symbolsB.symm))

end Layout

namespace Request

/-- The text before the last separator, in lower case. -/
def head? (request : String) : Option (List Char) :=
  (Envelope.splitLast '1' (lowered request)).map Prod.fst

theorem head?_of_spells {l : Layout} {checksum : List Symbol} {request : String}
    (spells : l.Spells checksum (lowered request)) : head? request = some l.head := by
  rw [head?, spells.splitLast]
  rfl

theorem decode_eq_of_lowered_eq {a b : String} (same : lowered a = lowered b) :
    decode a = decode b := by
  rw [lowered, lowered] at same
  rw [decode, decode, decodeUnder, decodeUnder, violation?_default, violation?_default]
  dsimp only
  rw [same]

/-- Two requests of one head whose signing data agree hold the same timestamp and fields; if their
signatures agree as well, they are the same but for the case of their letters. And requests that are
the same but for that are read alike. -/
theorem lowered_eq_of_signingData_eq (a b : String) :
    (∀ invA invB, decode a = .ok invA → decode b = .ok invB → head? a = head? b →
      invA.signingData = invB.signingData →
        (∀ l m c d, Layout.Spells l c (lowered a) → Layout.Spells m d (lowered b) →
          l.timestamp = m.timestamp ∧ l.fields = m.fields) ∧
        (invA.signature = invB.signature → lowered a = lowered b ∧ invA = invB)) ∧
    (lowered a = lowered b → decode a = decode b) := by
  refine ⟨?_, decode_eq_of_lowered_eq⟩
  intro invA invB readA readB heads data
  obtain ⟨l, textA, denotesA⟩ := decode_eq_ok_iff.mp readA
  obtain ⟨m, textB, denotesB⟩ := decode_eq_ok_iff.mp readB
  have spellsA := denotesA.spells
  have spellsB := denotesB.spells
  rw [← textA] at spellsA
  rw [← textB] at spellsB
  rw [head?_of_spells spellsA, head?_of_spells spellsB] at heads
  have head := Option.some.inj heads
  constructor
  · intro l' m' c d spellsA' spellsB'
    obtain ⟨rfl, _⟩ := spellsA'.unique spellsA
    obtain ⟨rfl, _⟩ := spellsB'.unique spellsB
    have signed := Layout.signed_eq_of_signingData_eq denotesA denotesB head data
    exact Layout.eq_of_signed_eq (denotesA.seven.trans denotesB.seven.symm) signed
  · intro signature
    obtain rfl := Layout.eq_of_signingData_eq denotesA denotesB head data signature
    exact ⟨textA.trans textB.symm, denotesA.unique denotesB⟩

theorem capitals_signingData :
    (∀ l m c d, Layout.Spells l c (lowered (String.ofList Layout.sample.text)) →
      Layout.Spells m d (lowered capitals) → l.timestamp = m.timestamp ∧ l.fields = m.fields) ∧
    lowered (String.ofList Layout.sample.text) = lowered capitals ∧
    decode (String.ofList Layout.sample.text) = decode capitals := by
  have text := lowered_text Layout.sample_denotes
  have small : decode (String.ofList Layout.sample.text) = .ok Invoice.sample :=
    decode_eq_ok_iff.mpr ⟨_, text, Layout.sample_denotes⟩
  have large : decode capitals = .ok Invoice.sample :=
    decode_eq_ok_iff.mpr ⟨_, lowered_capitals, Layout.sample_denotes⟩
  have heads : head? (String.ofList Layout.sample.text) = head? capitals := by
    rw [head?, head?, text, lowered_capitals]
  obtain ⟨commits, alike⟩ :=
    lowered_eq_of_signingData_eq (String.ofList Layout.sample.text) capitals
  obtain ⟨fields, requests⟩ := commits _ _ small large heads rfl
  obtain ⟨same, _⟩ := requests rfl
  exact ⟨fields, same, alike same⟩

end Request
end LightningInvoice
