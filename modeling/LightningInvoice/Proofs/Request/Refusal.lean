import LightningInvoice.Proofs.Amount
import LightningInvoice.Proofs.Request.Fields
import LightningInvoice.Request

/-!
Passing over a field is a matter between a field and its reader: no request is refused with it.
-/
namespace LightningInvoice

theorem Amount.parse_ne_skip (text : List Char) : Amount.parse text ≠ .error .skip := by
  intro h
  cases parse_eq_iff_reading.mp h

theorem HumanReadable.parse_ne_skip (head : List Char) :
    HumanReadable.parse head ≠ .error .skip := by
  unfold HumanReadable.parse
  split
  · simp
  · split
    · simp
    · rename_i e refused
      intro same
      exact Amount.parse_ne_skip _ (refused.trans (congrArg _ (Except.error.inj same)))

theorem Envelope.read_ne_skip (text : List Char) : Envelope.read text ≠ .error .skip := by
  unfold Envelope.read Envelope.ofParts
  repeat' split
  all_goals simp

theorem Policy.violation?_ne_skip (policy : Policy) (request : List Char) :
    policy.violation? request ≠ some .skip := by
  obtain ⟨mixed, limit⟩ := policy
  unfold violation? tooLong? mixedCase?
  cases limit with
  | none => simp
  | some n =>
    simp only [Option.bind_some]
    split
    · simp
    · split <;> simp

theorem Signature.ofSymbols_ne_skip (symbols : List Symbol) :
    Signature.ofSymbols symbols ≠ .error .skip := by
  unfold Signature.ofSymbols
  dsimp only
  repeat' split
  all_goals simp

theorem Report.result_ofFrames_ne_skip {last : Except ParseError (List Tag)}
    (final : last ≠ .error .skip) (frames : List Frame) :
    (ofFrames last frames).result ≠ .error .skip := by
  rcases Frame.readable_or_refused frames with
    readable | ⟨before, f, after, e, rfl, early, refused, fatal⟩
  · rw [ofFrames_of_readable readable]
    cases last with
    | ok tags => simp [Except.map]
    | error e => simpa [Except.map] using final
  · rw [ofFrames_append early, ofFrames_refuse refused fatal]
    simpa [Except.map] using fatal

theorem Report.result_ofStream_ne_skip (stream : List Symbol) :
    (ofStream stream).result ≠ .error .skip := by
  apply result_ofFrames_ne_skip
  split <;> simp

namespace Request

theorem result_decodeUnder_ne_skip (policy : Policy) (request : String) :
    (decodeUnder policy request).result ≠ .error .skip := by
  unfold decodeUnder
  split
  · rename_i e broken
    rintro ⟨⟩
    exact Policy.violation?_ne_skip _ _ broken
  split
  · rename_i e refused
    rintro ⟨⟩
    exact Envelope.read_ne_skip _ refused
  split
  · rename_i e refused
    rintro ⟨⟩
    exact HumanReadable.parse_ne_skip _ refused
  unfold interpret
  split
  · simp
  dsimp only
  split
  · rename_i e refused
    rintro ⟨⟩
    exact Report.result_ofStream_ne_skip _ refused
  split
  · rename_i e refused
    rintro ⟨⟩
    exact Signature.ofSymbols_ne_skip _ refused
  · simp

end Request
end LightningInvoice
