import LightningInvoice.Proofs.Checksum.Head
import LightningInvoice.Proofs.Request.Commitment
import LightningInvoice.Proofs.Request.Corruption

/-!
A wrong character in the head of a request, in the letters of the network or in the amount. The
separator stays where it was, even if the wrong character is a separator; then either the head is no
longer in ASCII or one of its bytes is wrong, and both are blamed on the checksum.
-/
namespace LightningInvoice

theorem Envelope.ofParts_of_head {head : List Char} {data : List Symbol}
    (long : Checksum.width ≤ data.length)
    (damaged : isAscii head = true → Checksum.verify head data = false) :
    ofParts head data = .error .wrongChecksum := by
  unfold ofParts
  rw [if_neg (Nat.not_lt.mpr long)]
  cases ascii : isAscii head with
  | false => simp
  | true => simp [damaged ascii]

namespace Request

theorem encode_set_ne_iff {head : List Char} {i : Nat} {c : Char} (inside : i < head.length)
    (other : c ≠ head[i]) (ascii : Envelope.isAscii head = true)
    (still : Envelope.isAscii (head.set i c) = true) (k : Nat) :
    (Utf8.encode head)[k]? ≠ (Utf8.encode (head.set i c))[k]? ↔ k = i := by
  rw [encode_of_isAscii ascii, encode_of_isAscii still, List.map_set]
  constructor
  · intro differs
    by_contra elsewhere
    rw [List.getElem?_set_ne (Ne.symm elsewhere)] at differs
    exact differs rfl
  · rintro rfl
    rw [List.getElem?_set_self (by rwa [List.length_map]), List.getElem?_map,
      List.getElem?_eq_getElem inside]
    unfold Envelope.isAscii at ascii still
    rw [List.all_eq_true] at ascii still
    have before := ascii _ (List.getElem_mem inside)
    have after := still c (List.mem_set inside c)
    rw [decide_eq_true_eq] at before after
    intro same
    have codes := congrArg UInt8.toNat (Option.some.inj same)
    rw [UInt8.toNat_ofNat_of_lt' (by show head[k].toNat < 256; omega),
      UInt8.toNat_ofNat_of_lt' (by show c.toNat < 256; omega)] at codes
    exact other (Char.toNat_inj.mp codes.symm)

theorem read_head_set {l : Layout} {inv : Invoice} (denotes : l.Denotes inv) {i : Nat} {c : Char}
    (inside : i < l.head.length) (other : c ≠ l.head[i]) :
    Envelope.read (l.head.set i c ++ '1' :: Symbol.text (l.body ++ l.checksum)) =
      .error .wrongChecksum := by
  have width := denotes.spells.checksum_length
  have valid : Checksum.verify l.head (l.body ++ l.checksum) = true :=
    (Checksum.verify_append_iff width).mpr rfl
  have ascii := isAscii_of_plain (plain_of_parse denotes.human)
  have short := length_of_parse denotes.human
  rw [Envelope.read, Envelope.splitLast_append (Symbol.separator_not_mem_text _)]
  dsimp only
  rw [Symbol.ofText_text]
  apply Envelope.ofParts_of_head
  · rw [List.length_append, width]
    exact Nat.le_add_left _ _
  · intro still
    have bytes := congrArg List.length (encode_of_isAscii ascii)
    have bytesAfter := congrArg List.length (encode_of_isAscii still)
    rw [List.length_map] at bytes bytesAfter
    rw [List.length_set] at bytesAfter
    exact Checksum.not_verify_of_byte (by omega) (bytes.trans bytesAfter.symm)
      (encode_set_ne_iff inside other ascii still) valid

/-- If a request is read, then a request with another character in its head, be it of any kind but
not the same letter in the other case, is refused for its checksum. What is behind it: two heads of
at most 1021 bytes that differ in one byte never have a valid checksum with the same data. -/
theorem decode_of_head_changed :
    (∀ (request : String) (inv : Invoice) (before behind : List Char),
      decode request = .ok inv → request.toList = before ++ '1' :: behind → '1' ∉ behind →
      ∀ (i : Nat) (c : Char) (_ : i < before.length), c.toLower ≠ before[i].toLower →
        decode (String.ofList (before.set i c ++ '1' :: behind)) = .error .wrongChecksum) ∧
    (∀ (a b : List Char) (i : Nat) (data : List Symbol), (Utf8.encode a).length ≤ 1021 →
      (Utf8.encode a).length = (Utf8.encode b).length →
      (∀ k, (Utf8.encode a)[k]? ≠ (Utf8.encode b)[k]? ↔ k = i) →
        ¬ (Checksum.verify a data = true ∧ Checksum.verify b data = true)) := by
  constructor
  · intro request inv before behind read whole absent i c inside other
    obtain ⟨l, text, denotes⟩ := decode_eq_ok_iff.mp read
    have spells := denotes.spells
    have lower := separator_not_mem_map_toLower absent
    have separator : Char.toLower '1' = '1' := rfl
    -- The separator stands where it stood, even if `c` is one, and behind it stand the same data.
    rw [← text, lowered, whole, List.map_append, List.map_cons, separator] at spells
    have cut := (Envelope.splitLast_append lower (before.map Char.toLower)).symm.trans
      spells.splitLast
    obtain ⟨head, data⟩ := Prod.mk.inj (Option.some.inj cut)
    have changed : lowered (String.ofList (before.set i c ++ '1' :: behind)) =
        l.head.set i c.toLower ++ '1' :: Symbol.text (l.body ++ l.checksum) := by
      rw [lowered, String.toList_ofList, List.map_append, List.map_cons, separator, List.map_set,
        head, data]
    have place : i < l.head.length := by
      rw [← head, List.length_map]
      exact inside
    have differs : c.toLower ≠ l.head[i] := by simpa [← head] using other
    apply decode_of_read_error
    rw [changed]
    exact read_head_set denotes place differs
  · rintro a b i data short lengths single ⟨valid, still⟩
    rw [Checksum.not_verify_of_byte short lengths single valid] at still
    exact absurd still (by simp)

theorem capitals_toList : capitals.toList = Layout.sample.head.map Char.toUpper ++
    '1' :: (Symbol.text (Layout.sample.body ++ Layout.sample.checksum)).map Char.toUpper := by
  rw [capitals, String.toList_ofList, Layout.text, List.map_append, List.map_cons]
  rfl

/-- A separator in the place of the multiplier, and the letters of another network. -/
theorem decode_head_changed_sample :
    decode (String.ofList (['L', 'N', 'B', 'C', '1', '1', '1'] ++ '1' ::
      (Symbol.text (Layout.sample.body ++ Layout.sample.checksum)).map Char.toUpper)) =
        .error .wrongChecksum ∧
    ¬ (Checksum.verify ['l', 'n', 'b', 'c'] Layout.sample.body = true ∧
      Checksum.verify ['l', 'n', 't', 'c'] Layout.sample.body = true) := by
  obtain ⟨refused, never⟩ := decode_of_head_changed
  have read : decode capitals = .ok Invoice.sample :=
    decode_eq_ok_iff.mpr ⟨_, lowered_capitals, Layout.sample_denotes⟩
  have absent : '1' ∉
      (Symbol.text (Layout.sample.body ++ Layout.sample.checksum)).map Char.toUpper := by
    decide +kernel
  constructor
  · exact refused _ _ _ _ read capitals_toList absent 6 '1' (by decide) (by decide)
  · have network : ∀ k, (Utf8.encode ['l', 'n', 'b', 'c'])[k]? ≠
        (Utf8.encode (['l', 'n', 'b', 'c'].set 2 't'))[k]? ↔ k = 2 :=
      encode_set_ne_iff (by decide) (by decide) (by decide) (by decide)
    exact never _ _ 2 _ (by decide) (by decide) network

end Request
end LightningInvoice
