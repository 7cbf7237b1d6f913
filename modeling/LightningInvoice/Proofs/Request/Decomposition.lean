import LightningInvoice.Proofs.Request.Reading

/-!
What is read is what was written. A request that is put together from parts that can be interpreted
is read as an invoice with exactly these parts; and every request that is read can be taken apart
in one way, into parts that determine the invoice.
-/
namespace LightningInvoice

/-- The text is that of the layout, with six given symbols for the checksum. -/
structure Layout.Spells (l : Layout) (checksum : List Symbol) (text : List Char) : Prop where
  timestamp_length : l.timestamp.length = 7
  signature_length : l.signature.length = 104
  checksum_length : checksum.length = 6
  text_eq : text = l.head ++ '1' :: Symbol.text (l.body ++ checksum)

theorem Layout.Denotes.spells {l : Layout} {inv : Invoice} (denotes : l.Denotes inv) :
    l.Spells l.checksum l.text :=
  ⟨denotes.seven, Signature.length_of_ofSymbols denotes.signature, Checksum.length_create _ _, rfl⟩

theorem Layout.Spells.splitLast {l : Layout} {checksum : List Symbol} {text : List Char}
    (h : l.Spells checksum text) :
    Envelope.splitLast '1' text = some (l.head, Symbol.text (l.body ++ checksum)) := by
  rw [h.text_eq]
  exact Envelope.splitLast_append (Symbol.separator_not_mem_text _) l.head

theorem Layout.eq_of_signed_eq {l m : Layout} (seven : l.timestamp.length = m.timestamp.length)
    (signed : l.signed = m.signed) : l.timestamp = m.timestamp ∧ l.fields = m.fields := by
  obtain ⟨timestamp, stream⟩ := List.append_inj signed seven
  have nothing : Frame.take? [] = none := rfl
  have streams : l.fields.flatMap Frame.symbols ++ [] = m.fields.flatMap Frame.symbols ++ [] := by
    rw [stream]
  obtain ⟨fields, _⟩ := Frame.flatMap_symbols_injective nothing nothing streams
  exact ⟨timestamp, fields⟩

theorem Layout.ext_of_signed {l m : Layout} (head : l.head = m.head)
    (seven : l.timestamp.length = m.timestamp.length) (signed : l.signed = m.signed)
    (signature : l.signature = m.signature) : l = m := by
  obtain ⟨timestamp, fields⟩ := Layout.eq_of_signed_eq seven signed
  obtain ⟨_, _, _, _⟩ := l
  obtain ⟨_, _, _, _⟩ := m
  rw [Layout.mk.injEq]
  exact ⟨head, timestamp, fields, signature⟩

theorem Layout.Spells.unique {l m : Layout} {c d : List Symbol} {text : List Char}
    (first : l.Spells c text) (second : m.Spells d text) : l = m ∧ c = d := by
  have cut := first.splitLast.symm.trans second.splitLast
  obtain ⟨head, data⟩ := Prod.mk.inj (Option.some.inj cut)
  obtain ⟨body, checksum⟩ := List.append_inj' (Symbol.text_injective data)
    (by rw [first.checksum_length, second.checksum_length])
  obtain ⟨signed, signature⟩ := List.append_inj' body (by rw [first.signature_length, second.signature_length])
  exact ⟨Layout.ext_of_signed head (by rw [first.timestamp_length, second.timestamp_length]) signed signature,
    checksum⟩

theorem Layout.denotes_compose {head : List Char} {human : HumanReadable} {timestamp : Nat}
    {fields : List Frame} {sig : Signature} (read : HumanReadable.parse head = .ok human)
    (early : timestamp < 2 ^ 35) (readable : ∀ f ∈ fields, f.Readable)
    (low : sig.recoveryFlag ≤ 3) :
    (compose head timestamp fields sig).Denotes
      { human := human
        timestamp := UInt64.ofNat timestamp
        tags := Frame.kept fields
        signature := sig
        signingData := Utf8.encode head ++ pack .padded (compose head timestamp fields sig).signed
        checksum := String.ofList (Symbol.text (compose head timestamp fields sig).checksum) } := by
  have number : Symbol.number (Symbol.ofNumber Request.timestampWidth timestamp) = timestamp := by
    rw [Symbol.number_ofNumber]
    exact Nat.mod_eq_of_lt early
  refine ⟨Symbol.length_ofNumber _ _, read, ?_, readable, rfl, Signature.ofSymbols_symbols low, rfl,
    rfl⟩
  rw [compose, number]
  exact UInt64.toNat_ofNat_of_lt' (Nat.lt_trans early (by decide))

/-- A request at the last moment that a request can name, for an amount that holds the separator,
with a field to keep as it stands, one to pass over and one to read. -/
def Layout.sample : Layout :=
  compose ['l', 'n', 'b', 'c', '1', '1', 'm'] 34359738367
    [⟨2, [31, 0], by decide⟩, ⟨1, [5], by decide⟩, ⟨6, [1, 28], by decide⟩]
    ⟨⟨List.replicate 32 17, rfl⟩, ⟨List.replicate 32 34, rfl⟩, 3⟩

def Invoice.sample : Invoice where
  human := ⟨.bitcoin, .msat 1100000000⟩
  timestamp := 34359738367
  tags := [.unknown ⟨2, [31, 0]⟩, .expiry 60]
  signature := ⟨⟨List.replicate 32 17, rfl⟩, ⟨List.replicate 32 34, rfl⟩, 3⟩
  signingData := [108, 110, 98, 99, 49, 49, 109, 255, 255, 255, 255, 226, 0, 190, 0, 128, 37, 48, 4,
    30, 0]
  checksum := String.ofList ['6', 'j', '3', 'j', 'm', 't']

theorem Layout.sample_denotes : sample.Denotes Invoice.sample where
  seven := rfl
  human := rfl
  timestamp := by decide
  readable := by decide
  tags := by decide
  signature := Signature.ofSymbols_symbols (by decide)
  signingData := by decide +kernel
  checksum := congrArg String.ofList (by decide +kernel)

namespace Request

/-- Reading undoes writing: a head that can be read, a point in time, fields of which none is
refused and a signature come back from the request that is composed of them. -/
theorem decode_compose {head : List Char} {human : HumanReadable} {timestamp : Nat}
    {fields : List Frame} {sig : Signature} (read : HumanReadable.parse head = .ok human)
    (early : timestamp < 2 ^ 35)
    (readable : ∀ f ∈ fields, (∃ t, Tag.ofField f.symbols = .ok t) ∨
      Tag.ofField f.symbols = .error .skip)
    (low : sig.recoveryFlag ≤ 3) :
    decode (String.ofList (Layout.compose head timestamp fields sig).text) = .ok
      { human := human
        timestamp := UInt64.ofNat timestamp
        tags := fields.filterMap fun f => (Tag.ofField f.symbols).toOption
        signature := sig
        signingData :=
          Utf8.encode head ++ pack .padded (Layout.compose head timestamp fields sig).signed
        checksum :=
          String.ofList (Symbol.text (Layout.compose head timestamp fields sig).checksum) } := by
  have denotes := Layout.denotes_compose read early readable low
  exact decode_eq_ok_iff.mpr ⟨_, lowered_text denotes, denotes⟩

theorem decode_sample : decode (String.ofList Layout.sample.text) = .ok Invoice.sample := by
  have early : 34359738367 < 2 ^ 35 := by decide
  have low : Invoice.sample.signature.recoveryFlag ≤ 3 := by decide
  have written := Layout.denotes_compose Layout.sample_denotes.human early
    Layout.sample_denotes.readable low
  have read := decode_compose Layout.sample_denotes.human early Layout.sample_denotes.readable low
  exact read.trans (congrArg Except.ok (written.unique Layout.sample_denotes))

def capitals : String := String.ofList (Layout.sample.text.map Char.toUpper)

theorem lowered_capitals : lowered capitals = Layout.sample.text := by
  rw [lowered, capitals, String.toList_ofList]
  decide +kernel

end Request
end LightningInvoice
