import LightningInvoice.Payload
import LightningInvoice.Proofs.Bytes
import LightningInvoice.Proofs.Radix

/-!
Routes and their bytes. A hop is written as 51 bytes and the 51 bytes are read as that hop, so a
payload is read as the hops whose bytes stand in it one after the other, and as nothing else. The
number of its bytes alone says whether there is a route at all.
-/
namespace LightningInvoice

namespace Hop

theorem length_bytes (hop : Hop) : hop.bytes.length = 51 := by
  simp only [bytes, List.length_append, Bytes.length_toList]

/-- The bytes of a hop, as many as a hop is read from. -/
def record (hop : Hop) : Bytes 51 := ⟨hop.bytes, hop.length_bytes⟩

theorem bytes_ofBytes (piece : Bytes 51) : (ofBytes piece).bytes = piece.toList := by
  unfold ofBytes bytes
  dsimp only
  -- Each word is as wide as the bytes it is read from, so writing it gives these bytes.
  rw [UInt64.toNat_ofNat_of_lt' (Bytes.number_lt _), UInt32.toNat_ofNat_of_lt' (Bytes.number_lt _),
    UInt32.toNat_ofNat_of_lt' (Bytes.number_lt _), UInt16.toNat_ofNat_of_lt' (Bytes.number_lt _)]
  simp only [Bytes.ofNumber_number]
  show piece.toList.take 33 ++ (piece.toList.drop 33).take 8 ++ (piece.toList.drop 41).take 4 ++
    (piece.toList.drop 45).take 4 ++ (piece.toList.drop 49).take 2 = piece.toList
  rw [← List.take_add, ← List.take_add, ← List.take_add, ← List.take_add]
  exact List.take_of_length_le (Nat.le_of_eq piece.length_toList)

theorem bytes_injective {a b : Hop} (h : a.bytes = b.bytes) : a = b := by
  unfold bytes at h
  obtain ⟨h, delta⟩ := Bytes.append_toList_inj h
  obtain ⟨h, proportional⟩ := Bytes.append_toList_inj h
  obtain ⟨h, base⟩ := Bytes.append_toList_inj h
  obtain ⟨node, channel⟩ := Bytes.append_toList_inj h
  have sameChannel := Bytes.eq_of_ofNumber_eq a.channel.toNat_lt b.channel.toNat_lt channel
  have sameBase := Bytes.eq_of_ofNumber_eq a.baseFee.toNat_lt b.baseFee.toNat_lt base
  have sameProportional := Bytes.eq_of_ofNumber_eq a.proportionalFee.toNat_lt
    b.proportionalFee.toNat_lt proportional
  have sameDelta := Bytes.eq_of_ofNumber_eq a.expiryDelta.toNat_lt b.expiryDelta.toNat_lt delta
  cases a
  cases b
  rw [Hop.mk.injEq]
  exact ⟨Bytes.ext node, UInt64.toNat_inj.mp sameChannel, UInt32.toNat_inj.mp sameBase,
    UInt32.toNat_inj.mp sameProportional, UInt16.toNat_inj.mp sameDelta⟩

theorem ofBytes_record (hop : Hop) : ofBytes hop.record = hop :=
  bytes_injective (bytes_ofBytes hop.record)

theorem pieces?_flatMap_bytes (hops : List Hop) :
    Bytes.pieces? 50 (hops.flatMap bytes) = some (hops.map record) := by
  rw [← Bytes.pieces?_flatMap_toList, List.flatMap_map]
  rfl

theorem listOfSymbols?_eq_some_iff {symbols : List Symbol} {hops : List Hop} :
    listOfSymbols? symbols = some hops ↔
      hops ≠ [] ∧ hops.flatMap bytes = pack .dropped symbols := by
  constructor
  · intro read
    unfold listOfSymbols? at read
    split at read
    · rename_i piece more cut
      obtain rfl := Option.some.inj read
      refine ⟨nofun, ?_⟩
      rw [List.flatMap_map, funext bytes_ofBytes]
      exact Bytes.flatMap_pieces? cut
    · simp at read
  · rintro ⟨nonempty, written⟩
    obtain ⟨hop, more, rfl⟩ := List.exists_cons_of_ne_nil nonempty
    rw [listOfSymbols?, ← written, pieces?_flatMap_bytes]
    show some (((hop :: more).map record).map ofBytes) = some (hop :: more)
    rw [List.map_map]
    exact congrArg some (List.map_id'' ofBytes_record (hop :: more))

theorem listOfSymbols?_eq_none_iff {symbols : List Symbol} :
    listOfSymbols? symbols = none ↔
      (pack .dropped symbols).length = 0 ∨ (pack .dropped symbols).length % 51 ≠ 0 := by
  rw [← Bytes.pieces?_eq_none_iff (n := 50), listOfSymbols?]
  cases cut : Bytes.pieces? 50 (pack .dropped symbols) with
  | none => simp
  | some pieces =>
    have length := Bytes.length_pieces? cut
    cases pieces with
    | nil => simpa using length
    | cons piece more => simp [length]

end Hop

namespace Payload

/-- A payload is read as a route if and only if its whole bytes are those of the hops, in order, and
there is a hop; any other payload is passed over. -/
theorem route_outcome (payload : List Symbol) :
    (∀ hops, route payload = .ok hops ↔
      hops ≠ [] ∧ hops.flatMap Hop.bytes = pack .dropped payload) ∧
    (route payload = .error .skip ↔
      ¬ ∃ hops : List Hop, hops ≠ [] ∧ hops.flatMap Hop.bytes = pack .dropped payload) := by
  simp only [← Hop.listOfSymbols?_eq_some_iff]
  unfold route
  cases Hop.listOfSymbols? payload with
  | none => simp
  | some hops => simp

end Payload
end LightningInvoice
