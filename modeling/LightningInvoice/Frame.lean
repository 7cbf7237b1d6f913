import LightningInvoice.Symbol

/-!
Framing of tagged fields. A framed field is the symbol of its code, two symbols for the length of
its payload, and the payload. `split` cuts a stream of symbols into framed fields as far as that
goes; `symbols_split` says that no symbol is lost.
-/
namespace LightningInvoice

/-- A tagged field that is cut out of the data but not yet interpreted. -/
structure Frame where
  code : Symbol
  payload : List Symbol
  length_lt : payload.length < 1024
  deriving DecidableEq

namespace Frame

def lengthSymbols (n : Nat) : List Symbol := [BitVec.ofNat 5 (n / 32), BitVec.ofNat 5 (n % 32)]

def symbols (f : Frame) : List Symbol := f.code :: lengthSymbols f.payload.length ++ f.payload

def declared (upper lower : Symbol) : Nat := upper.toNat * 32 + lower.toNat

theorem declared_lt (upper lower : Symbol) : declared upper lower < 1024 := by
  have := upper.isLt
  have := lower.isLt
  unfold declared
  omega

theorem lengthSymbols_declared (upper lower : Symbol) :
    lengthSymbols (declared upper lower) = [upper, lower] := by
  have := lower.isLt
  rw [lengthSymbols, declared, show (upper.toNat * 32 + lower.toNat) / 32 = upper.toNat by omega,
    show (upper.toNat * 32 + lower.toNat) % 32 = lower.toNat by omega]
  simp only [BitVec.ofNat_toNat, BitVec.setWidth_eq]

/-- Cuts the first field off a stream, if the whole of it is there. -/
def take? : List Symbol → Option (Frame × List Symbol)
  | code :: upper :: lower :: rest =>
    if declared upper lower ≤ rest.length then
      some (⟨code, rest.take (declared upper lower),
        Nat.lt_of_le_of_lt (List.length_take_le _ _) (declared_lt upper lower)⟩,
        rest.drop (declared upper lower))
    else none
  | _ => none

theorem symbols_take? {stream rest : List Symbol} {f : Frame} (h : take? stream = some (f, rest)) :
    f.symbols ++ rest = stream := by
  unfold take? at h
  split at h
  · rename_i code upper lower tail
    split at h
    · rename_i fits
      obtain ⟨rfl, rfl⟩ := Prod.mk.inj (Option.some.inj h)
      simp only [symbols, List.length_take, Nat.min_eq_left fits, lengthSymbols_declared,
        List.cons_append, List.nil_append, List.take_append_drop]
    · exact absurd h (by simp)
  · exact absurd h (by simp)

theorem length_rest_lt {stream rest : List Symbol} {f : Frame}
    (h : take? stream = some (f, rest)) : rest.length < stream.length := by
  rw [← symbols_take? h, symbols, List.length_append, List.length_append, List.length_cons]
  omega

/-- The framed fields at the start of a stream, and the symbols after the last of them. -/
def split (stream : List Symbol) : List Frame × List Symbol :=
  match _h : take? stream with
  | none => ([], stream)
  | some (f, rest) => (f :: (split rest).1, (split rest).2)
termination_by stream.length
decreasing_by all_goals exact length_rest_lt ‹_›

theorem symbols_split (stream : List Symbol) :
    (split stream).1.flatMap symbols ++ (split stream).2 = stream := by
  fun_induction split stream with
  | case1 => rfl
  | case2 stream f rest h ih => rw [List.flatMap_cons, List.append_assoc, ih, symbols_take? h]

end Frame
end LightningInvoice
