import LightningInvoice.Bytes

/-! Byte strings of a fixed length inside longer ones. Cutting bytes into pieces of one length loses
none of them, and pieces that are written one after the other are cut out again. -/
namespace LightningInvoice.Bytes
variable {n : Nat}

theorem append_toList_inj {front other : List UInt8} {a b : Bytes n}
    (h : front ++ a.toList = other ++ b.toList) : front = other ∧ a = b := by
  obtain ⟨before, last⟩ := List.append_inj' h (a.length_toList.trans b.length_toList.symm)
  exact ⟨before, Bytes.ext last⟩

theorem flatMap_pieces? {bytes : List UInt8} {pieces : List (Bytes (n + 1))}
    (h : pieces? n bytes = some pieces) : pieces.flatMap toList = bytes := by
  fun_induction pieces? n bytes generalizing pieces with
  | case1 =>
    obtain rfl := Option.some.inj h
    rfl
  | case2 bytes _ enough ih =>
    obtain ⟨more, rest, rfl⟩ := Option.map_eq_some_iff.mp h
    rw [List.flatMap_cons, ih rest]
    exact List.take_append_drop (n + 1) bytes
  | case3 => simp at h

theorem pieces?_flatMap_toList (pieces : List (Bytes (n + 1))) :
    pieces? n (pieces.flatMap toList) = some pieces := by
  induction pieces with
  | nil =>
    rw [pieces?]
    rfl
  | cons piece more ih =>
    have length := piece.length_toList
    have first : ((piece.toList ++ more.flatMap toList).drop 0).take (n + 1) = piece.toList :=
      List.take_left' length
    have nonempty : piece.toList ++ more.flatMap toList ≠ [] :=
      List.append_ne_nil_of_left_ne_nil (List.ne_nil_of_length_eq_add_one length) _
    have enough : n + 1 ≤ (piece.toList ++ more.flatMap toList).length := by
      rw [List.length_append, length]
      exact Nat.le_add_right _ _
    rw [List.flatMap_cons, pieces?, if_neg nonempty, dif_pos enough, List.drop_left' length, ih]
    exact congrArg (fun b => some (b :: more)) (Bytes.ext first)

theorem length_pieces? {bytes : List UInt8} {pieces : List (Bytes (n + 1))}
    (h : pieces? n bytes = some pieces) : bytes.length = pieces.length * (n + 1) := by
  rw [← flatMap_pieces? h, List.length_flatMap]
  simp only [length_toList, List.map_const', List.sum_replicate_nat]

theorem pieces?_eq_none_iff {bytes : List UInt8} :
    pieces? n bytes = none ↔ bytes.length % (n + 1) ≠ 0 := by
  fun_induction pieces? n bytes with
  | case1 => simp
  | case2 bytes _ enough ih =>
    rw [Option.map_eq_none_iff, ih, List.length_drop, ← Nat.mod_eq_sub_mod enough]
  | case3 bytes nonempty few =>
    rw [Nat.mod_eq_of_lt (Nat.lt_of_not_le few)]
    exact iff_of_true rfl fun none => nonempty (List.length_eq_zero_iff.mp none)

end LightningInvoice.Bytes
