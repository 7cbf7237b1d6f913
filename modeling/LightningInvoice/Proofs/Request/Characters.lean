import LightningInvoice.Request

/-!
The characters of a request. A text of symbols is read back from its lower-case form, it holds no
separator, and so the last separator of a request is the one in front of its data.
-/
namespace LightningInvoice

theorem toLower_of_not_upper {c : Char} (other : ¬ (c.val ≥ 'A'.val ∧ c.val ≤ 'Z'.val)) :
    c.toLower = c := dif_neg other

theorem toNat_toLower_of_upper {c : Char} (upper : c.val ≥ 'A'.val ∧ c.val ≤ 'Z'.val) :
    65 ≤ c.val.toNat ∧ c.val.toNat ≤ 90 ∧ c.toLower.val.toNat = c.val.toNat + 32 := by
  have shifted : c.toLower.val = c.val + ('a'.val - 'A'.val) := congrArg Char.val (dif_pos upper)
  have low := UInt32.le_iff_toNat_le.mp upper.1
  have high := UInt32.le_iff_toNat_le.mp upper.2
  have a : ('A'.val).toNat = 65 := rfl
  have z : ('Z'.val).toNat = 90 := rfl
  have shift : ('a'.val - 'A'.val).toNat = 32 := rfl
  rw [shifted, UInt32.toNat_add, shift]
  omega

theorem toLower_toLower (c : Char) : c.toLower.toLower = c.toLower := by
  by_cases upper : c.val ≥ 'A'.val ∧ c.val ≤ 'Z'.val
  · obtain ⟨low, _, shifted⟩ := toNat_toLower_of_upper upper
    apply toLower_of_not_upper
    intro again
    obtain ⟨_, high, _⟩ := toNat_toLower_of_upper again
    omega
  · rw [toLower_of_not_upper upper, toLower_of_not_upper upper]

theorem eq_separator_of_toLower {c : Char} (h : c.toLower = '1') : c = '1' := by
  by_cases upper : c.val ≥ 'A'.val ∧ c.val ≤ 'Z'.val
  · obtain ⟨low, _, shifted⟩ := toNat_toLower_of_upper upper
    have one : ('1'.val).toNat = 49 := rfl
    rw [h] at shifted
    omega
  · rwa [toLower_of_not_upper upper] at h

theorem separator_not_mem_map_toLower {text : List Char} (absent : '1' ∉ text) :
    '1' ∉ text.map Char.toLower := by
  intro member
  obtain ⟨c, inside, lower⟩ := List.mem_map.mp member
  rw [eq_separator_of_toLower lower] at inside
  exact absent inside

theorem map_toLower_map_toLower (text : List Char) :
    (text.map Char.toLower).map Char.toLower = text.map Char.toLower := by
  rw [List.map_map]
  exact List.map_congr_left fun c _ => toLower_toLower c

namespace Symbol

theorem toChar_injective {s t : Symbol} (h : toChar s = toChar t) : s = t :=
  Option.some.inj (by rw [← ofChar?_toChar s, h, ofChar?_toChar t])

theorem text_injective {a b : List Symbol} (h : text a = text b) : a = b :=
  (List.map_inj_right fun _ _ => toChar_injective).mp h

theorem map_toLower_text (symbols : List Symbol) :
    (text symbols).map Char.toLower = text symbols := by
  rw [text, List.map_map]
  exact List.map_congr_left fun s _ => toLower_toChar s

theorem toChar_ne_separator : ∀ s : Symbol, toChar s ≠ '1' := by decide

theorem separator_not_mem_text (symbols : List Symbol) : '1' ∉ text symbols := by
  intro member
  obtain ⟨s, _, same⟩ := List.mem_map.mp member
  exact toChar_ne_separator s same

theorem toChar_of_ofChar? {c : Char} {s : Symbol} (h : ofChar? c = some s) :
    toChar s = c.toLower := by
  obtain ⟨i, found, rfl⟩ := Option.map_eq_some_iff.mp h
  obtain ⟨lt, at_, _⟩ := List.idxOf?_eq_some_iff.mp found
  have value : (BitVec.ofNat 5 i).toNat = i := by
    rw [BitVec.toNat_ofNat]
    exact Nat.mod_eq_of_lt lt
  rw [← at_, toChar, List.get_eq_getElem]
  simp only [value]

theorem text_of_ofText {characters : List Char} {symbols : List Symbol}
    (h : ofText characters = .ok symbols) : text symbols = characters.map Char.toLower := by
  induction characters generalizing symbols with
  | nil =>
    obtain rfl := Except.ok.inj h
    rfl
  | cons c rest ih =>
    rw [ofText] at h
    split at h
    · exact absurd h (by simp)
    · rename_i s known
      cases later : ofText rest with
      | error d =>
        rw [later] at h
        exact absurd h (by simp [Except.map])
      | ok more =>
        rw [later] at h
        obtain rfl := Except.ok.inj h
        rw [List.map_cons, ← ih later, ← toChar_of_ofChar? known]
        rfl

theorem ofChar?_of_mem_text (symbols : List Symbol) :
    ∀ c ∈ text symbols, (ofChar? c).isSome := by
  intro c member
  obtain ⟨s, _, rfl⟩ := List.mem_map.mp member
  rw [ofChar?_toChar]
  rfl

theorem exists_ofText {characters : List Char} (known : ∀ c ∈ characters, (ofChar? c).isSome) :
    ∃ symbols, ofText characters = .ok symbols := by
  induction characters with
  | nil => exact ⟨[], rfl⟩
  | cons c rest ih =>
    obtain ⟨s, first⟩ := Option.isSome_iff_exists.mp (known c List.mem_cons_self)
    obtain ⟨symbols, later⟩ := ih fun d member => known d (List.mem_cons_of_mem _ member)
    exact ⟨s :: symbols, by rw [ofText, first, later]; rfl⟩

end Symbol

namespace Envelope

theorem splitLast_eq_none_iff {c : Char} {text : List Char} :
    splitLast c text = none ↔ c ∉ text := by
  induction text with
  | nil => simp [splitLast]
  | cons d rest ih =>
    rw [splitLast, List.mem_cons, not_or, ← ih]
    cases splitLast c rest with
    | some parts => simp
    | none => by_cases same : d = c <;> simp [same, Ne.symm]

theorem eq_of_splitLast {c : Char} {text before behind : List Char}
    (h : splitLast c text = some (before, behind)) :
    text = before ++ c :: behind ∧ c ∉ behind := by
  induction text generalizing before with
  | nil => exact absurd h (by simp [splitLast])
  | cons d rest ih =>
    rw [splitLast] at h
    split at h
    · rename_i front back later
      obtain ⟨rfl, rfl⟩ := Prod.mk.inj (Option.some.inj h)
      obtain ⟨whole, absent⟩ := ih later
      exact ⟨by rw [whole, List.cons_append], absent⟩
    · rename_i none
      split at h
      · rename_i same
        obtain ⟨rfl, rfl⟩ := Prod.mk.inj (Option.some.inj h)
        exact ⟨by rw [same, List.nil_append], splitLast_eq_none_iff.mp none⟩
      · exact absurd h (by simp)

theorem splitLast_append {c : Char} {behind : List Char} (absent : c ∉ behind)
    (before : List Char) : splitLast c (before ++ c :: behind) = some (before, behind) := by
  induction before with
  | nil => rw [List.nil_append, splitLast, splitLast_eq_none_iff.mpr absent, if_pos rfl]
  | cons d rest ih => rw [List.cons_append, splitLast, ih]

theorem map_toLower_of_splitLast {c : Char} {text before behind : List Char}
    (lower : text.map Char.toLower = text) (h : splitLast c text = some (before, behind)) :
    before.map Char.toLower = before ∧ behind.map Char.toLower = behind := by
  obtain ⟨rfl, _⟩ := eq_of_splitLast h
  rw [List.map_append, List.map_cons] at lower
  obtain ⟨front, back⟩ := List.append_inj lower (List.length_map _)
  exact ⟨front, (List.cons.inj back).2⟩

end Envelope
end LightningInvoice
