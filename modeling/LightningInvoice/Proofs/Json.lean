import LightningInvoice.Json

/-!
A JSON text can be read in one way. A string ends at the first quote that is not escaped, a number at
the first character that is no digit, and an array or an object at its closing bracket. So a value in
front of any text is determined by the two together, and values of one text are equal.
-/
namespace LightningInvoice.Json

/-! ### Strings -/

/-- Letters behind a backslash, with the characters that they stand for. -/
def letters : List (Char × Char) :=
  [('"', '"'), ('\\', '\\'), ('b', '\x08'), ('f', '\x0c'), ('n', '\n'), ('r', '\r'), ('t', '\t')]

/-- The ways in which a character is written. -/
inductive Escaped : Char → List Char → Prop
  | plain {c : Char} (quote : c ≠ '"') (backslash : c ≠ '\\') : Escaped c [c]
  | letter {l c : Char} (known : (l, c) ∈ letters) : Escaped c ['\\', l]
  | code {c : Char} (control : c.toNat < 0x20) :
      Escaped c ('\\' :: 'u' :: '0' :: '0' :: Hex.ofByte c.toNat.toUInt8)

theorem escaped (c : Char) : Escaped c (escape c) := by
  unfold escape
  split
  · rename_i special
    rw [Bool.or_eq_true, decide_eq_true_eq, decide_eq_true_eq] at special
    rcases special with rfl | rfl
    · exact .letter (by decide)
    · exact .letter (by decide)
  rename_i ordinary
  rw [Bool.or_eq_true, decide_eq_true_eq, decide_eq_true_eq, not_or] at ordinary
  repeat
    split
    · rename_i same
      subst same
      exact .letter (by decide)
  split
  · rename_i control
    exact .code control
  · exact .plain ordinary.1 ordinary.2

theorem letters_functional : ∀ p ∈ letters, ∀ q ∈ letters, p.1 = q.1 → p = q := by decide

theorem letters_ne_u : ∀ p ∈ letters, p.1 ≠ 'u' := by decide

theorem eq_of_control {c d : Char} (lowC : c.toNat < 0x20) (lowD : d.toNat < 0x20)
    (h : Hex.ofByte c.toNat.toUInt8 = Hex.ofByte d.toNat.toUInt8) : c = d := by
  have bytes : Hex.ofBytes [c.toNat.toUInt8] = Hex.ofBytes [d.toNat.toUInt8] := by
    rw [Hex.ofBytes, List.flatMap_singleton, h]
    rfl
  have codes := congrArg UInt8.toNat (List.cons.inj (Hex.ofBytes_injective bytes)).1
  rw [UInt8.toNat_ofNat_of_lt' (by show c.toNat < 256; omega),
    UInt8.toNat_ofNat_of_lt' (by show d.toNat < 256; omega)] at codes
  exact Char.toNat_inj.mp codes

/-- No way of writing a character is the beginning of another. -/
theorem Escaped.append_inj {c d : Char} {t u r s : List Char} (first : Escaped c t)
    (second : Escaped d u) (h : t ++ r = u ++ s) : c = d ∧ r = s := by
  cases first with
  | plain _ backslash =>
    cases second with
    | plain _ _ => exact List.cons.inj h
    | letter _ => exact absurd (List.cons.inj h).1 backslash
    | code _ => exact absurd (List.cons.inj h).1 backslash
  | letter known =>
    cases second with
    | plain _ backslash => exact absurd (List.cons.inj h).1.symm backslash
    | letter other =>
      obtain ⟨same, rest⟩ := List.cons.inj (List.cons.inj h).2
      exact ⟨congrArg Prod.snd (letters_functional _ known _ other same), rest⟩
    | code _ => exact absurd (List.cons.inj (List.cons.inj h).2).1 (letters_ne_u _ known)
  | code control =>
    cases second with
    | plain _ backslash => exact absurd (List.cons.inj h).1.symm backslash
    | letter known => exact absurd (List.cons.inj (List.cons.inj h).2).1.symm (letters_ne_u _ known)
    | code low =>
      simp only [List.cons_append, List.cons.injEq, true_and] at h
      obtain ⟨digits, rest⟩ := List.append_inj h rfl
      exact ⟨eq_of_control control low digits, rest⟩

theorem escape_append_ne (c : Char) (r s : List Char) : escape c ++ r ≠ '"' :: s := by
  intro h
  have form := escaped c
  generalize escape c = written at form h
  cases form with
  | plain quote _ => exact quote (List.cons.inj h).1
  | letter _ => simp at h
  | code _ => simp at h

theorem flatMap_escape_append_inj {a b r s : List Char}
    (h : a.flatMap escape ++ '"' :: r = b.flatMap escape ++ '"' :: s) : a = b ∧ r = s := by
  induction a generalizing b with
  | nil =>
    cases b with
    | nil => exact ⟨rfl, (List.cons.inj h).2⟩
    | cons d more =>
      rw [List.flatMap_cons, List.append_assoc] at h
      exact absurd h.symm (escape_append_ne d _ _)
  | cons c rest ih =>
    cases b with
    | nil =>
      rw [List.flatMap_cons, List.append_assoc] at h
      exact absurd h (escape_append_ne c _ _)
    | cons d more =>
      rw [List.flatMap_cons, List.flatMap_cons, List.append_assoc, List.append_assoc] at h
      obtain ⟨rfl, later⟩ := (escaped c).append_inj (escaped d) h
      obtain ⟨rfl, same⟩ := ih later
      exact ⟨rfl, same⟩

theorem quote_append_inj {a b r s : List Char} (h : quote a ++ r = quote b ++ s) :
    a = b ∧ r = s := by
  simp only [quote, List.cons_append, List.append_assoc, List.cons.injEq, true_and,
    List.nil_append] at h
  exact flatMap_escape_append_inj h

/-! ### Numbers -/

/-- A text that does not go on with a digit. -/
def Ends (text : List Char) : Prop := ∀ c rest, text = c :: rest → c.isDigit = false

theorem ends_cons {c : Char} (other : c.isDigit = false) (rest : List Char) : Ends (c :: rest) := by
  intro d more same
  rw [← (List.cons.inj same).1]
  exact other

theorem takeWhile_toDigits_append {r : List Char} (ends : Ends r) (n : Nat) :
    (Nat.toDigits 10 n ++ r).takeWhile Char.isDigit = Nat.toDigits 10 n := by
  have digits : ∀ c ∈ Nat.toDigits 10 n, c.isDigit = true := fun c member =>
    Nat.isDigit_of_mem_toDigits (by decide) (by decide) member
  rw [List.takeWhile_append_of_pos digits]
  cases r with
  | nil => exact List.append_nil _
  | cons c rest => simp [ends c rest rfl]

theorem toDigits_inj {m n : Nat} (h : Nat.toDigits 10 m = Nat.toDigits 10 n) : m = n := by
  have numbers := congrArg (Nat.ofDigitChars 10 · 0) h
  simpa only [Nat.ofDigitChars_ten_toDigits] using numbers

theorem toDigits_append_inj {m n : Nat} {r s : List Char} (endsR : Ends r) (endsS : Ends s)
    (h : Nat.toDigits 10 m ++ r = Nat.toDigits 10 n ++ s) : m = n ∧ r = s := by
  have digits := congrArg (List.takeWhile Char.isDigit) h
  rw [takeWhile_toDigits_append endsR, takeWhile_toDigits_append endsS] at digits
  obtain rfl := toDigits_inj digits
  exact ⟨rfl, List.append_cancel_left h⟩

/-! ### Values -/

inductive Kind where
  | number
  | string
  | array
  | object

def kind : Json → Kind
  | .number _ => .number
  | .string _ => .string
  | .array _ => .array
  | .object _ => .object

/-- The kind of the values whose text begins with a character. -/
def Kind.ofChar (c : Char) : Kind :=
  if c = '"' then .string else if c = '[' then .array else if c = '\x7b' then .object else .number

theorem exists_render_eq_cons (j : Json) :
    ∃ c rest, j.render = c :: rest ∧ Kind.ofChar c = j.kind ∧ c ≠ ']' := by
  match j with
  | .number n =>
    cases text : Nat.toDigits 10 n with
    | nil => exact absurd text Nat.toDigits_ne_nil
    | cons c rest =>
      have digit : c.isDigit = true :=
        Nat.isDigit_of_mem_toDigits (b := 10) (n := n) (by decide) (by decide) (by simp [text])
      refine ⟨c, rest, by rw [render, text], ?_, ?_⟩
      · unfold Kind.ofChar
        repeat
          split
          · rename_i same
            subst same
            exact absurd digit (by decide)
        rfl
      · rintro rfl
        exact absurd digit (by decide)
  | .string s => exact ⟨'"', _, rfl, rfl, by decide⟩
  | .array [] => exact ⟨'[', _, by rw [render], rfl, by decide⟩
  | .array (_ :: _) => exact ⟨'[', _, by rw [render, List.cons_append], rfl, by decide⟩
  | .object [] => exact ⟨'\x7b', _, by rw [render], rfl, by decide⟩
  | .object (_ :: _) => exact ⟨'\x7b', _, by rw [render, List.cons_append], rfl, by decide⟩

theorem kind_eq_of_render_append_eq {a b : Json} {r s : List Char}
    (h : a.render ++ r = b.render ++ s) : a.kind = b.kind := by
  obtain ⟨c, restA, textA, kindA, _⟩ := exists_render_eq_cons a
  obtain ⟨d, restB, textB, kindB, _⟩ := exists_render_eq_cons b
  rw [textA, textB] at h
  rw [← kindA, ← kindB, (List.cons.inj h).1]

theorem render_append_ne (j : Json) (r s : List Char) : j.render ++ r ≠ ']' :: s := by
  obtain ⟨c, rest, text, _, open_⟩ := exists_render_eq_cons j
  rw [text]
  intro h
  exact open_ (List.cons.inj h).1

theorem ends_renderItems (items : List Json) (r : List Char) : Ends (renderItems items ++ r) := by
  cases items with
  | nil =>
    rw [renderItems]
    exact ends_cons (by decide) _
  | cons item more =>
    rw [renderItems]
    exact ends_cons (by decide) _

theorem ends_renderMembers (members : List (String × Json)) (r : List Char) :
    Ends (renderMembers members ++ r) := by
  cases members with
  | nil =>
    rw [renderMembers]
    exact ends_cons (by decide) _
  | cons member more =>
    rw [renderMembers]
    exact ends_cons (by decide) _

/-- Arrays of one text have one text behind a comma as well. -/
theorem renderItems_eq_of_array {a b : List Json} {r s : List Char}
    (h : render (.array a) ++ r = render (.array b) ++ s) :
    renderItems a ++ r = renderItems b ++ s := by
  cases a with
  | nil =>
    cases b with
    | nil => simpa [render, renderItems] using h
    | cons item more =>
      simp only [render, List.cons_append, List.append_assoc, List.cons.injEq, true_and,
        List.nil_append] at h
      exact absurd h.symm (render_append_ne item _ _)
  | cons item rest =>
    cases b with
    | nil =>
      simp only [render, List.cons_append, List.append_assoc, List.cons.injEq, true_and,
        List.nil_append] at h
      exact absurd h (render_append_ne item _ _)
    | cons other more => simpa [render, renderItems] using h

theorem renderMember_append_ne (member : String × Json) (r s : List Char) :
    renderMember member ++ r ≠ '\x7d' :: s := by
  obtain ⟨name, value⟩ := member
  simp [renderMember, quote]

theorem renderMembers_eq_of_object {a b : List (String × Json)} {r s : List Char}
    (h : render (.object a) ++ r = render (.object b) ++ s) :
    renderMembers a ++ r = renderMembers b ++ s := by
  cases a with
  | nil =>
    cases b with
    | nil => simpa [render, renderMembers] using h
    | cons member more =>
      simp only [render, List.cons_append, List.append_assoc, List.cons.injEq, true_and,
        List.nil_append] at h
      exact absurd h.symm (renderMember_append_ne member _ _)
  | cons member rest =>
    cases b with
    | nil =>
      simp only [render, List.cons_append, List.append_assoc, List.cons.injEq, true_and,
        List.nil_append] at h
      exact absurd h (renderMember_append_ne member _ _)
    | cons other more => simpa [render, renderMembers] using h

mutual

theorem render_append_inj : ∀ (a b : Json) (r s : List Char), Ends r → Ends s →
    render a ++ r = render b ++ s → a = b ∧ r = s
  | .number m, b, r, s, endsR, endsS, h => by
    have kinds := kind_eq_of_render_append_eq h
    cases b with
    | number n =>
      obtain ⟨rfl, rest⟩ := toDigits_append_inj endsR endsS h
      exact ⟨rfl, rest⟩
    | _ => simp [kind] at kinds
  | .string t, b, r, s, _, _, h => by
    have kinds := kind_eq_of_render_append_eq h
    cases b with
    | string u =>
      obtain ⟨same, rest⟩ := quote_append_inj h
      rw [String.toList_inj.mp same]
      exact ⟨rfl, rest⟩
    | _ => simp [kind] at kinds
  | .array items, b, r, s, _, _, h => by
    have kinds := kind_eq_of_render_append_eq h
    cases b with
    | array others =>
      obtain ⟨rfl, rest⟩ := renderItems_append_inj items others r s (renderItems_eq_of_array h)
      exact ⟨rfl, rest⟩
    | _ => simp [kind] at kinds
  | .object members, b, r, s, _, _, h => by
    have kinds := kind_eq_of_render_append_eq h
    cases b with
    | object others =>
      obtain ⟨rfl, rest⟩ :=
        renderMembers_append_inj members others r s (renderMembers_eq_of_object h)
      exact ⟨rfl, rest⟩
    | _ => simp [kind] at kinds

theorem renderItems_append_inj : ∀ (a b : List Json) (r s : List Char),
    renderItems a ++ r = renderItems b ++ s → a = b ∧ r = s
  | [], [], r, s, h => ⟨rfl, (List.cons.inj h).2⟩
  | [], _ :: _, r, s, h => by
    simp [renderItems] at h
  | _ :: _, [], r, s, h => by
    simp [renderItems] at h
  | item :: items, other :: others, r, s, h => by
    simp only [renderItems, List.cons_append, List.append_assoc, List.cons.injEq, true_and] at h
    obtain ⟨rfl, later⟩ := render_append_inj item other _ _ (ends_renderItems items r)
      (ends_renderItems others s) h
    obtain ⟨rfl, rest⟩ := renderItems_append_inj items others r s later
    exact ⟨rfl, rest⟩

theorem renderMember_append_inj : ∀ (a b : String × Json) (r s : List Char), Ends r → Ends s →
    renderMember a ++ r = renderMember b ++ s → a = b ∧ r = s
  | (name, value), (otherName, other), r, s, endsR, endsS, h => by
    simp only [renderMember, List.append_assoc, List.cons_append] at h
    obtain ⟨names, values⟩ := quote_append_inj h
    obtain ⟨rfl, rest⟩ := render_append_inj value other r s endsR endsS (List.cons.inj values).2
    rw [String.toList_inj.mp names]
    exact ⟨rfl, rest⟩

theorem renderMembers_append_inj : ∀ (a b : List (String × Json)) (r s : List Char),
    renderMembers a ++ r = renderMembers b ++ s → a = b ∧ r = s
  | [], [], r, s, h => ⟨rfl, (List.cons.inj h).2⟩
  | [], _ :: _, r, s, h => by
    simp [renderMembers] at h
  | _ :: _, [], r, s, h => by
    simp [renderMembers] at h
  | member :: members, other :: others, r, s, h => by
    simp only [renderMembers, List.cons_append, List.append_assoc, List.cons.injEq, true_and] at h
    obtain ⟨rfl, later⟩ := renderMember_append_inj member other _ _ (ends_renderMembers members r)
      (ends_renderMembers others s) h
    obtain ⟨rfl, rest⟩ := renderMembers_append_inj members others r s later
    exact ⟨rfl, rest⟩

end

theorem render_injective {a b : Json} (h : a.render = b.render) : a = b := by
  have ends : Ends [] := by
    intro c rest none
    simp at none
  exact (render_append_inj a b [] [] ends ends (by rw [h])).1

end LightningInvoice.Json
