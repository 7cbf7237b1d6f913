import LightningInvoice.HumanReadable
import LightningInvoice.Proofs.Amount
import Mathlib.Data.Set.Subsingleton

/-!
Heads. The letters of one network may open those of another, and the reader settles for the network
with the most letters that open a head. No reading is lost by that, and no head has two: the letters
that are left over hold no digit, while every amount that is written starts with one.
-/
namespace LightningInvoice

theorem Amount.isDigit_of_parse_cons {c : Char} {rest : List Char} {amount : Amount}
    (read : parse (c :: rest) = .ok amount) : c.isDigit = true := by
  cases parse_eq_iff_reading.mp read with
  | unspecified nothing => simp at nothing
  | msat denotes =>
    obtain ⟨digits, multiplier, whole, numeral, _⟩ := denotes
    obtain ⟨d, more, rfl⟩ := List.exists_cons_of_ne_nil numeral.ne_nil
    rw [List.cons_append] at whole
    rw [(List.cons.inj whole).1]
    exact numeral.isDigit d List.mem_cons_self

namespace Network

theorem lead_injective {n m : Network} (h : n.lead = m.lead) : n = m := by
  have distinct : ∀ n ∈ all, ∀ m ∈ all, n.lead = m.lead → n = m := by decide
  exact distinct n n.mem_all m m.mem_all h

theorem isDigit_of_mem_lead {n : Network} {c : Char} (h : c ∈ n.lead) : c.isDigit = false := by
  have letters : n.lead.all (fun c => !c.isDigit) = true := by cases n <;> rfl
  simpa using List.all_eq_true.mp letters c h

/-- A network with an amount behind it gives way to no network with more letters. -/
theorem eq_of_lead_append_eq {n m : Network} {text rest : List Char} {amount : Amount}
    (read : Amount.parse text = .ok amount) (longer : n.lead.length ≤ m.lead.length)
    (same : n.lead ++ text = m.lead ++ rest) : n = m ∧ text = rest := by
  obtain ⟨left, lead, rfl⟩ : ∃ left, m.lead = n.lead ++ left ∧ text = left ++ rest := by
    rcases List.append_eq_append_iff.mp same with found | ⟨left, lead, rfl⟩
    · exact found
    · rw [lead, List.length_append] at longer
      obtain rfl : left = [] := List.length_eq_zero_iff.mp (by omega)
      exact ⟨[], by rw [lead, List.append_nil, List.append_nil], rfl⟩
  cases left with
  | nil =>
    rw [List.append_nil] at lead
    exact ⟨lead_injective lead.symm, rfl⟩
  | cons c left =>
    have letter : c.isDigit = false := isDigit_of_mem_lead (n := m) (by simp [lead])
    have digit : c.isDigit = true := Amount.isDigit_of_parse_cons read
    exact absurd digit (by simp [letter])

theorem exists_eq_append_of_opening? {text : List Char} {network : Network}
    (h : opening? text = some network) : ∃ rest, text = network.lead ++ rest := by
  have member := List.maxOn?_mem h
  obtain ⟨rest, whole⟩ := List.isPrefixOf_iff_prefix.mp (List.mem_filter.mp member).2
  exact ⟨rest, whole.symm⟩

/-- Some network opens the text, and none that opens it has more letters. -/
theorem exists_opening? (n : Network) (text : List Char) :
    ∃ m, opening? (n.lead ++ text) = some m ∧ n.lead.length ≤ m.lead.length := by
  have member : n ∈ all.filter fun m => m.lead.isPrefixOf (n.lead ++ text) :=
    List.mem_filter.mpr
      ⟨n.mem_all, List.isPrefixOf_iff_prefix.mpr (List.prefix_append n.lead text)⟩
  have found := List.isSome_maxOn?_of_mem (f := fun m : Network => m.lead.length) member
  have longest := List.le_apply_get_maxOn?_of_mem (f := fun m : Network => m.lead.length) member
  exact ⟨_, (Option.some_get found).symm, longest⟩

theorem opening?_lead_append {n : Network} {text : List Char} {amount : Amount}
    (read : Amount.parse text = .ok amount) : opening? (n.lead ++ text) = some n := by
  obtain ⟨m, opening, longer⟩ := exists_opening? n text
  obtain ⟨rest, whole⟩ := exists_eq_append_of_opening? opening
  rw [opening, (eq_of_lead_append_eq read longer whole).1]

end Network

namespace HumanReadable

theorem exists_amount_of_parse {head : List Char} {human : HumanReadable}
    (h : parse head = .ok human) :
    ∃ text, head = human.network.lead ++ text ∧ Amount.parse text = .ok human.amount := by
  unfold parse at h
  split at h
  · simp at h
  rename_i network opening
  split at h
  · rename_i amount read
    obtain rfl := Except.ok.inj h
    obtain ⟨text, rfl⟩ := Network.exists_eq_append_of_opening? opening
    rw [List.drop_left] at read
    exact ⟨text, rfl, read⟩
  · simp at h

theorem parse_lead_append {n : Network} {text : List Char} {amount : Amount}
    (read : Amount.parse text = .ok amount) : parse (n.lead ++ text) = .ok ⟨n, amount⟩ := by
  rw [parse, Network.opening?_lead_append read]
  simp only [List.drop_left, read]

/-- A head is read as every network and amount of which it is made up, and there is at most one way
to cut it into the letters of a network and the text of an amount. -/
theorem parse_eq_ok_iff (head : List Char) :
    (∀ human, parse head = .ok human ↔
      ∃ text, head = human.network.lead ++ text ∧ Amount.parse text = .ok human.amount) ∧
    {cut : Network × List Char | head = cut.1.lead ++ cut.2 ∧
      ∃ amount, Amount.parse cut.2 = .ok amount}.Subsingleton := by
  constructor
  · refine fun human => ⟨exists_amount_of_parse, ?_⟩
    rintro ⟨text, rfl, read⟩
    exact parse_lead_append read
  · rintro ⟨n, text⟩ ⟨whole, _, read⟩ ⟨m, rest⟩ ⟨again, _, other⟩
    have same : n.lead ++ text = m.lead ++ rest := whole.symm.trans again
    rcases Nat.le_total n.lead.length m.lead.length with longer | shorter
    · obtain ⟨rfl, rfl⟩ := Network.eq_of_lead_append_eq read longer same
      rfl
    · obtain ⟨rfl, rfl⟩ := Network.eq_of_lead_append_eq other shorter same.symm
      rfl

example : parse "lntbs20m".toList = .ok ⟨.signet, .msat 2000000000⟩ := by decide

end HumanReadable
end LightningInvoice
