import LightningInvoice.Invoice.Semantics
import LightningInvoice.Proofs.Invoice.Expiry

/-!
What the check of the fields says. It counts the payment hashes, the descriptions of either form and
the payment secrets, so the order of the fields is nothing to it. An invoice is asked for the first
field of a kind; where the check passes there is no second one, and the order is nothing to the
answers either.
-/
namespace LightningInvoice

/-- How many fields are of a kind. -/
def FieldKind.count (kind : FieldKind) (tags : List Tag) : Nat :=
  tags.countP fun t => t.kind? == some kind

/-- The first condition that fails, where the fields hold so many payment hashes, descriptions and
payment secrets. -/
inductive SemanticError.Arises (hashes descriptions secrets : Nat) : SemanticError → Prop where
  | noPaymentHash (none : hashes = 0) : Arises hashes descriptions secrets .noPaymentHash
  | multiplePaymentHashes (many : 2 ≤ hashes) :
      Arises hashes descriptions secrets .multiplePaymentHashes
  | noDescription (hash : hashes = 1) (none : descriptions = 0) :
      Arises hashes descriptions secrets .noDescription
  | multipleDescriptions (hash : hashes = 1) (many : 2 ≤ descriptions) :
      Arises hashes descriptions secrets .multipleDescriptions
  | multiplePaymentSecrets (hash : hashes = 1) (description : descriptions = 1)
      (many : 2 ≤ secrets) : Arises hashes descriptions secrets .multiplePaymentSecrets

/-! ### Questions that one kind of field answers -/

/-- A question is answered by the fields of a kind, with what they are built of. -/
structure Tag.Answers {α : Type} (question : Tag → Option α) (build : α → Tag)
    (kind : FieldKind) : Prop where
  isSome_eq : ∀ t, (question t).isSome = (t.kind? == some kind)
  eq_some_iff : ∀ t x, question t = some x ↔ t = build x

/-- Of the fields that are built in one way the list holds the one of the answer, once, and no
other. -/
structure Tag.Sole {α : Type} (build : α → Tag) (answer : Option α) (tags : List Tag) : Prop where
  mem_iff : ∀ x, build x ∈ tags ↔ answer = some x
  count_le : ∀ x, tags.count (build x) ≤ 1

namespace Tag

theorem answers_paymentHash : Answers paymentHash? .paymentHash .paymentHash where
  isSome_eq t := by cases t <;> rfl
  eq_some_iff t x := by cases t <;> simp [paymentHash?]

theorem answers_description : Answers description? .description .description where
  isSome_eq t := by cases t <;> rfl
  eq_some_iff t x := by cases t <;> simp [description?]

theorem answers_descriptionHash :
    Answers descriptionHash? .descriptionHash .descriptionHash where
  isSome_eq t := by cases t <;> rfl
  eq_some_iff t x := by cases t <;> simp [descriptionHash?]

theorem answers_paymentSecret : Answers paymentSecret? .paymentSecret .paymentSecret where
  isSome_eq t := by cases t <;> rfl
  eq_some_iff t x := by cases t <;> simp [paymentSecret?]

namespace Answers
variable {α : Type} {question : Tag → Option α} {build : α → Tag} {kind : FieldKind}
  {tags : List Tag}

theorem countP_eq (answers : Answers question build kind) :
    tags.countP (fun t => (question t).isSome) = kind.count tags :=
  List.countP_congr fun t _ => by rw [answers.isSome_eq t]

theorem length_filterMap (answers : Answers question build kind) :
    (tags.filterMap question).length = kind.count tags := by
  rw [List.length_filterMap_eq_countP, answers.countP_eq]

theorem filterMap_eq (answers : Answers question build kind) (few : kind.count tags ≤ 1) :
    tags.filterMap question = (tags.findSome? question).toList := by
  rw [← answers.length_filterMap] at few
  rw [← List.head?_filterMap]
  cases every : tags.filterMap question with
  | nil => rfl
  | cons answer more =>
    rw [every, List.length_cons] at few
    rw [List.length_eq_zero_iff.mp (show more.length = 0 by omega)]
    rfl

theorem kind?_build (answers : Answers question build kind) (x : α) :
    (build x).kind? = some kind := by
  have answered := (answers.eq_some_iff (build x) x).mpr rfl
  rw [← beq_iff_eq, ← answers.isSome_eq, answered, Option.isSome_some]

theorem sole (answers : Answers question build kind) (few : kind.count tags ≤ 1) :
    Sole build (tags.findSome? question) tags where
  mem_iff x := by
    have every : x ∈ tags.filterMap question ↔ build x ∈ tags := by
      simp only [List.mem_filterMap, answers.eq_some_iff, exists_eq_right]
    rw [← every, answers.filterMap_eq few, Option.mem_toList]
  count_le x := by
    refine Nat.le_trans (List.countP_mono_left fun t _ same => ?_) few
    rw [beq_iff_eq.mp same, answers.kind?_build, beq_self_eq_true]

theorem findSome?_eq_of_perm {others : List Tag} (answers : Answers question build kind)
    (few : kind.count tags ≤ 1) (order : tags.Perm others) :
    tags.findSome? question = others.findSome? question := by
  have same : kind.count tags = kind.count others := order.countP_eq _
  have fewOthers : kind.count others ≤ 1 := by omega
  -- The answer is what the one field is built of, and the order is nothing to membership.
  apply Option.ext
  intro x
  rw [← (answers.sole few).mem_iff x, ← (answers.sole fewOthers).mem_iff x, order.mem_iff]

theorem isSome_findSome? (answers : Answers question build kind) :
    (tags.findSome? question).isSome = decide (0 < kind.count tags) := by
  rw [← answers.length_filterMap, ← List.head?_filterMap, Bool.eq_iff_iff, List.isSome_head?,
    decide_eq_true_eq, List.length_pos_iff]

end Answers

theorem countP_describes (tags : List Tag) :
    tags.countP describes =
      FieldKind.description.count tags + FieldKind.descriptionHash.count tags := by
  unfold FieldKind.count
  induction tags with
  | nil => rfl
  | cons t rest ih =>
    rw [List.countP_cons, List.countP_cons, List.countP_cons, ih]
    cases t <;> simp [describes, description?, descriptionHash?, kind?] <;> omega

end Tag

namespace Invoice

theorem checkSemantics_congr {a b : Invoice}
    (hashes : FieldKind.paymentHash.count a.tags = FieldKind.paymentHash.count b.tags)
    (descriptions : a.tags.countP Tag.describes = b.tags.countP Tag.describes)
    (secrets : FieldKind.paymentSecret.count a.tags = FieldKind.paymentSecret.count b.tags) :
    a.checkSemantics = b.checkSemantics := by
  simp only [checkSemantics, Tag.answers_paymentHash.countP_eq,
    Tag.answers_paymentSecret.countP_eq, hashes, descriptions, secrets]

variable {inv : Invoice}

theorem checkSemantics_eq_ok_iff :
    inv.checkSemantics = .ok () ↔
      FieldKind.paymentHash.count inv.tags = 1 ∧ inv.tags.countP Tag.describes = 1 ∧
        FieldKind.paymentSecret.count inv.tags ≤ 1 := by
  unfold checkSemantics
  rw [Tag.answers_paymentHash.countP_eq, Tag.answers_paymentSecret.countP_eq]
  dsimp only
  repeat' split
  all_goals
    simp
    omega

theorem checkSemantics_eq_error_iff {e : SemanticError} :
    inv.checkSemantics = .error e ↔
      e.Arises (FieldKind.paymentHash.count inv.tags) (inv.tags.countP Tag.describes)
        (FieldKind.paymentSecret.count inv.tags) := by
  unfold checkSemantics
  rw [Tag.answers_paymentHash.countP_eq, Tag.answers_paymentSecret.countP_eq]
  dsimp only
  constructor
  · intro failed
    repeat' split at failed
    all_goals cases failed
    · exact .noPaymentHash (by omega)
    · exact .multiplePaymentHashes (by omega)
    · exact .noDescription (by omega) (by omega)
    · exact .multipleDescriptions (by omega) (by omega)
    · exact .multiplePaymentSecrets (by omega) (by omega) (by omega)
  · intro arises
    cases arises with
    | noPaymentHash none => rw [if_pos (by omega)]
    | multiplePaymentHashes many => rw [if_neg (by omega), if_pos (by omega)]
    | noDescription hash none => rw [if_neg (by omega), if_neg (by omega), if_pos (by omega)]
    | multipleDescriptions hash many =>
      rw [if_neg (by omega), if_neg (by omega), if_neg (by omega), if_pos (by omega)]
    | multiplePaymentSecrets hash description many =>
      rw [if_neg (by omega), if_neg (by omega), if_neg (by omega), if_neg (by omega),
        if_pos (by omega)]

/-- The invoice has a payment hash, and a description or the hash of one but not both; and of the
four kinds that the check counts it has no other fields than those that it answers with. -/
structure Unambiguous (inv : Invoice) : Prop where
  hashed : ∃ hash, inv.paymentHash? = some hash
  described : inv.description?.isSome = !inv.descriptionHash?.isSome
  paymentHash : Tag.Sole .paymentHash inv.paymentHash? inv.tags
  description : Tag.Sole .description inv.description? inv.tags
  descriptionHash : Tag.Sole .descriptionHash inv.descriptionHash? inv.tags
  paymentSecret : Tag.Sole .paymentSecret inv.paymentSecret? inv.tags

/-- The fields that the check counts, where it passes. -/
theorem count_of_checkSemantics (passed : inv.checkSemantics = .ok ()) :
    FieldKind.paymentHash.count inv.tags = 1 ∧
      FieldKind.description.count inv.tags + FieldKind.descriptionHash.count inv.tags = 1 ∧
      FieldKind.paymentSecret.count inv.tags ≤ 1 := by
  rw [← Tag.countP_describes]
  exact checkSemantics_eq_ok_iff.mp passed

theorem unambiguous_of_checkSemantics (passed : inv.checkSemantics = .ok ()) :
    inv.Unambiguous := by
  obtain ⟨hash, description, secret⟩ := count_of_checkSemantics passed
  constructor
  case hashed =>
    rw [← Option.isSome_iff_exists, paymentHash?, Tag.answers_paymentHash.isSome_findSome?]
    exact decide_eq_true (by omega)
  case described =>
    rw [description?, descriptionHash?, Tag.answers_description.isSome_findSome?,
      Tag.answers_descriptionHash.isSome_findSome?, ← decide_not, decide_eq_decide]
    omega
  case paymentHash => exact Tag.answers_paymentHash.sole (by omega)
  case description => exact Tag.answers_description.sole (by omega)
  case descriptionHash => exact Tag.answers_descriptionHash.sole (by omega)
  case paymentSecret => exact Tag.answers_paymentSecret.sole secret

/-- The check says the same of the same fields in any order. Where it passes, what it counts is
unambiguous, and the answers are the same in any order, too. -/
theorem checkSemantics_of_perm {a b : Invoice} (order : a.tags.Perm b.tags) :
    a.checkSemantics = b.checkSemantics ∧
    (a.checkSemantics = .ok () →
      a.Unambiguous ∧ a.paymentHash? = b.paymentHash? ∧ a.description? = b.description? ∧
        a.descriptionHash? = b.descriptionHash? ∧ a.paymentSecret? = b.paymentSecret?) := by
  constructor
  · exact checkSemantics_congr (order.countP_eq _) (order.countP_eq _) (order.countP_eq _)
  · intro passed
    obtain ⟨hash, description, secret⟩ := count_of_checkSemantics passed
    exact ⟨unambiguous_of_checkSemantics passed,
      Tag.answers_paymentHash.findSome?_eq_of_perm (by omega) order,
      Tag.answers_description.findSome?_eq_of_perm (by omega) order,
      Tag.answers_descriptionHash.findSome?_eq_of_perm (by omega) order,
      Tag.answers_paymentSecret.findSome?_eq_of_perm secret order⟩

/-- A hash of a description, a payment hash and a payment secret with fields that do not count
around them, and the same fields the other way round. -/
theorem checkSemantics_of_perm_sample :
    (stub 0 [.descriptionHash (.ofNumber 32 7), .metadata [], .paymentHash (.ofNumber 32 9),
      .paymentSecret (.ofNumber 32 5), .expiry 60]).Unambiguous ∧
    ∃ turned : Invoice,
      turned.tags = [.expiry 60, .paymentSecret (.ofNumber 32 5), .paymentHash (.ofNumber 32 9),
        .metadata [], .descriptionHash (.ofNumber 32 7)] ∧
      turned.checkSemantics = .ok () ∧ turned.paymentHash? = some (.ofNumber 32 9) ∧
      turned.description? = none ∧ turned.descriptionHash? = some (.ofNumber 32 7) ∧
      turned.paymentSecret? = some (.ofNumber 32 5) := by
  let tags : List Tag := [.descriptionHash (.ofNumber 32 7), .metadata [],
    .paymentHash (.ofNumber 32 9), .paymentSecret (.ofNumber 32 5), .expiry 60]
  have order : (stub 0 tags).tags.Perm (stub 0 tags.reverse).tags := tags.reverse_perm.symm
  have passed : (stub 0 tags).checkSemantics = .ok () := rfl
  obtain ⟨same, answers⟩ := checkSemantics_of_perm order
  obtain ⟨unambiguous, hash, description, descriptionHash, secret⟩ := answers passed
  exact ⟨unambiguous, stub 0 tags.reverse, rfl, same.symm.trans passed, hash.symm.trans rfl,
    description.symm.trans rfl, descriptionHash.symm.trans rfl, secret.symm.trans rfl⟩

end Invoice
end LightningInvoice
