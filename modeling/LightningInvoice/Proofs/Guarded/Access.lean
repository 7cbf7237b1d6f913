import LightningInvoice.Bytes
import LightningInvoice.Text.Utf8

/-!
Steps that have a value only where they stay inside the data they work on: differences, shifts of a
byte, parts of a list, and parts of a text. A position in a text counts bytes and has to lie between
two characters. Sizes are not bounded, and shifts by a fixed number of places need no check.
-/
namespace LightningInvoice.Guarded

/-- The difference, unless it is below zero. -/
def sub? (a b : Nat) : Option Nat := if b ≤ a then some (a - b) else none

def subByte? (a b : UInt8) : Option UInt8 := if b ≤ a then some (a - b) else none

/-- A byte is shifted by at most seven places. -/
def shiftLeft? (v : BitVec 8) (places : Nat) : Option (BitVec 8) :=
  if places < 8 then some (v <<< places) else none

def shiftRight? (v : BitVec 8) (places : Nat) : Option (BitVec 8) :=
  if places < 8 then some (v >>> places) else none

theorem sub?_of_le {a b : Nat} (h : b ≤ a) : sub? a b = some (a - b) := if_pos h

theorem shiftLeft?_of_lt {v : BitVec 8} {places : Nat} (h : places < 8) :
    shiftLeft? v places = some (v <<< places) := if_pos h

theorem shiftRight?_of_lt {v : BitVec 8} {places : Nat} (h : places < 8) :
    shiftRight? v places = some (v >>> places) := if_pos h

section Lists
variable {α : Type}

/-- The elements from position `start` up to position `stop`. -/
def slice? (start stop : Nat) (xs : List α) : Option (List α) :=
  if start ≤ stop ∧ stop ≤ xs.length then some ((xs.take stop).drop start) else none

def drop? (start : Nat) (xs : List α) : Option (List α) := slice? start xs.length xs

def splitAt? (n : Nat) (xs : List α) : Option (List α × List α) :=
  if n ≤ xs.length then some (xs.take n, xs.drop n) else none

def set? (n : Nat) (x : α) (xs : List α) : Option (List α) :=
  if n < xs.length then some (xs.set n x) else none

theorem slice?_eq_some_iff {start stop : Nat} {xs part : List α} :
    slice? start stop xs = some part ↔
      start ≤ stop ∧ stop ≤ xs.length ∧ part = (xs.take stop).drop start := by
  unfold slice?
  split
  · rename_i inside
    simp [inside, eq_comm]
  · rename_i outside
    simp only [reduceCtorEq, false_iff]
    exact fun ⟨ordered, inside, _⟩ => outside ⟨ordered, inside⟩

theorem slice?_of_le {start stop : Nat} {xs : List α} (ordered : start ≤ stop)
    (inside : stop ≤ xs.length) : slice? start stop xs = some ((xs.take stop).drop start) :=
  slice?_eq_some_iff.mpr ⟨ordered, inside, rfl⟩

theorem drop?_of_le {start : Nat} {xs : List α} (inside : start ≤ xs.length) :
    drop? start xs = some (xs.drop start) := by
  rw [drop?, slice?_of_le inside (Nat.le_refl _), List.take_length]

theorem splitAt?_of_le {n : Nat} {xs : List α} (inside : n ≤ xs.length) :
    splitAt? n xs = some (xs.take n, xs.drop n) := if_pos inside

theorem slice?_append {n : Nat} {xs : List α} (length : xs.length = n) (ys : List α) :
    slice? 0 n (xs ++ ys) = some xs := by
  rw [slice?_of_le (Nat.zero_le n) (by rw [List.length_append]; omega), List.take_left' length,
    List.drop_zero]

theorem drop?_append {n : Nat} {xs : List α} (length : xs.length = n) (ys : List α) :
    drop? n (xs ++ ys) = some ys := by
  rw [drop?_of_le (by rw [List.length_append]; omega), List.drop_left' length]

theorem splitAt?_append {n : Nat} {xs : List α} (length : xs.length = n) (ys : List α) :
    splitAt? n (xs ++ ys) = some (xs, ys) := by
  rw [splitAt?_of_le (by rw [List.length_append]; omega), List.take_left' length,
    List.drop_left' length]

theorem set?_of_lt {n : Nat} {x : α} {xs : List α} (inside : n < xs.length) :
    set? n x xs = some (xs.set n x) := if_pos inside

theorem length_of_drop? {start : Nat} {xs rest : List α} (h : drop? start xs = some rest) :
    rest.length + start = xs.length := by
  obtain ⟨inside, _, rfl⟩ := slice?_eq_some_iff.mp h
  rw [List.length_drop, List.length_take]
  omega

theorem mapM_eq_some {β : Type} {f : α → Option β} {g : α → β} {xs : List α}
    (values : ∀ x ∈ xs, f x = some (g x)) : xs.mapM f = some (xs.map g) := by
  induction xs with
  | nil => rfl
  | cons x rest ih =>
    obtain ⟨first, later⟩ := List.forall_mem_cons.mp values
    rw [List.mapM_cons, first, ih later]
    rfl

/-- The pieces of `n + 1` elements one after the other; fewer elements at the end are left out. -/
def pieces (n : Nat) (xs : List α) : List (List α) :=
  if n + 1 ≤ xs.length then xs.take (n + 1) :: pieces n (xs.drop (n + 1)) else []
termination_by xs.length
decreasing_by simp only [List.length_drop]; omega

end Lists

/-- The bytes from position `start` up to position `stop`, which have to be `n` bytes. -/
def bytes? (start stop n : Nat) (bytes : List UInt8) : Option (Bytes n) := do
  Bytes.ofList? n (← slice? start stop bytes)

theorem bytes?_of_le {start n total : Nat} {bytes : List UInt8} (length : bytes.length = total)
    (inside : start + n ≤ total) :
    bytes? start (start + n) n bytes =
      some (Bytes.slice bytes start n (by rw [length]; exact inside)) := by
  subst length
  have part : (bytes.take (start + n)).drop start = (bytes.drop start).take n := by
    rw [List.drop_take, Nat.add_sub_cancel_left]
  rw [bytes?, slice?_of_le (Nat.le_add_right _ _) inside, part]
  exact dif_pos (by rw [List.length_take, List.length_drop]; omega)

/-- The text before and the text behind a position. A position inside a character cuts nothing. -/
def cut? : Nat → List Char → Option (List Char × List Char)
  | 0, text => some ([], text)
  | _ + 1, [] => none
  | n + 1, c :: rest => do
    let (before, behind) ← cut? (← sub? (n + 1) c.utf8Size) rest
    return (c :: before, behind)
termination_by structural _ text => text

theorem length_encode_cons (c : Char) (rest : List Char) :
    (Utf8.encode (c :: rest)).length = c.utf8Size + (Utf8.encode rest).length := by
  rw [Utf8.encode, List.flatMap_cons, List.length_append, String.length_utf8EncodeChar]
  rfl

theorem cut?_append (before behind : List Char) :
    cut? (Utf8.encode before).length (before ++ behind) = some (before, behind) := by
  induction before with
  | nil => cases behind <;> rfl
  | cons c rest ih =>
    have size := length_encode_cons c rest
    have := c.utf8Size_pos
    have positive : 0 < (Utf8.encode (c :: rest)).length := by omega
    obtain ⟨n, later⟩ := Nat.exists_eq_add_one.mpr positive
    rw [later, List.cons_append, cut?, sub?_of_le (by omega), Option.bind_eq_bind,
      Option.bind_some, show n + 1 - c.utf8Size = (Utf8.encode rest).length by omega, ih]
    rfl

example : cut? 2 ['b', 'ß', '1'] = none := by decide

/-- Every character of a text with the position at which it starts. -/
def positions (start : Nat) : List Char → List (Nat × Char)
  | [] => []
  | c :: rest => (start, c) :: positions (start + c.utf8Size) rest

theorem positions_append (start : Nat) (before behind : List Char) :
    positions start (before ++ behind) =
      positions start before ++ positions (start + (Utf8.encode before).length) behind := by
  induction before generalizing start with
  | nil => rfl
  | cons c rest ih =>
    rw [List.cons_append, positions, positions, ih, length_encode_cons, Nat.add_assoc]
    rfl

theorem map_positions (start : Nat) (text : List Char) :
    (positions start text).map Prod.snd = text := by
  induction text generalizing start with
  | nil => rfl
  | cons c rest ih => rw [positions, List.map_cons, ih]

theorem find?_positions {c : Char} {text : List Char} (absent : c ∉ text) (start : Nat) :
    (positions start text).reverse.find? (fun (_, d) => d == c) = none := by
  rw [List.find?_eq_none]
  intro entry member same
  apply absent
  rw [← map_positions start text, List.mem_map]
  exact ⟨entry, List.mem_reverse.mp member, beq_iff_eq.mp same⟩

theorem getLast?_positions (text : List Char) (last : Char) :
    (positions 0 (text ++ [last])).getLast? = some ((Utf8.encode text).length, last) := by
  rw [positions_append, Nat.zero_add]
  exact List.getLast?_concat

def lastPosition? (c : Char) (text : List Char) : Option Nat :=
  ((positions 0 text).reverse.find? fun (_, d) => d == c).map Prod.fst

theorem lastPosition?_eq_none {c : Char} {text : List Char} (absent : c ∉ text) :
    lastPosition? c text = none := by
  rw [lastPosition?, find?_positions absent, Option.map_none]

theorem lastPosition?_append {c : Char} {behind : List Char} (absent : c ∉ behind)
    (before : List Char) :
    lastPosition? c (before ++ c :: behind) = some (Utf8.encode before).length := by
  rw [lastPosition?, positions_append, positions, List.reverse_append, List.reverse_cons,
    List.append_assoc, List.find?_append, find?_positions absent, Option.none_or,
    List.singleton_append, Nat.zero_add]
  exact congrArg (Option.map Prod.fst) (List.find?_cons_of_pos (beq_self_eq_true c))

end LightningInvoice.Guarded
