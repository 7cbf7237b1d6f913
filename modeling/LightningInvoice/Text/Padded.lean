/-! Text fitted into a column: cut to a greatest length first, then filled up with spaces to a least
width. -/
namespace LightningInvoice.Padded

inductive Alignment where
  | left
  | right
  | center
  deriving DecidableEq

/-- How many of `missing` spaces stand before the text; a centred text has the odd one after it. -/
def Alignment.before (a : Alignment) (missing : Nat) : Nat :=
  match a with
  | .left => 0
  | .right => missing
  | .center => missing / 2

structure Column where
  width : Option Nat := none
  greatest : Option Nat := none
  alignment : Alignment := .left

def Column.fit (column : Column) (text : List Char) : List Char :=
  let kept := match column.greatest with
    | some n => text.take n
    | none => text
  let missing := column.width.getD 0 - kept.length
  let before := column.alignment.before missing
  List.replicate before ' ' ++ kept ++ List.replicate (missing - before) ' '

end LightningInvoice.Padded
