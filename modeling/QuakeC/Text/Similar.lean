import QuakeC.Text.Basic

/-!
# Similar words

`distance` counts the edits that turn one word into another: insertions, deletions, replacements and
swaps of neighbours, where no stretch is edited twice.  It is computed row by row over the first
word.  `similar` picks from a list of candidates those that are closest to a mistyped word, if they
are close enough to be meant.  Words are measured in sixteen-bit units.
-/

set_option autoImplicit false

namespace QuakeC.Text

/-- The distances from a word that ends in `x` to all beginnings of `b`: from `row`, those of the
word without its last unit, and `earlier`, the unit before the last and the distances of the word
without both. -/
def nextRow (b : Array UInt16) (x : UInt16) (earlier : Option (UInt16 × Array Nat))
    (row : Array Nat) : Array Nat :=
  (List.range b.size).foldl
    (fun cells k =>
      let replaced := row.getD k 0 + if b.getD k 0 = x then 0 else 1
      let plain := min (min (row.getD (k + 1) 0 + 1) (cells.getD k 0 + 1)) replaced
      match earlier with
      | some (y, rowBefore) =>
        if 0 < k ∧ b.getD (k - 1) 0 = x ∧ b.getD k 0 = y then
          cells.push (min plain (rowBefore.getD (k - 1) 0 + 1))
        else cells.push plain
      | none => cells.push plain)
    #[row.getD 0 0 + 1]

/-- The least number of edits that turn `a` into `b`. -/
def distance (a b : Text) : Nat :=
  let rows := a.foldl
    (fun (st : Option (UInt16 × Array Nat) × Array Nat) x =>
      (some (x, st.2), nextRow b.toArray x st.1 st.2))
    (none, (List.range (b.length + 1)).toArray)
  rows.2.getD b.length 0

/-- No more edits than these make two words similar. -/
def maxDistance : Nat := 3

/-- The distance of two words, or the length of the longer one when their lengths alone put them too
far apart. -/
def wordDistance (a b : Text) : Nat :=
  if a.length + maxDistance < b.length ∨ b.length + maxDistance < a.length then
    max a.length b.length
  else distance a b

/-- The best distance so far and the candidates at that distance, updated by one candidate.  It has
to have more than one unit and to keep more than two fifths of the longer word. -/
def considerCandidate (word : Text) (best : Nat × List String) (candidate : String) :
    Nat × List String :=
  let units := ofString candidate
  let d := wordDistance word units
  let longer := max word.length units.length
  if 1 < units.length ∧ 2 * longer < 5 * (longer - d) then
    if d < best.1 then (d, [candidate])
    else if d = best.1 then (d, best.2 ++ [candidate])
    else best
  else best

/-- The candidates closest to a word, in order. -/
def similar (word : String) (candidates : List String) : List String :=
  let units := ofString word
  (candidates.eraseDups.foldl (considerCandidate units) (maxDistance, [])).2.mergeSort
    fun a b => decide (a ≤ b)

end QuakeC.Text
