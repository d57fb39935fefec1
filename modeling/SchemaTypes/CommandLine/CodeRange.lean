namespace SchemaTypes

structure CodeRange where
  first : Nat
  last : Nat
  deriving DecidableEq, Repr

def CodeRange.holds (code : Nat) (range : CodeRange) : Bool :=
  range.first ≤ code && code ≤ range.last

def inRanges (code : Nat) : List CodeRange → Bool
  | [] => false
  | range :: ranges =>
    if code < range.first then false else code ≤ range.last || inRanges code ranges

/-- Each range begins after a bound, ends no earlier than it begins and stands before the next. -/
def inOrderAfter (bound : Nat) : List CodeRange → Bool
  | [] => true
  | range :: ranges => bound < range.first && range.first ≤ range.last && inOrderAfter range.last ranges

def inOrder : List CodeRange → Bool
  | [] => true
  | range :: ranges => range.first ≤ range.last && inOrderAfter range.last ranges

def countCodes (ranges : List CodeRange) : Nat :=
  ranges.foldl (fun count range => count + (range.last + 1 - range.first)) 0

theorem any_holds_of_inOrderAfter {code bound : Nat} {ranges : List CodeRange}
    (ordered : inOrderAfter bound ranges = true) (before : code ≤ bound) :
    ranges.any (CodeRange.holds code) = false := by
  induction ranges generalizing bound with
  | nil => rfl
  | cons range ranges ih =>
    simp only [inOrderAfter, Bool.and_eq_true, decide_eq_true_eq] at ordered
    have later := ih ordered.2 (by omega)
    have outside : CodeRange.holds code range = false := by simp [CodeRange.holds]; omega
    simp only [List.any_cons, outside, later, Bool.false_or]

theorem inOrder_of_inOrderAfter {bound : Nat} {ranges : List CodeRange}
    (ordered : inOrderAfter bound ranges = true) : inOrder ranges = true := by
  cases ranges with
  | nil => rfl
  | cons range ranges => simp_all [inOrderAfter, inOrder]

theorem inRanges_eq_any {ranges : List CodeRange} (ordered : inOrder ranges = true) (code : Nat) :
    inRanges code ranges = ranges.any (CodeRange.holds code) := by
  induction ranges with
  | nil => rfl
  | cons range ranges ih =>
    simp only [inOrder, Bool.and_eq_true, decide_eq_true_eq] at ordered
    simp only [inRanges, List.any_cons, ih (inOrder_of_inOrderAfter ordered.2)]
    split
    · have outside : CodeRange.holds code range = false := by simp [CodeRange.holds]; omega
      simp only [outside, Bool.false_or]
      exact (any_holds_of_inOrderAfter ordered.2 (by omega)).symm
    · have reached : range.first ≤ code := by omega
      simp [CodeRange.holds, reached]

end SchemaTypes
