import Mathlib.Data.List.Infix

/-! # Replacing every occurrence of a text

Occurrences are found from the left and do not overlap. What is inserted for one may depend on what
stands before and after it.
-/
namespace Replacement

variable {α : Type}

variable [DecidableEq α]

/-- What stands between the occurrences, where the first `skip` elements belong to one. -/
def pieces (search : List α) : ℕ → List α → List (List α)
  | _, [] => [[]]
  | 0, c :: rest =>
    if search <+: c :: rest then [] :: pieces search (search.length - 1) rest
    else (pieces search 0 rest).modifyHead (c :: ·)
  | skip + 1, _ :: rest => pieces search skip rest

end Replacement
