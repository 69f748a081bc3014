import Mathlib.Data.List.Infix

/-! # Where a token of SQL may begin

A scanner for the text of PostgreSQL, which knows after each character what it is inside of.
A string that goes on in the next line counts as another one.
-/
namespace SqlText

def isWordChar (c : Char) : Bool := c.isAlphanum || c = '_' || c = '$' || decide (128 ≤ c.toNat)

/-- What the scanner is inside of. Characters that it remembers come with the last one first. -/
inductive Place where
  | code (recent : List Char)
  | string (escapes escaped : Bool)
  | identifier
  | lineComment
  | blockComment (depth : ℕ) (last : Option Char)
  | dollarString (tag : List Char) (since : Option (List Char))
  deriving DecidableEq, Repr

def apostrophe : ℕ := 39

def backslash : ℕ := 92

/-- A string that begins here knows backslashes: it is written `E`, or goes on after two quotes. -/
def opensEscapes : List Char → Bool
  | [] => false
  | c :: before =>
    c.toNat = apostrophe || ((c = 'E' || c = 'e') && !before.head?.any isWordChar)

def opensUnicode : List Char → Bool
  | c :: d :: before => c = '&' && (d = 'U' || d = 'u') && !before.head?.any isWordChar
  | _ => false

/-- The tag of the dollar quote that another dollar sign would begin here. -/
def dollarTag (recent : List Char) : Option (List Char) :=
  let isTagChar := fun c => isWordChar c && c != '$'
  let tag := recent.takeWhile isTagChar
  match recent.dropWhile isTagChar with
  | [] => none
  | c :: before =>
    if c = '$' && !before.head?.any isWordChar && !tag.getLast?.any Char.isDigit then
      some tag.reverse
    else none

def stepCode (recent : List Char) (c : Char) : Place :=
  if c.toNat = apostrophe then .string (opensEscapes recent) false
  else if c = '"' then .identifier
  else if c = '-' ∧ recent.head? = some '-' then .lineComment
  else if c = '*' ∧ recent.head? = some '/' then .blockComment 1 none
  else if c = '$' then
    match dollarTag recent with
    | some tag => .dollarString tag none
    | none => .code (c :: recent)
  else .code (c :: recent)

def step : Place → Char → Place
  | .code recent, c => stepCode recent c
  | .string escapes true, _ => .string escapes false
  | .string escapes false, c =>
    if c.toNat = apostrophe then .code (if escapes then [c] else [])
    else .string escapes (escapes && decide (c.toNat = backslash))
  | .identifier, c => if c = '"' then .code [] else .identifier
  | .lineComment, c => if c = '\n' ∨ c = '\r' then .code [] else .lineComment
  | .blockComment depth last, c =>
    if c = '*' ∧ last = some '/' then .blockComment (depth + 1) none
    else if c = '/' ∧ last = some '*' then
      if depth ≤ 1 then .code [] else .blockComment (depth - 1) none
    else .blockComment depth (some c)
  | .dollarString tag since, c =>
    if c = '$' then if since = some tag then .code [] else .dollarString tag (some [])
    else .dollarString tag (since.map (· ++ [c]))

def after (p : Place) (text : List Char) : Place := text.foldl step p

namespace Place

/-- A delimited identifier that begins here is a token of its own. -/
def begins : Place → Bool
  | .code recent => !opensUnicode recent
  | _ => false

def inComment : Place → Bool
  | .lineComment => true
  | .blockComment _ _ => true
  | _ => false

end Place

end SqlText
