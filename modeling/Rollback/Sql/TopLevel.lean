import Rollback.Text.Blank

/-!
# Parts of a list

The parts of a comma-separated list. Commas inside quotes and inside parentheses do not separate.

- `topLevelParts`: the parts, without blanks around them and without empty ones
-/

set_option autoImplicit false

namespace Rollback.Sql

/-- A quote of any kind: single, double or backtick. -/
def isQuote (c : Char) : Bool :=
  c == '\x27' || c == '\x22' || c == '\x60'

/-- Whether a backslash inside single quotes takes the next character with it. -/
inductive Escapes where
  | honoured
  | ignored
deriving DecidableEq, Repr

/--
The parts that follow, where `part` holds the characters of the present one in reverse, `depth`
counts the open parentheses and `quote` is the open quote, if any.
-/
def partsFrom (escapes : Escapes) (quote : Option Char) (depth : Nat) (part : List Char) :
    List Char → List (List Char)
  | [] => [part.reverse]
  | c :: rest =>
    match quote with
    | some q =>
      if c == '\\' && q == '\x27' && escapes == .honoured then
        match rest with
        | [] => [(c :: part).reverse]
        | d :: rest => partsFrom escapes (some q) depth (d :: c :: part) rest
      else partsFrom escapes (if c == q then none else some q) depth (c :: part) rest
    | none =>
      if isQuote c then partsFrom escapes (some c) depth (c :: part) rest
      else if c == '(' then partsFrom escapes none (depth + 1) (c :: part) rest
      -- Without an open parenthesis the depth stays at zero.
      else if c == ')' then partsFrom escapes none (depth - 1) (c :: part) rest
      else if c == ',' && depth == 0 then
        part.reverse :: partsFrom escapes none depth [] rest
      else partsFrom escapes none depth (c :: part) rest

/-- The parts of a list, trimmed, without the empty ones. -/
def topLevelParts (escapes : Escapes) (text : List Char) : List (List Char) :=
  ((partsFrom escapes none 0 [] text).map Text.trim).filter fun part => !part.isEmpty

end Rollback.Sql
