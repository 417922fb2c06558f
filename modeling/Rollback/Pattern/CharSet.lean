import Rollback.Text.Ascii

/-!
# Character sets

The sets of characters that a pattern may ask for at one place.
-/

set_option autoImplicit false

namespace Rollback

/-- A set of characters. -/
inductive CharSet where
  /-- Every character. -/
  | any
  /-- ASCII letters, digits and the underscore. -/
  | word
  /-- ASCII space and the ASCII control characters that move to another place. -/
  | gap
  /-- ASCII letters and the underscore. -/
  | letter
  /-- One character, where the case of an ASCII letter does not matter. -/
  | same (c : Char)
  /-- The listed characters. -/
  | oneOf (cs : List Char)
  /-- The characters of either set. -/
  | union (a b : CharSet)
  /-- The characters outside a set. -/
  | except (a : CharSet)
deriving DecidableEq, Repr

namespace CharSet

/-- Membership of a character. -/
def contains : CharSet → Char → Bool
  | any, _ => true
  | word, c => Text.isWordChar c
  | gap, c => Text.isGap c
  | letter, c => c.isAlpha || c == '_'
  | same d, c => c.toLower == d.toLower
  | oneOf cs, c => cs.contains c
  | union a b, c => a.contains c || b.contains c
  | except a, c => !a.contains c

end CharSet

end Rollback
