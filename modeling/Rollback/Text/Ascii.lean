/-!
# ASCII letters and words

The keyword language of SQL is ASCII: keywords are compared without regard to the case of ASCII
letters only, and its words are made of ASCII letters, digits and underscores.
-/

set_option autoImplicit false

namespace Rollback.Text

/-- An ASCII letter, a digit or an underscore. -/
def isWordChar (c : Char) : Bool :=
  c.isAlphanum || c == '_'

/-- An ASCII space, tab, line feed, vertical tab, form feed or carriage return. -/
def isGap (c : Char) : Bool :=
  c == ' ' || (9 ≤ c.toNat && c.toNat ≤ 13)

/-- The text with its ASCII letters in lower case. -/
def asciiLower (s : List Char) : List Char :=
  s.map Char.toLower

/-- Equality up to the case of ASCII letters. -/
def eqIgnoringCase (a b : List Char) : Bool :=
  asciiLower a == asciiLower b

/-- Whether the word is one of the listed ones, up to the case of ASCII letters. -/
def isOneOf (listed : List String) (word : List Char) : Bool :=
  listed.any fun w => eqIgnoringCase w.toList word

end Rollback.Text
