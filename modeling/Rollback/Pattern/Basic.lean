import Rollback.Pattern.CharSet

/-!
# Patterns

A pattern describes a piece of text. It is read with backtracking: of the ways to read it, the
preferred one that lets everything after it be read too is taken. A choice prefers its first branch,
and a repetition prefers more turns.

- `Pattern.run`: reads a pattern at a place and goes on with what follows
- `Pattern.match?`: reads a pattern at the start of a text
- `Pattern.search?`: reads a pattern at the first place of a text where that succeeds
- `Match.text?`: the text of a marked part
-/

set_option autoImplicit false

namespace Rollback

/-- A pattern whose parts can be marked with names from `ι`. -/
inductive Pattern (ι : Type) where
  /-- Nothing at all. -/
  | empty
  /-- One character of a set. -/
  | char (set : CharSet)
  /-- The longest stretch of characters of a set, which is never cut short. -/
  | stretch (set : CharSet)
  /-- One pattern and then another. -/
  | seq (first second : Pattern ι)
  /-- One of two patterns, the first for preference. -/
  | alt (first second : Pattern ι)
  /-- Any number of turns of a pattern, which takes at least one character in each. -/
  | many (turn : Pattern ι)
  /-- A part whose text is kept. -/
  | mark (name : ι) (part : Pattern ι)
  /-- A place with a word character on exactly one side. -/
  | wordEdge

/-- A marked part: the text from where it starts and the text that follows it. -/
structure Span where
  start : List Char
  stop : List Char

/-- The text of a marked part. -/
def Span.text (span : Span) : List Char :=
  span.start.take (span.start.length - span.stop.length)

/-- A place in a text, with the parts that were marked on the way to it. -/
structure Place (ι : Type) where
  /-- The character before the place. -/
  last : Option Char
  /-- The text after the place. -/
  rest : List Char
  /-- The marked parts, the most recent first. -/
  marked : List (ι × Span)

/-- A pattern that was read, given by the place where its reading ended. -/
abbrev Match (ι : Type) := Place ι

namespace Pattern

variable {ι β : Type}

instance : Append (Pattern ι) := ⟨seq⟩

instance : OrElse (Pattern ι) := ⟨fun p q => alt p (q ())⟩

/-- Whether the character is there and belongs to a word. -/
def isWordAt (c : Option Char) : Bool :=
  c.any Text.isWordChar

/-- The last character of the longest stretch of characters of a set, or the one before it, and what
follows the stretch. -/
def stretchFrom (set : CharSet) (last : Option Char) : List Char → Option Char × List Char
  | [] => (last, [])
  | c :: rest => if set.contains c then stretchFrom set (some c) rest else (last, c :: rest)

/-- As many turns of a pattern as possible, but no more than there are characters in the bound. -/
def repeatTurns (turn : Place ι → (Place ι → Option β) → Option β) :
    List Char → Place ι → (Place ι → Option β) → Option β
  | [], s, next => next s
  | _ :: bound, s, next => turn s (fun t => repeatTurns turn bound t next) <|> next s

/--
Reads a pattern at a place and goes on with `next`. A way to read the pattern after which `next`
fails is given up for the next one. Each turn of a repetition takes a character, so the rest bounds
their number.
-/
def run : Pattern ι → Place ι → (Place ι → Option β) → Option β
  | empty, s, next => next s
  | char set, s, next =>
    match s.rest with
    | [] => none
    | c :: rest => if set.contains c then next { s with last := some c, rest } else none
  | stretch set, s, next =>
    let (last, rest) := stretchFrom set s.last s.rest
    next { s with last, rest }
  | seq p q, s, next => p.run s fun t => q.run t next
  | alt p q, s, next => p.run s next <|> q.run s next
  | many p, s, next => repeatTurns p.run s.rest s next
  | mark name p, s, next =>
    p.run s fun t => next { t with marked := (name, ⟨s.rest, t.rest⟩) :: t.marked }
  | wordEdge, s, next => if isWordAt s.last != isWordAt s.rest.head? then next s else none

/-- Reads a pattern at the start of a text. -/
def match? (p : Pattern ι) (text : List Char) : Option (Match ι) :=
  p.run ⟨none, text, []⟩ some

/-- Reads a pattern at the first place from here on where that succeeds. -/
def searchFrom (p : Pattern ι) (last : Option Char) : List Char → Option (Match ι)
  | [] => p.run ⟨last, [], []⟩ some
  | c :: rest => p.run ⟨last, c :: rest, []⟩ some <|> searchFrom p (some c) rest

/-- Reads a pattern at the first place of a text where that succeeds. -/
def search? (p : Pattern ι) (text : List Char) : Option (Match ι) :=
  searchFrom p none text

/-! ## Derived patterns -/

/-- A pattern or, failing that, nothing. -/
def orNothing (p : Pattern ι) : Pattern ι := alt p empty

/-- As many characters of a set as possible, at least one. -/
def some1 (set : CharSet) : Pattern ι := char set ++ many (char set)

/-- As many characters of a set as possible. -/
def some0 (set : CharSet) : Pattern ι := many (char set)

/-- The listed characters one after another, in any ASCII case. -/
def keyword (word : String) : Pattern ι :=
  word.toList.foldr (fun c p => char (.same c) ++ p) empty

/-- At least one gap character. -/
def gap : Pattern ι := some1 .gap

/-- Gap characters, if there are any. -/
def gaps : Pattern ι := some0 .gap

/-- Keywords with gaps between them. -/
def keywords : List String → Pattern ι
  | [] => empty
  | [word] => keyword word
  | word :: rest => keyword word ++ gap ++ keywords rest

/-- The first pattern of the list that can be read. -/
def firstOf : List (Pattern ι) → Pattern ι
  | [] => char (.oneOf [])
  | [p] => p
  | p :: rest => alt p (firstOf rest)

end Pattern

/-- The most recent text of a marked part, if it was read at all. -/
def Match.text? {ι : Type} [BEq ι] (m : Match ι) (name : ι) : Option (List Char) :=
  (m.marked.lookup name).map Span.text

/-- The text of a marked part, empty if it was not read. -/
def Match.text {ι : Type} [BEq ι] (m : Match ι) (name : ι) : List Char :=
  (m.text? name).getD []

/-- What follows a marked part. -/
def Match.after? {ι : Type} [BEq ι] (m : Match ι) (name : ι) : Option (List Char) :=
  (m.marked.lookup name).map Span.stop

end Rollback
