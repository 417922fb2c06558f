import Rollback.Text.Casing
import Rollback.Text.WidthData

/-!
# Display width

The number of terminal columns that a line of text takes. A line is read from its end, because what
a character takes depends on what follows it: letters that join into one sign, and sequences that
are drawn as a single emoji.

- `charWidth`: the columns of a character by itself
- `Follower`, `Following`: what the characters already read are to the one before them
- `Following.precede`: one character put before them
- `width`: the columns of a line
-/

set_option autoImplicit false

namespace Rollback.Text

/-! ## Classes of characters -/

/-- The columns of a character by itself. -/
def charWidth (c : Char) : Nat :=
  let n := c.toNat
  if n ≤ 0xA0 then 1
  else if n == 0x17D8 then 3
  else if inRanges zeroWidthRanges n then 0
  else if inRanges wideRanges n then 2
  else 1

/-- A letter of the pairs that stand for flags. -/
def isRegional (c : Char) : Bool :=
  0x1F1E6 ≤ c.toNat && c.toNat ≤ 0x1F1FF

/-- A skin tone. -/
def isSkinTone (c : Char) : Bool :=
  0x1F3FB ≤ c.toNat && c.toNat ≤ 0x1F3FF

/-- A character drawn as an emoji by itself. -/
def isEmoji (c : Char) : Bool :=
  inRanges emojiRanges c.toNat

/-- A character that can be drawn as text and as an emoji. -/
def hasEmojiStyle (c : Char) : Bool :=
  inRanges emojiVariationRanges c.toNat

/-- An emoji that is narrow when it is drawn as text; enclosed ideographs stay wide. -/
def isNarrowAsText (c : Char) : Bool :=
  hasEmojiStyle c && isEmoji c && !(0x1F200 ≤ c.toNat && c.toNat ≤ 0x1F2FF)

/-- A curly quotation mark. -/
def isCurlyQuote (c : Char) : Bool :=
  c.toNat == 0x2018 || c.toNat == 0x2019 || c.toNat == 0x201C || c.toNat == 0x201D

/-- An Arabic letter of the shape of an alef. -/
def isAlef (c : Char) : Bool :=
  inRanges [(0x622, 0x623), (0x625, 0x625), (0x627, 0x627), (0x671, 0x673), (0x675, 0x675),
    (0x773, 0x774), (0x870, 0x882)] c.toNat

/-- An Arabic letter of the shape of a lam. -/
def isLam (c : Char) : Bool :=
  inRanges [(0x644, 0x644), (0x6B5, 0x6B8), (0x76A, 0x76A), (0x8A6, 0x8A6), (0x8C7, 0x8C7)] c.toNat

/-- A mark between two Arabic letters that leaves them joined. -/
def isArabicMark (c : Char) : Bool :=
  charWidth c == 0 && !inRanges opaqueRanges c.toNat

/-- A Khmer letter that has a form below another letter. -/
def isKhmerSubscript (c : Char) : Bool :=
  inRanges [(0x1780, 0x1782), (0x1784, 0x1787), (0x1789, 0x178C), (0x178E, 0x1793),
    (0x1795, 0x1798), (0x179B, 0x179D), (0x17A0, 0x17A0), (0x17A2, 0x17A2), (0x17A7, 0x17A7),
    (0x17AB, 0x17AC), (0x17AF, 0x17AF)] c.toNat

/-- A Tifinagh consonant that joins with another. -/
def isTifinaghConsonant (c : Char) : Bool :=
  inRanges [(0x2D31, 0x2D65), (0x2D6F, 0x2D6F)] c.toNat

/-- The first four of the Lisu tone letters, which combine with the last two. -/
def isLisuTone (c : Char) : Bool :=
  0xA4F8 ≤ c.toNat && c.toNat ≤ 0xA4FB

/-! ## What follows a character -/

/-- Letters that can join with a letter before them. -/
inductive Ligature where
  | arabicAlef
  | hebrewLamed
  | khmerSubscript
  | bugineseYa
  | bugineseIya
  | tifinaghConsonant
  | tifinaghJoiner
  | lisuTone
  | oldTurkicI
deriving DecidableEq

/-- What a text begins with, as far as a character before it can join with it. -/
inductive Follower where
  | other
  | lineFeed
  /-- A letter, with or without a zero-width joiner before it. -/
  | letter (ligature : Ligature) (joined : Bool)
  | skinTone
  | regional
  | regionals
  | emoji
  /-- An emoji with a zero-width joiner before it. -/
  | joinedEmoji
  /-- A joined emoji after an enclosing key. -/
  | joinedKeycap
  /-- A joined emoji after a single, an even and a further odd number of regional indicators. -/
  | joinedRegional
  | joinedPairs
  | joinedOdd
  /-- A joined emoji after the end of a tag and some of the tag's last letters or digits. -/
  | tagLetters (count : Nat)
  | tagDigits (count : Nat)
  | kiratRaiE
  | kiratRaiAi
deriving DecidableEq

/-- A follower and the variation selectors before it. -/
structure Following where
  follower : Follower := .other
  /-- Whether the next character is to be drawn as an emoji. -/
  emojiStyle : Bool := false
  /-- Whether the next character is to be drawn as text. -/
  textStyle : Bool := false
  /-- Whether the next character, if it is a quotation mark, is to be wide. -/
  wideQuotes : Bool := false
deriving DecidableEq

/-- The styles that a variation selector can ask for. -/
inductive Style where
  | emoji
  | text
  | wideQuotes

/-- The style of a variation selector. -/
def Style.ofSelector? (c : Char) : Option Style :=
  match c.toNat with
  | 0xFE01 => some .wideQuotes
  | 0xFE0E => some .text
  | 0xFE0F => some .emoji
  | _ => none

/-- The ligature that a letter can be the second part of. -/
def Ligature.ofChar? (c : Char) : Option Ligature :=
  if isAlef c then some .arabicAlef
  else if c.toNat == 0x5DC then some .hebrewLamed
  else if isKhmerSubscript c then some .khmerSubscript
  else if c.toNat == 0x1A10 then some .bugineseYa
  else if isTifinaghConsonant c then some .tifinaghConsonant
  else if c.toNat == 0xA4FC || c.toNat == 0xA4FD then some .lisuTone
  else if c.toNat == 0x10C03 then some .oldTurkicI
  else none

/-- What a character is to the one before it, whatever comes after. -/
def Follower.ofChar (c : Char) : Follower :=
  match Ligature.ofChar? c with
  | some ligature => .letter ligature false
  | none =>
    if c == '\n' then .lineFeed
    else if c.toNat == 0x16D67 then .kiratRaiE
    else if c.toNat == 0x16D68 then .kiratRaiAi
    else if isRegional c then .regional
    else if isSkinTone c then .skinTone
    else if isEmoji c then .emoji
    else .other

/-- Whether the follower is a letter of a ligature, which keeps all selectors before it. -/
def Follower.isLetter : Follower → Bool
  | .letter _ _ => true
  | _ => false

/-- Whether the follower continues an emoji, so that what comes before takes no columns. -/
def Follower.continuesEmoji : Follower → Bool
  | .joinedEmoji => true
  | .joinedKeycap => true
  | _ => false

/-- A text after a variation selector; selectors only pile up where the follower remembers them. -/
def Following.select (next : Following) : Style → Following
  | .emoji =>
    if next.follower.isLetter || next.follower.continuesEmoji then
      { next with emojiStyle := true }
    else { emojiStyle := true }
  | .text =>
    if next.follower.isLetter then { next with textStyle := true }
    else { textStyle := true }
  | .wideQuotes =>
    if next.follower.isLetter then { next with wideQuotes := true }
    else { wideQuotes := true }

/-- A text whose selector for emoji met a character without that style. -/
def Following.dropEmojiStyle (next : Following) : Following :=
  if next.emojiStyle then
    if next.follower.isLetter then { next with emojiStyle := false } else {}
  else next

/-- A text whose selector for text or for quotation marks met a character without that style. -/
def Following.dropTextStyle (next : Following) : Following :=
  if next.textStyle then { next with textStyle := false } else { next with wideQuotes := false }

/-! ## Joining -/

/-- The columns that a character adds before a letter that it joins with. -/
def Ligature.precede? (c : Char) (joined : Bool) : Ligature → Option (Int × Follower)
  | .arabicAlef =>
    if isLam c then some (0, .other)
    else if isArabicMark c then some (0, .letter .arabicAlef joined)
    else none
  | .hebrewLamed => if joined && c.toNat == 0x5D0 then some (0, .other) else none
  | .khmerSubscript => if c.toNat == 0x17D2 then some (-1, .other) else none
  | .bugineseYa =>
    if joined && c.toNat == 0x1A17 then some (0, .letter .bugineseIya false) else none
  | .bugineseIya => if c.toNat == 0x1A15 then some (0, .other) else none
  | .tifinaghConsonant =>
    if c.toNat == 0x2D7F then some (1, .letter .tifinaghJoiner false)
    else if joined && isTifinaghConsonant c then some (0, .other)
    else none
  | .tifinaghJoiner => if isTifinaghConsonant c then some (-1, .other) else none
  | .lisuTone => if isLisuTone c then some (0, .other) else none
  | .oldTurkicI => if joined && c.toNat == 0x10C32 then some (0, .other) else none

/-- The columns that a character adds before an emoji with a zero-width joiner. -/
def precedeJoined? (c : Char) : Option (Int × Follower) :=
  if c.toNat == 0x20E3 then some (0, .joinedKeycap)
  else if isRegional c then some (1, .joinedRegional)
  else if isSkinTone c then some (0, .skinTone)
  else if c.toNat == 0xE007F then some (0, .tagLetters 0)
  else if Follower.ofChar c == .emoji then some (0, .emoji)
  else none

/-- The columns that a character of a tag adds: up to six letters or up to three digits after at
most four letters, all behind a black flag. -/
def precedeTag? (c : Char) (letters digits : Nat) : Option (Int × Follower) :=
  let n := c.toNat
  if digits == 0 && letters < 6 && 0xE0061 ≤ n && n ≤ 0xE007A then
    some (0, .tagLetters (letters + 1))
  else if digits < 3 && letters < 5 && 0xE0030 ≤ n && n ≤ 0xE0039 then
    some (0, .tagDigits (digits + 1))
  else if n == 0x1F3F4 && (digits == 3 || 3 ≤ letters) then some (0, .emoji)
  else none

/-- The columns that a character adds before a vowel sign of Kirat Rai. -/
def precedeKiratRaiE? (c : Char) : Option (Int × Follower) :=
  match c.toNat with
  | 0x16D63 => some (0, .other)
  | 0x16D67 => some (0, .kiratRaiAi)
  | 0x16D68 => some (1, .kiratRaiE)
  | 0x16D69 => some (0, .other)
  | _ => none

/-- The columns that a character adds before a follower with which it forms one sign. -/
def Follower.precede? (c : Char) : Follower → Option (Int × Follower)
  | .other => none
  | .lineFeed => none
  | .letter ligature joined => ligature.precede? c joined
  | .skinTone =>
    if inRanges modifierBaseRanges c.toNat then some (0, .emoji)
    else if c.toNat == 0x200D then some (0, .joinedEmoji)
    else none
  | .regional => if isRegional c then some (1, .regionals) else none
  | .regionals =>
    if isRegional c then some (1, .regionals)
    else if c.toNat == 0x200D then some (0, .joinedEmoji)
    else none
  | .emoji => if c.toNat == 0x200D then some (0, .joinedEmoji) else none
  | .joinedEmoji => precedeJoined? c
  | .joinedKeycap => none
  | .joinedRegional => if isRegional c then some (-1, .joinedPairs) else none
  | .joinedPairs =>
    if isRegional c then some (3, .joinedOdd)
    else if c.toNat == 0x200D then some (0, .joinedEmoji)
    else none
  | .joinedOdd =>
    if isRegional c then some (-1, .joinedPairs)
    else if c.toNat == 0x200D then some (0, .joinedEmoji)
    else none
  | .tagLetters count => precedeTag? c count 0
  | .tagDigits count => precedeTag? c 0 count
  | .kiratRaiE => precedeKiratRaiE? c
  | .kiratRaiAi => if c.toNat == 0x16D63 then some (0, .other) else none

/-- A mark that a ligature is looked through for; a joiner among them is remembered. -/
def Following.skip? (c : Char) (next : Following) : Option (Int × Following) :=
  match next.follower with
  | .letter .arabicAlef _ => none
  | .letter ligature _ =>
    if c.toNat == 0x200D then some (0, { next with follower := .letter ligature true })
    else if inRanges ligatureMarkRanges c.toNat then some (0, next)
    else none
  | _ => none

/-- The columns that a character adds to a text, and what the text then begins with. -/
def Following.precede (c : Char) (next : Following) : Int × Following :=
  if next.emojiStyle && hasEmojiStyle c then
    (if next.follower.continuesEmoji then 0 else 2, { follower := .emoji })
  else
    let next := next.dropEmojiStyle
    let alone : Int × Following := (charWidth c, { follower := .ofChar c })
    if c.toNat ≤ 0xA0 then
      if c == '\r' && next == { follower := .lineFeed } then (0, {}) else alone
    else match Style.ofSelector? c with
      | some style => (0, next.select style)
      | none =>
        if next.textStyle && isNarrowAsText c then (1, {})
        else if !next.textStyle && next.wideQuotes && isCurlyQuote c then (2, {})
        else
          let next := next.dropTextStyle
          match next.skip? c with
          | some step => step
          | none =>
            if next.wideQuotes then alone
            else match next.follower.precede? c with
              | some (columns, follower) => (columns, { follower })
              | none => alone

/-- The columns of a line. -/
def width (line : List Char) : Nat :=
  (line.foldr (fun c (total, next) =>
    let (columns, next) := next.precede c
    (total + columns, next)) ((0 : Int), ({} : Following))).1.toNat

end Rollback.Text
