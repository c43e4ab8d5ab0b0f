import Placeholders.Text.Width.Emoji
import Placeholders.Text.Width.Ligature

/-!
The width of text in columns of a terminal. It is the sum of the widths of the characters, but for
sequences that are shown as one: emoji with selectors, skin tones and joiners, and ligatures. Text
is read from its end, because the later characters of a sequence tell how the earlier ones are
shown.
-/

namespace Placeholders

/-- What a variation selector makes of the character before it. -/
inductive Look where
  | text
  | emoji
deriving Repr, DecidableEq

/-- What has been read of a ligature besides its last letter. -/
inductive LigaturePart where
  | last
  | joiner
  | middle
deriving Repr, DecidableEq

/-- What follows a character, as far as the width of both depends on it. -/
inductive Follower where
  | plain
  | selector (look : Look)
  | emoji
  | skinTone
  | indicators (count : Nat)
  /-- An emoji behind a joiner, the emoji selector perhaps before both. -/
  | joined (selected : Bool)
  | joinedKeycap
  | joinedIndicators (count : Nat)
  | joinedTags (count : Nat)
  | ligature (l : Ligature) (read : LigaturePart) (look : Option Look)
  /-- A Kirat Rai vowel sign, which may be the second half of another one. -/
  | vowelSign (doubled : Bool)
deriving Repr, DecidableEq

namespace Follower

def joiner : Char := '\u200D'

def ofChar (c : Char) : Follower :=
  if isSkinTone c then skinTone
  else if isRegionalIndicator c then indicators 1
  else if isEmoji c then emoji
  else if c.toNat = 0x16D67 then vowelSign false
  else if c.toNat = 0x16D68 then vowelSign true
  else match Ligature.ofLast? c with
    | some l => ligature l .last none
    | none => plain

/-- The look that is asked of the character before. -/
def look? : Follower → Option Look
  | selector look => some look
  | joined true => some .emoji
  | ligature _ _ look => look
  | _ => none

/-- What is left when the character before has only one look. -/
def unselected : Follower → Follower
  | selector _ | joined true => plain
  | ligature l part _ => ligature l part none
  | f => f

def select (look : Look) : Follower → Follower
  | ligature l part _ => ligature l part (some look)
  | joined false | joinedKeycap => if look = .emoji then joined true else selector look
  | _ => selector look

/-- What a character of a ligature adds to the width, before what has been read of it. -/
def extendLigature (l : Ligature) (read : LigaturePart) (c : Char) : Option (Int × Follower) :=
  if c = joiner ∧ l ≠ .lamAlef then
    some (0, ligature l (if read = .last then .joiner else read) none)
  else if l.reachesAcross c then some (0, ligature l read none)
  else match l, read with
    | .lamAlef, _ => if Ligature.lams.covers c then some (0, plain) else none
    | .alefLamed, .joiner => if c.toNat = 0x5D0 then some (0, plain) else none
    | .buginese, .joiner => if c.toNat = 0x1A17 then some (0, ligature l .middle none) else none
    | .buginese, .middle => if c.toNat = 0x1A15 then some (0, plain) else none
    | .tifinagh, .middle =>
      if Ligature.tifinaghConsonants.covers c then some (-1, plain) else none
    | .tifinagh, read =>
      if c.toNat = 0x2D7F then some (1, ligature l .middle none)
      else if read = .joiner ∧ Ligature.tifinaghConsonants.covers c then some (0, plain)
      else none
    | .lisuTone, _ => if CharRuns.covers [(0xA4F8, 0xA4FB)] c then some (0, plain) else none
    | .orkhon, .joiner => if c.toNat = 0x10C32 then some (0, plain) else none
    | .coeng, _ => if c.toNat = 0x17D2 then some (-1, plain) else none
    | _, _ => none

/-- What a character adds to the width before what it is shown as one with. -/
def extend? (next : Follower) (c : Char) : Option (Int × Follower) :=
  match next with
  | emoji => if c = joiner then some (0, joined false) else none
  | skinTone =>
    if takesSkinTone c then some (0, emoji)
    else if c = joiner then some (0, joined false)
    else none
  | indicators count =>
    if isRegionalIndicator c then some (1, indicators (count + 1))
    else if c = joiner ∧ 2 ≤ count then some (0, joined false)
    else none
  | joined _ =>
    if c.toNat = 0x20E3 then some (0, joinedKeycap)
    else if isRegionalIndicator c then some (1, joinedIndicators 1)
    else if isSkinTone c then some (0, skinTone)
    else if c.toNat = 0xE007F then some (0, joinedTags 0)
    else if isEmoji c then some (0, emoji)
    else none
  | joinedIndicators count =>
    if isRegionalIndicator c then
      some (if count % 2 = 1 then -1 else 3, joinedIndicators (count + 1))
    else if c = joiner ∧ 2 ≤ count then some (0, joined false)
    else none
  | joinedTags count =>
    if isTag c ∧ count < 6 then some (0, joinedTags (count + 1))
    else if c.toNat = 0x1F3F4 ∧ 3 ≤ count then some (0, emoji)
    else none
  | ligature l read _ => extendLigature l read c
  | vowelSign doubled =>
    if c.toNat = 0x16D63 then some (0, plain)
    else if doubled then none
    else if c.toNat = 0x16D67 then some (0, vowelSign true)
    else if c.toNat = 0x16D68 then some (1, vowelSign false)
    else if c.toNat = 0x16D69 then some (0, plain)
    else none
  | _ => none

/-- What a character adds to the width of the text after it, and what it is itself to the character
before it. -/
def precede (next : Follower) (c : Char) : Int × Follower :=
  if next.look? = some .emoji ∧ hasEmojiLook c then (if next = joined true then 0 else 2, emoji)
  else if c.toNat ≤ 0xA0 then (1, plain)
  else
    let next := if next.look? = some .emoji then next.unselected else next
    if c = '\uFE0F' then (0, next.select .emoji)
    else if c = '\uFE0E' then (0, next.select .text)
    else if next.look? = some .text ∧ hasNarrowTextLook c then (1, plain)
    else (next.unselected.extend? c).getD (charWidth c, ofChar c)

end Follower

namespace Text

/-- The width of a text, read from its end, and what the text is to a character before it. -/
def measure (t : Text) : Int × Follower :=
  t.foldr (fun c (width, next) =>
    let (added, follower) := next.precede c
    (width + added, follower)) (0, .plain)

def width (t : Text) : Nat := (measure t).1.toNat

end Text
end Placeholders
