import SiteCatalog.Text.Case

/-!
# Patterns of host names

Regular expressions and where they match. A term is read as a function on sets of positions of a
text: from the positions at which a match of it may start, it gives those at which one may end. A
set is a list of flags, one for each of the positions before, between and after the characters.
-/

namespace SiteCatalog.Pattern

open SiteCatalog.Text

/-- A set of characters. -/
inductive CharSet
  | none
  | range (first last : Char)
  | category (accepts : GeneralCategory → Bool)
  | property (holds : Char → Bool)
  | complement (s : CharSet)
  | union (s t : CharSet)
  | inter (s t : CharSet)
  /-- The characters that differ from one in the set in case only. -/
  | folded (s : CharSet)

/-- Whether a character is in a set. -/
def CharSet.has : CharSet → Char → Bool
  | .none, _ => false
  | .range first last, c => first ≤ c && c ≤ last
  | .category accepts, c => accepts (Text.category c)
  | .property holds, c => holds c
  | .complement s, c => !s.has c
  | .union s t, c => s.has c || t.has c
  | .inter s t, c => s.has c && t.has c
  | .folded s, c => (caseVariants c).any s.has

/-- The set of one character. -/
def CharSet.single (c : Char) : CharSet :=
  .range c c

/-- The set of every character. -/
def CharSet.any : CharSet :=
  .complement .none

/-- The characters of one set that are not in another. -/
def CharSet.diff (s t : CharSet) : CharSet :=
  .inter s (.complement t)

/-- The characters of exactly one of two sets. -/
def CharSet.symmDiff (s t : CharSet) : CharSet :=
  .union (s.diff t) (t.diff s)

/-- A condition on a position. -/
inductive Look
  | textStart
  | textEnd
  | lineStart
  | lineEnd
  /-- The start of a line where a carriage return, alone or before a line feed, also ends lines. -/
  | lineStartCR
  | lineEndCR
  | wordBoundary (isWord : Char → Bool)
  | noWordBoundary (isWord : Char → Bool)
  | wordStart (isWord : Char → Bool)
  | wordEnd (isWord : Char → Bool)
  | wordStartHalf (isWord : Char → Bool)
  | wordEndHalf (isWord : Char → Bool)

/-- The characters on the two sides of a position, if any. -/
structure Gap where
  before : Option Char
  after : Option Char

/-- Whether a condition holds at a position. -/
def Look.holds : Look → Gap → Bool
  | .textStart, g => g.before.isNone
  | .textEnd, g => g.after.isNone
  | .lineStart, g => g.before.isNone || g.before = some '\n'
  | .lineEnd, g => g.after.isNone || g.after = some '\n'
  | .lineStartCR, g =>
    g.before.isNone || g.before = some '\n' || (g.before = some '\r' && g.after ≠ some '\n')
  | .lineEndCR, g =>
    g.after.isNone || g.after = some '\r' || (g.after = some '\n' && g.before ≠ some '\r')
  | .wordBoundary w, g => g.before.any w != g.after.any w
  | .noWordBoundary w, g => g.before.any w == g.after.any w
  | .wordStart w, g => !g.before.any w && g.after.any w
  | .wordEnd w, g => g.before.any w && !g.after.any w
  | .wordStartHalf w, g => !g.before.any w
  | .wordEndHalf w, g => !g.after.any w

/-- A regular expression. -/
inductive Term
  | empty
  | chars (s : CharSet)
  | look (l : Look)
  | seq (first second : Term)
  | alt (left right : Term)
  /-- At least `min` repetitions, and at most `max` if that is given. -/
  | repeated (t : Term) (min : Nat) (max : Option Nat)

/-- The positions of a text, given the character before the first. -/
def gapsAfter (before : Option Char) : List Char → List Gap
  | [] => [⟨before, none⟩]
  | c :: rest => ⟨before, some c⟩ :: gapsAfter (some c) rest

/-- The positions of a text. -/
def gaps (cs : List Char) : List Gap :=
  gapsAfter none cs

/-- The union of two sets of positions. -/
def joined (at₁ at₂ : List Bool) : List Bool :=
  List.zipWith (· || ·) at₁ at₂

/-- A function applied a number of times. -/
def iterate (f : List Bool → List Bool) : Nat → List Bool → List Bool
  | 0, s => s
  | n + 1, s => iterate f n (f s)

/-- The positions reached by applying a function at most a number of times. -/
def reach (f : List Bool → List Bool) : Nat → List Bool → List Bool
  | 0, s => s
  | n + 1, s => if s.any id then joined s (reach f n (f s)) else s

/-- The positions at which a match of a term may end that starts at one of the given positions. -/
def Term.ends (cs : List Char) : Term → List Bool → List Bool
  | .empty, s => s
  | .chars set, s => false :: List.zipWith (fun here c => here && set.has c) s cs
  | .look l, s => List.zipWith (fun here g => here && l.holds g) s (gaps cs)
  | .seq first second, s => second.ends cs (first.ends cs s)
  | .alt left right, s => joined (left.ends cs s) (right.ends cs s)
  | .repeated t min max, s =>
    reach (t.ends cs) ((max.getD (min + cs.length)) - min) (iterate (t.ends cs) min s)

/-- Whether a term matches somewhere in a text. -/
def Term.matches (t : Term) (cs : List Char) : Bool :=
  (t.ends cs (List.replicate (cs.length + 1) true)).any id

end SiteCatalog.Pattern
