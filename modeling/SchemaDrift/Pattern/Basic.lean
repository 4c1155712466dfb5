/-
  SchemaDrift/Pattern/Basic.lean
  ==============================
  **Patterns, and the texts in which they occur.**

  A pattern is a regular expression with assertions about the place it is at.  Whether
  it occurs in a text is decided for all places at once.  A text of `n` characters has
  `n + 1` places, and a set of places is a number whose bit `i` says whether place `i`
  belongs to the set; `Pattern.run` sends the set of places where a pattern may start
  to the set of those where it may end.  A repetition without an upper bound is closed
  after at most as many rounds as there are places.
-/
import SchemaDrift.Pattern.CharClass

namespace SchemaDrift

/-- What a pattern can ask of the place it is at, without taking a character.  The flag says
    whether words are those of Unicode or of ASCII. -/
inductive Look where
  | textStart
  | textEnd
  | lineStart
  | lineEnd
  /-- The start of a line where a carriage return also ends lines. -/
  | lineStartCrlf
  | lineEndCrlf
  | wordBoundary (unicode : Bool)
  | notWordBoundary (unicode : Bool)
  | wordStart (unicode : Bool)
  | wordEnd (unicode : Bool)
  | wordStartHalf (unicode : Bool)
  | wordEndHalf (unicode : Bool)
deriving Repr, DecidableEq

namespace Look

def isWordAt (unicode : Bool) (c : Option Char) : Bool :=
  match c with
  | none => false
  | some c => if unicode then isWordChar c else (CharClass.asciiProperty .word).mem c

def holds (before after : Option Char) : Look → Bool
  | textStart => before.isNone
  | textEnd => after.isNone
  | lineStart => before.isNone || before == some '\n'
  | lineEnd => after.isNone || after == some '\n'
  | lineStartCrlf =>
    before.isNone || before == some '\n' || (before == some '\r' && after != some '\n')
  | lineEndCrlf =>
    after.isNone || after == some '\r' || (after == some '\n' && before != some '\r')
  | wordBoundary unicode => isWordAt unicode before != isWordAt unicode after
  | notWordBoundary unicode => isWordAt unicode before == isWordAt unicode after
  | wordStart unicode => !isWordAt unicode before && isWordAt unicode after
  | wordEnd unicode => isWordAt unicode before && !isWordAt unicode after
  | wordStartHalf unicode => !isWordAt unicode before
  | wordEndHalf unicode => !isWordAt unicode after

end Look

/-- A regular expression. -/
inductive Pattern where
  | empty
  | one (cls : CharClass)
  | look (l : Look)
  | seq (a b : Pattern)
  | alt (a b : Pattern)
  /-- A pattern again and again, at least and at most so many times. -/
  | repeated (least : Nat) (most : Option Nat) (p : Pattern)
deriving Repr, DecidableEq

/-! ### Sets of places -/

/-- The number whose bits are given, the lowest one first. -/
def bitsOf : List Bool → Nat
  | [] => 0
  | b :: bs => (if b then 1 else 0) + 2 * bitsOf bs

/-- The places before a character that passes a test. -/
def placesBefore (test : Char → Bool) (text : List Char) : Nat := bitsOf (text.map test)

/-- The places at which an assertion holds, given the character before the text. -/
def lookBits (l : Look) (before : Option Char) : List Char → List Bool
  | [] => [l.holds before none]
  | c :: cs => l.holds before (some c) :: lookBits l (some c) cs

def iterate {α : Type} (f : α → α) : Nat → α → α
  | 0, x => x
  | n + 1, x => iterate f n (f x)

/-- Adds the places that a function reaches, again and again: until nothing is new, and at most a
    number of times. -/
def saturate (f : Nat → Nat) : Nat → Nat → Nat
  | 0, reached => reached
  | n + 1, reached =>
    let next := reached ||| f reached
    if next = reached then reached else saturate f n next

namespace Pattern

/-- The places where a pattern may end when it starts at one of a set of places. -/
def run (text : List Char) : Pattern → Nat → Nat
  | empty, places => places
  | one cls, places => (places &&& placesBefore cls.mem text) <<< 1
  | look l, places => places &&& bitsOf (lookBits l none text)
  | seq a b, places => b.run text (a.run text places)
  | alt a b, places => a.run text places ||| b.run text places
  | repeated least most p, places =>
    let rounds := match most with
      | none => text.length + 1
      | some most => min (most - least) (text.length + 1)
    saturate (p.run text) rounds (iterate (p.run text) least places)

/-- Whether a pattern occurs somewhere in a text. -/
def occursIn (p : Pattern) (text : String) : Bool :=
  p.run text.toList ((1 <<< (text.toList.length + 1)) - 1) != 0

/-! ### Size -/

/-- The room that a class takes in a compiled pattern, in bytes; properties of Unicode take
    most. -/
def classSize : CharClass → Nat
  | .none => 32
  | .range _ last => if last < 0x80 then 48 else 96
  | .property .word => 24000
  | .property _ => 2400
  | .not c => max 480 (classSize c)
  | .or a b => classSize a + classSize b
  | .and a b => classSize a + classSize b
  | .fold c | .foldAscii c => classSize c

/-- The room that a pattern takes when every repetition is written out. -/
def size : Pattern → Nat
  | empty => 32
  | one cls => classSize cls
  | look _ => 32
  | seq a b => a.size + b.size
  | alt a b => 32 + a.size + b.size
  | repeated least most p => 32 + max 1 (most.getD (least + 1)) * p.size

/-- The most room that a pattern may take: ten mebibytes. -/
def sizeLimit : Nat := 10 * 1024 * 1024

end Pattern

end SchemaDrift
