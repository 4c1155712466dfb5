/-
  SchemaDrift/Pattern/CharClass.lean
  ==================================
  **Classes of characters**, as patterns name them.

  A class is an expression: ranges of code points and properties, combined by union,
  intersection and complement, and closed under case folding where a pattern ignores
  case.  Folding is simple case folding of Unicode, or of ASCII letters alone where a
  pattern asks for ASCII.  `mem` says which characters belong to a class.
-/
import SchemaDrift.Text.Blank
import SchemaDrift.Text.CaseFold
import SchemaDrift.Text.WordTable

namespace SchemaDrift

/-- The classes that have a letter of their own in patterns. -/
inductive CharProperty where
  | digit
  | space
  | word
deriving Repr, DecidableEq

inductive CharClass where
  | none
  /-- The code points from one to another, both included. -/
  | range (first last : Nat)
  | property (p : CharProperty)
  | not (c : CharClass)
  | or (a b : CharClass)
  | and (a b : CharClass)
  /-- All characters that differ from one of the class in case only. -/
  | fold (c : CharClass)
  /-- The same for ASCII letters. -/
  | foldAscii (c : CharClass)
deriving Repr, DecidableEq

def CharProperty.holds : CharProperty → Char → Bool
  | digit, c => isDigitChar c
  | space, c => isBlankChar c
  | word, c => isWordChar c

namespace CharClass

def memCode : CharClass → Nat → Bool
  | none, _ => false
  | range first last, n => first ≤ n && n ≤ last
  | property p, n => p.holds (Char.ofNat n)
  | not c, n => !c.memCode n
  | or a b, n => a.memCode n || b.memCode n
  | and a b, n => a.memCode n && b.memCode n
  | fold c, n => c.memCode n || (foldOrbit n).any c.memCode
  | foldAscii c, n =>
    c.memCode n || c.memCode (Char.ofNat n).toLower.toNat || c.memCode (Char.ofNat n).toUpper.toNat

def mem (cls : CharClass) (c : Char) : Bool := cls.memCode c.toNat

def single (c : Char) : CharClass := range c.toNat c.toNat

/-- The class of several ranges of characters. -/
def ofRanges (ranges : List (Char × Char)) : CharClass :=
  ranges.foldr (fun (first, last) rest => or (range first.toNat last.toNat) rest) none

def difference (a b : CharClass) : CharClass := and a (not b)

def symmetricDifference (a b : CharClass) : CharClass := or (difference a b) (difference b a)

/-- The ASCII part of a property. -/
def asciiProperty : CharProperty → CharClass
  | .digit => ofRanges [('0', '9')]
  | .space => ofRanges [('\t', '\r'), (' ', ' ')]
  | .word => ofRanges [('0', '9'), ('A', 'Z'), ('_', '_'), ('a', 'z')]

/-- The ASCII class of a name, as it is written between colons. -/
def ofName? (name : String) : Option CharClass :=
  match name with
  | "alnum" => some (ofRanges [('0', '9'), ('A', 'Z'), ('a', 'z')])
  | "alpha" => some (ofRanges [('A', 'Z'), ('a', 'z')])
  | "ascii" => some (range 0 0x7F)
  | "blank" => some (ofRanges [('\t', '\t'), (' ', ' ')])
  | "cntrl" => some (or (range 0 0x1F) (range 0x7F 0x7F))
  | "digit" => some (ofRanges [('0', '9')])
  | "graph" => some (ofRanges [('!', '~')])
  | "lower" => some (ofRanges [('a', 'z')])
  | "print" => some (ofRanges [(' ', '~')])
  | "punct" => some (or (range 0x21 0x2F) (or (range 0x3A 0x40) (or (range 0x5B 0x60)
      (range 0x7B 0x7E))))
  | "space" => some (ofRanges [('\t', '\r'), (' ', ' ')])
  | "upper" => some (ofRanges [('A', 'Z')])
  | "word" => some (asciiProperty .word)
  | "xdigit" => some (ofRanges [('0', '9'), ('A', 'F'), ('a', 'f')])
  | _ => Option.none

end CharClass

end SchemaDrift
