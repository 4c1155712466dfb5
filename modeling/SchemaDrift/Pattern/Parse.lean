/-
  SchemaDrift/Pattern/Parse.lean
  ==============================
  **Reading patterns.**

  The reader goes through the text of a pattern once.  It carries the flags that are in
  force, which a group may set for itself and a bare `(?…)` for the rest of the group
  it stands in, and the names of the groups met so far, as no two may share one.  It
  says no to unbalanced parentheses and brackets, to a repetition of nothing, to counts
  that are no counts or the wrong way round, to unknown escapes, flags and reversed
  ranges, to assertions about what is around a group, to references to earlier groups,
  and to a pattern that is too large when its repetitions are written out.
-/
import SchemaDrift.Pattern.Basic
import SchemaDrift.Text.Decimal
import SchemaDrift.Text.Hex

namespace SchemaDrift

namespace Pattern

structure Flags where
  ignoreCase : Bool := false
  multiLine : Bool := false
  dotMatchesNewLine : Bool := false
  swapGreed : Bool := false
  unicode : Bool := true
  crlf : Bool := false
  /-- White space and comments do not count. -/
  verbose : Bool := false
deriving Repr, DecidableEq

/-! ### White space and comments -/

/-- Drops white space, and comments from a number sign to the end of the line. -/
def skipComments (inside : Bool) : List Char → List Char
  | [] => []
  | c :: cs =>
    if inside then skipComments (c != '\n') cs
    else if isBlankChar c then skipComments false cs
    else if c = '#' then skipComments true cs
    else c :: cs

def skipIgnored (f : Flags) (cs : List Char) : List Char :=
  if f.verbose then skipComments false cs else cs

/-! ### Escapes -/

/-- What an escape stands for. -/
inductive Escape where
  /-- A character; `byte` marks one written as a two-digit code. -/
  | literal (c : Char) (byte : Bool)
  | property (p : CharProperty) (negated : Bool)
  | look (l : Look)

/-- The characters with a meaning of their own. -/
def isMeta (c : Char) : Bool := "\\.+*?()|[]\x7b\x7d^$#&-~".toList.contains c

/-- The characters that an escape leaves as they are: ASCII without letters, digits and angle
    brackets. -/
def isEscapable (c : Char) : Bool :=
  isMeta c || (c.toNat < 0x80 && !c.isAlphanum && c != '<' && c != '>')

/-- The character of a number, if it is one. -/
def charOfCode? (n : Nat) : Option Char := if n.isValidChar then some (Char.ofNat n) else none

/-- A fixed number of hexadecimal digits. -/
def parseHexDigits (f : Flags) : Nat → List Char → Option (List Char × List Char)
  | 0, cs => some ([], cs)
  | n + 1, cs =>
    match cs with
    | [] => none
    | c :: cs => do
      let _ ← hexValue? c
      let (digits, rest) ← parseHexDigits f n (skipIgnored f cs)
      return (c :: digits, rest)

/-- Hexadecimal digits up to a closing brace. -/
def parseHexBraced (f : Flags) : Nat → List Char → Option (List Char × List Char)
  | 0, _ => none
  | fuel + 1, cs =>
    match skipIgnored f cs with
    | [] => none
    | '\x7d' :: rest => some ([], skipIgnored f rest)
    | c :: rest => do
      let _ ← hexValue? c
      let (digits, rest) ← parseHexBraced f fuel rest
      return (c :: digits, rest)

/-- A character by its code, behind the letter that gives the number of digits. -/
def parseHex (f : Flags) (digits : Nat) (cs : List Char) : Option (Escape × List Char) := do
  let (code, braced, rest) ← match skipIgnored f cs with
    | [] => none
    | '\x7b' :: rest => (parseHexBraced f (rest.length + 1) rest).map fun (ds, rest) => (ds, true, rest)
    | cs => (parseHexDigits f digits cs).map fun (ds, rest) => (ds, false, rest)
  let c ← (readHex code).bind charOfCode?
  return (.literal c (digits == 2 && !braced), rest)

/-- What may stand in the braces behind `\b`. -/
def isBoundaryLetter (c : Char) : Bool := c.isAlpha || c == '-'

/-- The letters behind `\b`, without what does not count. -/
def boundaryLetters (f : Flags) : Nat → List Char → List Char × List Char
  | 0, cs => ([], cs)
  | fuel + 1, cs =>
    match cs with
    | c :: rest =>
      if isBoundaryLetter c then
        let (letters, rest) := boundaryLetters f fuel (skipIgnored f rest)
        (c :: letters, rest)
      else ([], cs)
    | [] => ([], [])

/-- A word boundary, behind `\b`.  Braces that do not begin with a letter belong to a count. -/
def parseBoundary (f : Flags) (cs : List Char) : Option (Escape × List Char) :=
  let plain := some (Escape.look (.wordBoundary f.unicode), cs)
  match cs with
  | '\x7b' :: rest =>
    match skipIgnored f rest with
    | [] => none
    | c :: more =>
      if isBoundaryLetter c then
        match boundaryLetters f (more.length + 1) (c :: more) with
        | (letters, '\x7d' :: rest) =>
          match String.ofList letters with
          | "start" => some (.look (.wordStart f.unicode), rest)
          | "end" => some (.look (.wordEnd f.unicode), rest)
          | "start-half" => some (.look (.wordStartHalf f.unicode), rest)
          | "end-half" => some (.look (.wordEndHalf f.unicode), rest)
          | _ => none
        | _ => none
      else plain
  | _ => plain

/-- An escape, behind its backslash. -/
def parseEscape (f : Flags) : List Char → Option (Escape × List Char)
  | [] => none
  | c :: rest =>
    match c with
    | 'x' => parseHex f 2 rest
    | 'u' => parseHex f 4 rest
    | 'U' => parseHex f 8 rest
    | 'd' => some (.property .digit false, rest)
    | 's' => some (.property .space false, rest)
    | 'w' => some (.property .word false, rest)
    | 'D' => some (.property .digit true, rest)
    | 'S' => some (.property .space true, rest)
    | 'W' => some (.property .word true, rest)
    | 'a' => some (.literal '\x07' false, rest)
    | 'f' => some (.literal '\x0c' false, rest)
    | 't' => some (.literal '\t' false, rest)
    | 'n' => some (.literal '\n' false, rest)
    | 'r' => some (.literal '\r' false, rest)
    | 'v' => some (.literal '\x0b' false, rest)
    | 'A' => some (.look .textStart, rest)
    | 'z' => some (.look .textEnd, rest)
    | 'b' => parseBoundary f rest
    | 'B' => some (.look (.notWordBoundary f.unicode), rest)
    | '<' => some (.look (.wordStart f.unicode), rest)
    | '>' => some (.look (.wordEnd f.unicode), rest)
    | c => if isEscapable c then some (.literal c false, rest) else none

/-! ### Classes under flags -/

/-- A class closed under case, if case is ignored. -/
def foldClass (f : Flags) (cls : CharClass) : CharClass :=
  if f.ignoreCase then (if f.unicode then .fold cls else .foldAscii cls) else cls

/-- The complement of a class.  Without Unicode it would hold more than characters. -/
def negateClass (f : Flags) (negated : Bool) (cls : CharClass) : Option CharClass :=
  if negated then (if f.unicode then some (.not cls) else none) else some cls

def propertyClass (f : Flags) (p : CharProperty) (negated : Bool) : Option CharClass :=
  negateClass f negated (if f.unicode then .property p else CharClass.asciiProperty p)

/-- A character that stands for itself in a class; without Unicode it must be ASCII. -/
def classLiteral (f : Flags) (c : Char) : Option Char :=
  if f.unicode || c.toNat < 0x80 then some c else none

/-- A character that stands for itself.  Without Unicode its case can be ignored only in ASCII,
    and a two-digit code must be in ASCII. -/
def literalPattern (f : Flags) (c : Char) (byte : Bool) : Option Pattern :=
  if !f.unicode && c.toNat ≥ 0x80 && (byte || f.ignoreCase) then none
  else some (.one (foldClass f (.single c)))

def escapePattern (f : Flags) : Escape → Option Pattern
  | .literal c byte => literalPattern f c byte
  | .property p negated => (propertyClass f p negated).map .one
  | .look l => some (.look l)

def dotPattern (f : Flags) : Option Pattern :=
  let lineEnds := if f.crlf then CharClass.or (.single '\r') (.single '\n') else .single '\n'
  if f.unicode then
    some (.one (.not (if f.dotMatchesNewLine then .none else lineEnds)))
  else none

def caretLook (f : Flags) : Look :=
  if f.multiLine then (if f.crlf then .lineStartCrlf else .lineStart) else .textStart

def dollarLook (f : Flags) : Look :=
  if f.multiLine then (if f.crlf then .lineEndCrlf else .lineEnd) else .textEnd

/-! ### Brackets -/

/-- The operations between the parts of a bracket. -/
inductive SetOperation where
  | intersection
  | difference
  | symmetricDifference

/-- A bracket so far: what is to the left of an operation, and the operation. -/
abbrev LeftPart := Option (CharClass × SetOperation)

/-- The class of a left part and what is to the right of its operation. -/
def combine (f : Flags) (left : LeftPart) (right : CharClass) : CharClass :=
  match left with
  | none => right
  | some (left, operation) =>
    let a := foldClass f left
    let b := foldClass f right
    match operation with
    | .intersection => .and a b
    | .difference => .difference a b
    | .symmetricDifference => .symmetricDifference a b

/-- A named class, behind `[:`. -/
def parseNamedClass (f : Flags) (cs : List Char) : Option (Option CharClass × List Char) :=
  let (negated, cs) := match cs with
    | '^' :: rest => (true, rest)
    | _ => (false, cs)
  match cs.dropWhile (· ≠ ':') with
  | ':' :: ']' :: rest =>
    (CharClass.ofName? (String.ofList (cs.takeWhile (· ≠ ':')))).map fun cls =>
      (negateClass f negated (foldClass f cls), rest)
  | _ => none

/-- A single member of a bracket. -/
def parseMember (f : Flags) : List Char → Option (Escape × List Char)
  | [] => none
  | '\\' :: rest => parseEscape f rest
  | c :: rest => some (.literal c false, rest)

def memberClass (f : Flags) : Escape → Option CharClass
  | .literal c _ => (classLiteral f c).map .single
  | .property p negated => propertyClass f p negated
  | .look _ => none

/-- A member of a bracket, or a range between two.  A minus sign before the closing bracket or
    before another minus sign makes no range. -/
def parseRange (f : Flags) (cs : List Char) : Option (CharClass × List Char) := do
  let (first, rest) ← parseMember f cs
  match skipIgnored f rest with
  | [] => none
  | '-' :: behind =>
    match skipIgnored f behind with
    | [] => none
    | c :: more =>
      if c = ']' || c = '-' then return (← memberClass f first, '-' :: behind)
      else
        let (last, rest) ← parseMember f (c :: more)
        match first, last with
        | .literal a _, .literal b _ =>
          let a ← classLiteral f a
          let b ← classLiteral f b
          if a ≤ b then return (.range a.toNat b.toNat, rest) else none
        | _, _ => none
  | rest => return (← memberClass f first, rest)

/-- The minus signs at the beginning of a bracket, which stand for themselves. -/
def parseLeadingMinus (f : Flags) : Nat → CharClass → List Char → CharClass × List Char
  | 0, found, cs => (found, cs)
  | fuel + 1, found, cs =>
    match cs with
    | '-' :: rest => parseLeadingMinus f fuel (.or found (.single '-')) (skipIgnored f rest)
    | cs => (found, cs)

mutual

/-- A bracket, behind its opening. -/
def parseBracket (f : Flags) : Nat → List Char → Option (CharClass × List Char)
  | 0, _ => none
  | fuel + 1, cs => do
    let cs := skipIgnored f cs
    let (negated, cs) := match cs with
      | '^' :: rest => (true, skipIgnored f rest)
      | _ => (false, cs)
    let (found, rest) := parseLeadingMinus f cs.length .none cs
    let (found, rest) := match found, rest with
      | .none, ']' :: rest => (CharClass.single ']', skipIgnored f rest)
      | _, _ => (found, rest)
    let (cls, rest) ← parseMembers f fuel none found rest
    return (← negateClass f negated (foldClass f cls), rest)

/-- The members of a bracket, up to its closing. -/
def parseMembers (f : Flags) : Nat → LeftPart → CharClass → List Char → Option (CharClass × List Char)
  | 0, _, _, _ => none
  | fuel + 1, left, found, cs =>
    match skipIgnored f cs with
    | [] => none
    | '[' :: rest =>
      let named := match rest with
        | ':' :: behind => parseNamedClass f behind
        | _ => none
      match named with
      | some (cls, rest) => do parseMembers f fuel left (.or found (← cls)) rest
      | none => do
        let (cls, rest) ← parseBracket f fuel rest
        parseMembers f fuel left (.or found cls) rest
    | ']' :: rest => some (combine f left found, rest)
    | '&' :: '&' :: rest =>
      parseMembers f fuel (some (combine f left found, .intersection)) .none rest
    | '-' :: '-' :: rest =>
      parseMembers f fuel (some (combine f left found, .difference)) .none rest
    | '~' :: '~' :: rest =>
      parseMembers f fuel (some (combine f left found, .symmetricDifference)) .none rest
    | cs => do
      let (cls, rest) ← parseRange f cs
      parseMembers f fuel left (.or found cls) rest

end

/-! ### Repetitions -/

/-- The digits of a count, without what does not count. -/
def countDigits (f : Flags) : Nat → List Char → List Char × List Char
  | 0, cs => ([], cs)
  | fuel + 1, cs =>
    match cs with
    | c :: rest =>
      if c.isDigit then
        let (ds, rest) := countDigits f fuel (skipIgnored f rest)
        (c :: ds, rest)
      else ([], cs)
    | [] => ([], [])

/-- A count, with white space around it. -/
def parseCount (f : Flags) (cs : List Char) : Option (Option Nat × List Char) :=
  let cs := cs.dropWhile isBlankChar
  let (ds, rest) := countDigits f cs.length cs
  let rest := skipIgnored f (rest.dropWhile isBlankChar)
  if ds.isEmpty then some (none, rest)
  else ((readDecimal ds).filter (· < UInt32.size)).map fun n => (some n, rest)

/-- Drops the question mark that makes a repetition lazy; it has no bearing on whether a pattern
    occurs. -/
def dropLazy : List Char → List Char
  | '?' :: rest => rest
  | cs => cs

/-- The bounds of a repetition, behind the opening brace. -/
def parseBounds (f : Flags) (cs : List Char) : Option ((Nat × Option Nat) × List Char) := do
  let cs := skipIgnored f cs
  if cs.isEmpty then none
  let (least, rest) ← parseCount f cs
  match rest with
  | ',' :: rest =>
    match skipIgnored f rest with
    | [] => none
    | '\x7d' :: rest => return ((← least, none), dropLazy (skipIgnored f rest))
    | rest =>
      let least ← least
      let (most, rest) ← parseCount f rest
      let most ← most
      match rest with
      | '\x7d' :: rest =>
        if least ≤ most then return ((least, some most), dropLazy (skipIgnored f rest)) else none
      | _ => none
  | '\x7d' :: rest => return ((← least, least), dropLazy (skipIgnored f rest))
  | _ => none

/-! ### Groups -/

/-- The names of the groups met so far. -/
abbrev GroupNames := List (List Char)

/-- The characters of a group name, the first of which must be a letter or an underscore. -/
def isNameChar (isFirst : Bool) (c : Char) : Bool :=
  if isFirst then c == '_' || isAlphabetic c
  else c == '_' || c == '.' || c == '[' || c == ']' || isAlphanumeric c

/-- The name of a group, up to the closing angle bracket. -/
def parseGroupName (names : GroupNames) (cs : List Char) : Option (List Char × List Char) :=
  let name := cs.takeWhile (· ≠ '>')
  match cs.dropWhile (· ≠ '>'), name with
  | _ :: rest, first :: more =>
    if isNameChar true first && more.all (isNameChar false) && !names.contains name then
      some (name, rest)
    else none
  | _, _ => none

def setFlag (f : Flags) (flag : Char) (value : Bool) : Option Flags :=
  match flag with
  | 'i' => some { f with ignoreCase := value }
  | 'm' => some { f with multiLine := value }
  | 's' => some { f with dotMatchesNewLine := value }
  | 'U' => some { f with swapGreed := value }
  | 'u' => some { f with unicode := value }
  | 'R' => some { f with crlf := value }
  | 'x' => some { f with verbose := value }
  | _ => none

/-- Flags up to a colon or a closing parenthesis: the flags that are set, the letters met, the
    last one first, and which of the two ends came.  A minus sign turns the following flags off;
    it may come once, and not last. -/
def parseFlags (f : Flags) (met : List Char) :
    List Char → Option ((Flags × List Char × Bool) × List Char)
  | [] => none
  | c :: rest =>
    if c = ':' || c = ')' then
      if met.head? == some '-' then none else some ((f, met, c == ':'), rest)
    else if met.contains c then none
    else if c = '-' then parseFlags f (c :: met) rest
    else do parseFlags (← setFlag f c (!met.contains '-')) (c :: met) rest

inductive GroupStart where
  /-- Flags for the rest of the group around. -/
  | flags (f : Flags)
  /-- A group with flags of its own, and perhaps a name. -/
  | group (f : Flags) (name : Option (List Char))

def parseGroupStart (f : Flags) (names : GroupNames) (cs : List Char) : Option (GroupStart × List Char) :=
  match skipIgnored f cs with
  | '?' :: '=' :: _ => none
  | '?' :: '!' :: _ => none
  | '?' :: '<' :: '=' :: _ => none
  | '?' :: '<' :: '!' :: _ => none
  | '?' :: 'P' :: '<' :: rest =>
    (parseGroupName names rest).map fun (name, rest) => (.group f (some name), rest)
  | '?' :: '<' :: rest =>
    (parseGroupName names rest).map fun (name, rest) => (.group f (some name), rest)
  | '?' :: rest => do
    let ((flags, met, isGroup), rest) ← parseFlags f [] rest
    if isGroup then return (.group flags none, rest)
    else if met.isEmpty then none
    else return (.flags flags, rest)
  | rest => some (.group f none, rest)

/-! ### Patterns -/

/-- Patterns one after the other. -/
def thenPattern (done : Pattern) : Option Pattern → Pattern
  | none => done
  | some last => .seq done last

/-- What is known behind a part of a pattern: the part, the flags in force and the names met. -/
abbrev ParsedPart := Option ((Pattern × Flags × GroupNames) × List Char)

mutual

/-- Alternatives, up to a closing parenthesis or the end. -/
def parseAlternatives : Nat → Flags → GroupNames → List Char → ParsedPart
  | 0, _, _, _ => none
  | fuel + 1, f, names, cs => do
    let ((p, f, names), rest) ← parseSequence fuel f names .empty none cs
    match rest with
    | '|' :: rest =>
      let ((q, f, names), rest) ← parseAlternatives fuel f names rest
      return ((.alt p q, f, names), rest)
    | _ => return ((p, f, names), rest)

/-- Parts one after the other, up to a bar, a closing parenthesis or the end.  The last part is
    kept apart, as a repetition may follow. -/
def parseSequence :
    Nat → Flags → GroupNames → Pattern → Option Pattern → List Char → ParsedPart
  | 0, _, _, _, _, _ => none
  | fuel + 1, f, names, done, last, cs =>
    let next (p : Pattern) (rest : List Char) :=
      parseSequence fuel f names (thenPattern done last) (some p) rest
    let again (least : Nat) (most : Option Nat) (rest : List Char) := do
      parseSequence fuel f names done (some (.repeated least most (← last))) rest
    match skipIgnored f cs with
    | [] => some ((thenPattern done last, f, names), [])
    | '|' :: rest => some ((thenPattern done last, f, names), '|' :: rest)
    | ')' :: rest => some ((thenPattern done last, f, names), ')' :: rest)
    | '(' :: rest => do
      let (start, rest) ← parseGroupStart f names rest
      match start with
      | .flags f => parseSequence fuel f names (thenPattern done last) none rest
      | .group inner name =>
        let ((p, _, names), rest) ← parseAlternatives fuel inner (name.toList ++ names) rest
        match rest with
        | ')' :: rest => parseSequence fuel f names (thenPattern done last) (some p) rest
        | _ => none
    | '[' :: rest => do
      let (cls, rest) ← parseBracket f (2 * rest.length + 2) rest
      next (.one cls) rest
    | '?' :: rest => again 0 (some 1) (dropLazy rest)
    | '*' :: rest => again 0 none (dropLazy rest)
    | '+' :: rest => again 1 none (dropLazy rest)
    | '\x7b' :: rest => do
      let _ ← last
      let ((least, most), rest) ← parseBounds f rest
      again least most rest
    | '\\' :: rest => do
      let (escape, rest) ← parseEscape f rest
      next (← escapePattern f escape) rest
    | '.' :: rest => do next (← dotPattern f) rest
    | '^' :: rest => next (.look (caretLook f)) rest
    | '$' :: rest => next (.look (dollarLook f)) rest
    | c :: rest => do next (← literalPattern f c false) rest

end

/-- The pattern of a text.  Every step takes a character or follows one that does, so twice the
    length of the text bounds the depth. -/
def parse (text : String) : Option Pattern := do
  let cs := text.toList
  let ((p, _, _), rest) ← parseAlternatives (2 * cs.length + 2) {} [] cs
  if rest.isEmpty && p.size ≤ sizeLimit then some p else none

end Pattern

end SchemaDrift
