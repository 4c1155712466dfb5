/-
  SchemaDrift/Markup/Token.lean
  =============================
  **Markup, cut into tags.**

  A join file is XML, of which only the tags and their attributes matter.  `tokens`
  cuts a text into opening and closing tags and passes over text, comments, character
  data, declarations and processing instructions.  Text may hold anything but `<`; what
  begins with `<` has to be complete.  At the first place where it is not, the list ends
  with `malformed`, so that a reader meets the error only after the tags before it.

  `checkNesting` does the same for closing tags: the first one that does not close the
  innermost open element is replaced by `malformed`.  Elements may stay open at the end.
-/
import SchemaDrift.Text.Hex

namespace SchemaDrift

namespace Markup

/-- The white space of markup. -/
def isSpace (c : Char) : Bool := c == ' ' || c == '\t' || c == '\n' || c == '\r'

def skipSpace (cs : List Char) : List Char := cs.dropWhile isSpace

/-- What a text of markup consists of, as far as it matters. -/
inductive Token where
  /-- An opening tag: its name, the text of its attributes, and whether it closes itself. -/
  | opening (name rest : List Char) (closed : Bool)
  | closing (name : List Char)
  | malformed
deriving Repr, DecidableEq

/-! ### Pieces -/

/-- The text behind the first occurrence of a mark. -/
def dropPast (mark : List Char) : List Char → Option (List Char)
  | [] => if mark.isEmpty then some [] else none
  | c :: cs =>
    if mark.isPrefixOf (c :: cs) then some ((c :: cs).drop mark.length) else dropPast mark cs

/-- The inside of a tag, up to the first `>` that is not between quotation marks, and the text
    behind it. -/
def scanTag (quote : Option Char) : List Char → Option (List Char × List Char)
  | [] => none
  | c :: cs =>
    match quote with
    | some q => (scanTag (if c = q then none else some q) cs).map fun (tag, rest) => (c :: tag, rest)
    | none =>
      if c = '>' then some ([], cs)
      else
        (scanTag (if c = '"' || c = '\'' then some c else none) cs).map fun (tag, rest) =>
          (c :: tag, rest)

/-- The inside of a document type declaration, up to the `>` that balances its opening, and the
    text behind it. -/
def scanBalanced (depth : Nat) : List Char → Option (List Char × List Char)
  | [] => none
  | c :: cs =>
    if c = '>' then
      match depth with
      | 0 => some ([], cs)
      | depth + 1 => (scanBalanced depth cs).map fun (inside, rest) => (c :: inside, rest)
    else
      (scanBalanced (if c = '<' then depth + 1 else depth) cs).map fun (inside, rest) =>
        (c :: inside, rest)

/-- The token of the inside of an opening tag.  The name ends at the first white space; a slash
    at the very end closes the element. -/
def openingToken (tag : List Char) : Token :=
  let closed := tag.getLast? == some '/'
  let inside := if closed then tag.dropLast else tag
  .opening (inside.takeWhile (!isSpace ·)) (inside.dropWhile (!isSpace ·)) closed

/-- The name in a closing tag: what stands there without trailing white space; white space alone
    is kept. -/
def closingName (tag : List Char) : List Char :=
  let name := (tag.reverse.dropWhile isSpace).reverse
  if name.isEmpty then tag else name

/-- The text behind a declaration that starts with `<!`, given what follows these two. -/
def skipDeclaration (cs : List Char) : Option (List Char) :=
  match cs with
  | '-' :: '-' :: rest => dropPast "-->".toList rest
  | '[' :: 'C' :: 'D' :: 'A' :: 'T' :: 'A' :: '[' :: rest => dropPast "]]>".toList rest
  | _ =>
    match scanBalanced 0 cs with
    | some (inside, rest) =>
      let keyword := (inside.take 7).map Char.toUpper
      if keyword == "DOCTYPE".toList && (inside.drop 7).any (!isSpace ·) then some rest else none
    | none => none

/-! ### Tokens -/

/-- What stands at a `<`, given the text behind it: a token, or nothing that matters, and the text
    that follows. -/
def scanMarkup (cs : List Char) : Option (Option Token × List Char) :=
  match cs with
  | [] => none
  | '!' :: rest => (skipDeclaration rest).map (none, ·)
  | '?' :: '>' :: _ => none
  | '?' :: rest => (dropPast "?>".toList rest).map (none, ·)
  | '/' :: rest =>
    (scanTag none rest).map fun (tag, rest) => (some (.closing (closingName tag)), rest)
  | cs => (scanTag none cs).map fun (tag, rest) => (some (openingToken tag), rest)

/-- The tokens of a text.  Each round consumes a character, so the length of the text suffices as
    fuel. -/
def tokensWith : Nat → List Char → List Token
  | 0, _ => []
  | fuel + 1, cs =>
    match cs.dropWhile (· ≠ '<') with
    | [] => []
    | _ :: rest =>
      match scanMarkup rest with
      | none => [.malformed]
      | some (none, rest) => tokensWith fuel rest
      | some (some token, rest) => token :: tokensWith fuel rest

/-- The tokens of a text, without its byte order mark. -/
def tokens (text : String) : List Token :=
  let cs := match text.toList with
    | '\ufeff' :: rest => rest
    | cs => cs
  tokensWith cs.length cs

/-- The tokens up to the first closing tag that does not close the innermost open element, given
    the names of the open elements. -/
def checkNesting (opened : List (List Char)) : List Token → List Token
  | [] => []
  | .opening name rest closed :: tokens =>
    .opening name rest closed ::
      checkNesting (if closed then opened else name :: opened) tokens
  | .closing name :: tokens =>
    match opened with
    | innermost :: outer =>
      if name = innermost then .closing name :: checkNesting outer tokens else [.malformed]
    | [] => [.malformed]
  | .malformed :: _ => [.malformed]

end Markup

end SchemaDrift
