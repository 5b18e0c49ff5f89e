import StickerBot.Span
set_option autoImplicit false

/-!
# Tokens of the listing language

## Main definitions

* `Listing.TokenKind` — keywords, names, numbers, strings, marks, and the ends of lines and of
  the input.
* `Listing.TokenKind.keyword?` — the keyword that a word is.
* `Listing.TokenKind.render` — a token as error messages name it.
* `Listing.Token` — a token and its place.
-/

namespace StickerBot.Listing

/-- **Token kinds.** -/
inductive TokenKind where
  | wait
  | while
  | not
  | trace
  | print
  /-- A word that is no keyword. -/
  | identifier (name : String)
  /-- A whole number. -/
  | integer (value : Int)
  /-- A string literal without its quotes and escapes. -/
  | string (text : String)
  | openParen
  | closeParen
  | openBrace
  | closeBrace
  | comma
  | colon
  | equals
  | plus
  | minus
  | less
  /-- The end of a line. -/
  | newline
  /-- The end of the input. -/
  | endOfInput
deriving DecidableEq, Repr, Inhabited

namespace TokenKind

/-- The keyword that a word is, if it is one. -/
def keyword? (word : String) : Option TokenKind :=
  if word = "wait" then some .wait
  else if word = "while" then some .while
  else if word = "not" then some .not
  else if word = "trace" then some .trace
  else if word = "print" then some .print
  else none

/-- The kind of a word: a keyword or a name. -/
def ofWord (word : String) : TokenKind := (keyword? word).getD (.identifier word)

/-- A token as error messages name it. -/
def render : TokenKind → String
  | .wait => "'wait'"
  | .while => "'while'"
  | .not => "'not'"
  | .trace => "'trace'"
  | .print => "'print'"
  | .identifier name => "identifier '" ++ name ++ "'"
  | .integer n => "integer " ++ toString n
  | .string _ => "string"
  | .openParen => "'('"
  | .closeParen => "')'"
  | .openBrace => "'\x7b'"
  | .closeBrace => "'\x7d'"
  | .comma => "','"
  | .colon => "':'"
  | .equals => "'='"
  | .plus => "'+'"
  | .minus => "'-'"
  | .less => "'<'"
  | .newline => "end of line"
  | .endOfInput => "end of input"

/-- Whether the token ends a line. -/
def endsLine : TokenKind → Bool
  | .newline | .endOfInput => true
  | _ => false

end TokenKind

/-- **Tokens.** A kind and a place. -/
structure Token where
  kind : TokenKind
  span : Span
deriving DecidableEq, Repr, Inhabited

end StickerBot.Listing
