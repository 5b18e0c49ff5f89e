import StickerBot.Diagnostic
import StickerBot.Listing.Token
set_option autoImplicit false

/-!
# Lexing: from text to tokens

The lexer goes through a text once, from left to right. Blanks and comments are skipped, the
longest word or number is taken, and what starts no token is reported and skipped. Once as
many errors are found as a log stores, the rest of the text is left unread.

Columns count octets, and a character that starts no token is reported octet by octet, each
shown as the character of that number.

## Main definitions

* `Listing.Position`, `Listing.Position.after` — where the lexer stands.
* `Listing.LexError` — what can be wrong with the characters of a text.
* `Listing.scanString` — the rest of a string literal.
* `Listing.lex` — the tokens and errors of a text.

## Main results

* `Listing.scanString_rest_le` — a string literal takes characters and never gives any back.
-/

namespace StickerBot.Listing

/-- **Position.** The line and column of the next character, as numbers without bound, like those of
the spans that are made of them. -/
structure Position where
  line : Nat
  column : Nat
deriving DecidableEq, Repr, Inhabited

namespace Position

/-- Before the first character. -/
def start : Position := ⟨1, 1⟩

/-- Further on the same line. -/
def advance (p : Position) (columns : Nat) : Position := ⟨p.line, p.column + columns⟩

/-- After one more character. -/
def after (p : Position) (c : Char) : Position :=
  if c = '\n' then ⟨p.line + 1, 1⟩ else p.advance c.utf8Size

/-- After more characters. -/
def afterAll (p : Position) (cs : List Char) : Position := cs.foldl after p

/-- The span from a column of this line to here. -/
def spanFrom (p : Position) (column : Nat) : Span := ⟨p.line, column, p.column⟩

end Position

/-- **Lexical errors.** -/
inductive LexError where
  /-- The line ends inside a string literal. -/
  | unterminatedString
  /-- A number that does not fit in 63 bits. -/
  | numberTooLarge (digits : String)
  /-- A character that starts no token. -/
  | unexpectedCharacter (c : Char)
  /-- A character that means nothing after a backslash. -/
  | unknownEscape (c : Char)
deriving DecidableEq, Repr

namespace LexError

/-- The code of a lexical error. -/
def code : LexError → Code
  | .unterminatedString => .unterminatedString
  | .numberTooLarge _ => .invalidNumber
  | .unexpectedCharacter _ | .unknownEscape _ => .unexpectedCharacter

/-- The wording of a lexical error. -/
def message : LexError → String
  | .unterminatedString => "unterminated string literal"
  | .numberTooLarge digits => "integer literal '" ++ digits ++ "' is out of range"
  | .unexpectedCharacter c => "unexpected character '" ++ c.toString ++ "'"
  | .unknownEscape c => "unknown escape '\\" ++ c.toString ++ "'"

/-- The diagnostic of a lexical error at a place. -/
def diagnose (e : LexError) (span : Span) : Diagnostic :=
  (Diagnostic.error e.code e.message).atSpan span

end LexError

/-- The token that a single character is. -/
def mark? : Char → Option TokenKind
  | '\n' => some .newline
  | '(' => some .openParen
  | ')' => some .closeParen
  | '{' => some .openBrace
  | '}' => some .closeBrace
  | ',' => some .comma
  | ':' => some .colon
  | '=' => some .equals
  | '+' => some .plus
  | '-' => some .minus
  | '<' => some .less
  | _ => none

/-- Whether a character is skipped between tokens. -/
def isBlank (c : Char) : Bool := c = ' ' ∨ c = '\t' ∨ c = '\r'

/-- Whether a word may start with a character. -/
def startsWord (c : Char) : Bool := c.isAlpha || c = '_'

/-- Whether a word may go on with a character. -/
def continuesWord (c : Char) : Bool := c.isAlphanum || c = '_'

/-- The character that a letter after a backslash stands for. -/
def unescape? : Char → Option Char
  | 'n' => some '\n'
  | 't' => some '\t'
  | 'r' => some '\r'
  | '"' => some '"'
  | '\\' => some '\\'
  | _ => none

/-- The first octet of a character, as the character of that number. -/
def firstOctet (c : Char) : Char :=
  match String.utf8EncodeChar c with
  | [] => c
  | b :: _ => Char.ofNat b.toNat

/-- **A string literal read so far.** Characters and errors stand with the last one first. -/
structure StringScan where
  position : Position
  text : List Char
  errors : List Diagnostic
  rest : List Char
deriving Repr

/-- The rest of a string literal that began at a column. It ends at a quote, or unterminated
at the end of its line. A character that means nothing after a backslash stands for itself
and is reported. -/
def scanString (column : Nat) (p : Position) (text : List Char) (errors : List Diagnostic) :
    List Char → StringScan
  | [] => ⟨p, text, LexError.unterminatedString.diagnose (p.spanFrom column) :: errors, []⟩
  | ['\\'] =>
    let p := p.advance 1
    ⟨p, text, LexError.unterminatedString.diagnose (p.spanFrom column) :: errors, []⟩
  | '\\' :: c :: cs =>
    match unescape? c with
    | some d => scanString column (p.advance 2) (d :: text) errors cs
    | none =>
      let reported :=
        if c = '\n' then ((p.advance 1).after c).spanFrom column
        else (p.advance 2).spanFrom column
      scanString column ((p.advance 1).after c) (c :: text)
        ((LexError.unknownEscape (firstOctet c)).diagnose reported :: errors) cs
  | c :: cs =>
    if c = '"' then ⟨p.advance 1, text, errors, cs⟩
    else if c = '\n' then
      ⟨p, text, LexError.unterminatedString.diagnose (p.spanFrom column) :: errors, c :: cs⟩
    else scanString column (p.after c) (c :: text) errors cs

/-- A string literal takes characters and never gives any back. -/
theorem scanString_rest_le (column : Nat) (p : Position) (text : List Char)
    (errors : List Diagnostic) (cs : List Char) :
    (scanString column p text errors cs).rest.length ≤ cs.length := by
  fun_induction scanString column p text errors cs <;> simp_all <;> omega

/-- **Lexer state.** Tokens and errors stand with the last one first. -/
structure Lexer where
  position : Position
  tokens : List Token
  errors : List Diagnostic
deriving Repr

namespace Lexer

/-- Nothing read yet. -/
def start : Lexer := ⟨.start, [], []⟩

/-- Whether the lexer has found as many errors as a log stores. -/
def isFull (l : Lexer) : Bool := DiagnosticLog.capacity ≤ l.errors.length

/-- A token on the current line, up to a position. -/
def pushUpTo (l : Lexer) (kind : TokenKind) (p : Position) : Lexer :=
  { l with position := p, tokens := ⟨kind, p.spanFrom l.position.column⟩ :: l.tokens }

/-- A token of a single character. -/
def pushMark (l : Lexer) (kind : TokenKind) (c : Char) : Lexer :=
  let p := l.position
  { l with
    position := p.after c
    tokens := ⟨kind, ⟨p.line, p.column, p.column + 1⟩⟩ :: l.tokens }

/-- A number. If it is too large it is reported and counts as zero. -/
def pushNumber (l : Lexer) (digits : List Char) : Lexer :=
  let p := l.position.advance digits.length
  let n := Nat.ofDigitChars 10 digits 0
  if n ≤ Int64.maxValue.toInt then l.pushUpTo (.integer n) p
  else
    let reported := (LexError.numberTooLarge (String.ofList digits)).diagnose
      (p.spanFrom l.position.column)
    { l.pushUpTo (.integer 0) p with errors := reported :: l.errors }

/-- A word: a keyword or a name. -/
def pushWord (l : Lexer) (word : List Char) : Lexer :=
  l.pushUpTo (.ofWord (String.ofList word)) (l.position.advance word.length)

/-- A string literal that was read from the current position on. -/
def pushString (l : Lexer) (s : StringScan) : Lexer :=
  { l.pushUpTo (.string (String.ofList s.text.reverse)) s.position with errors := s.errors }

/-- Reports the octets of a character that starts no token, as long as there is room. -/
def reject (l : Lexer) : List UInt8 → Lexer
  | [] => l
  | b :: bs =>
    if l.isFull then l
    else
      let p := l.position.advance 1
      let reported := (LexError.unexpectedCharacter (Char.ofNat b.toNat)).diagnose
        (p.spanFrom l.position.column)
      reject { l with position := p, errors := reported :: l.errors } bs

/-- Goes over characters that belong to no token. -/
def skip (l : Lexer) (cs : List Char) : Lexer :=
  { l with position := l.position.afterAll cs }

end Lexer

/-- **Result of lexing.** Every token, the last of which is the end of the input, and every
error. -/
structure Lexed where
  tokens : List Token
  errors : List Diagnostic
deriving Repr

/-- Ends the reading where the lexer stands. -/
def Lexer.finish (l : Lexer) : Lexed :=
  let p := l.position
  ⟨(⟨.endOfInput, .point p.line p.column⟩ :: l.tokens).reverse, l.errors.reverse⟩

/-- Reads the rest of a text. -/
def lexFrom (l : Lexer) : List Char → Lexed
  | [] => l.finish
  | c :: cs =>
    if l.isFull then l.finish
    else if isBlank c then lexFrom (l.skip [c]) cs
    else if c = '/' ∧ cs.head? = some '/' then
      lexFrom (l.skip (c :: cs.takeWhile (· ≠ '\n'))) (cs.dropWhile (· ≠ '\n'))
    else
      match mark? c with
      | some kind => lexFrom (l.pushMark kind c) cs
      | none =>
        if c = '"' then
          let s := scanString l.position.column (l.position.advance 1) [] l.errors cs
          lexFrom (l.pushString s) s.rest
        else if c.isDigit then
          lexFrom (l.pushNumber (c :: cs.takeWhile Char.isDigit)) (cs.dropWhile Char.isDigit)
        else if startsWord c then
          lexFrom (l.pushWord (c :: cs.takeWhile continuesWord)) (cs.dropWhile continuesWord)
        else lexFrom (l.reject (String.utf8EncodeChar c)) cs
termination_by cs => cs.length
decreasing_by
  all_goals simp only [List.length_cons]
  · omega
  · exact Nat.lt_succ_of_le (List.dropWhile_suffix _).length_le
  · omega
  · exact Nat.lt_succ_of_le (scanString_rest_le ..)
  · exact Nat.lt_succ_of_le (List.dropWhile_suffix _).length_le
  · exact Nat.lt_succ_of_le (List.dropWhile_suffix _).length_le
  · omega

/-- **Lexing.** The tokens and errors of a text. -/
def lex (text : String) : Lexed := lexFrom .start text.toList

end StickerBot.Listing
