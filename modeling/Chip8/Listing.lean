import Chip8.Failure
import Chip8.Text.Pieces

/-! Listings: programs as text. A line holds words of four hexadecimal digits with white space between
them, and a `#` or `;` opens a comment that runs to the end of the line. -/

namespace Chip8.Listing

def opensComment (c : Char) : Bool := c == '#' || c == ';'

/-- The part of a line before its comment. -/
def code (line : List Char) : List Char := line.takeWhile (!opensComment ·)

/-- The words of a text, as they are written. -/
def tokens (text : String) : List String :=
  (pieces (· == '\n') text.toList).flatMap fun line =>
    ((pieces isBlank (code line)).filter (!·.isEmpty)).map String.ofList

/-- The value of one token. -/
def word (token : String) : Except Failure Word :=
  match Word.ofText? token with
  | some w => .ok w
  | none => .error (.malformedInstruction token)

/-- The words of a listing in order, or the first token that is none. -/
def parse (text : String) : Except Failure (List Word) := (tokens text).mapM word

end Chip8.Listing
