/-! Cutting a text into pieces, and the white space that it is cut at: the characters of the Unicode
property White_Space. -/

namespace Chip8

/-- Whether a character separates words. -/
def isBlank (c : Char) : Bool :=
  let n := c.toNat
  (9 ≤ n && n ≤ 13) || n == 0x20 || n == 0x85 || n == 0xA0 || n == 0x1680 ||
    (0x2000 ≤ n && n ≤ 0x200A) || n == 0x2028 || n == 0x2029 || n == 0x202F || n == 0x205F || n == 0x3000

/-- Cuts a text at every character with the property. The character belongs to no piece, and there is
one more piece than there are cuts. -/
def pieces (p : Char → Bool) (text : List Char) : List (List Char) :=
  text.foldr (fun c acc => if p c then [] :: acc else (c :: acc.headD []) :: acc.tail) [[]]

theorem pieces_cons (p : Char → Bool) (c : Char) (text : List Char) :
    pieces p (c :: text) =
      if p c then [] :: pieces p text else (c :: (pieces p text).headD []) :: (pieces p text).tail := rfl

end Chip8
