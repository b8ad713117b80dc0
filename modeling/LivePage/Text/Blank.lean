/-!
Contract: white space in text.

Owns:
- the class of white space characters of Unicode;
- trimming of character lists and strings.

Does not own: the narrower class that separates tokens inside markup.
-/

namespace LivePage.Text

/-- The characters with the Unicode property `White_Space`. -/
def isBlank (char : Char) : Bool :=
  let code := char.toNat
  (9 ≤ code && code ≤ 13) || code == 0x20 || code == 0x85 || code == 0xA0 ||
    code == 0x1680 || (0x2000 ≤ code && code ≤ 0x200A) || code == 0x2028 ||
    code == 0x2029 || code == 0x202F || code == 0x205F || code == 0x3000

def trimStart (chars : List Char) : List Char :=
  chars.dropWhile isBlank

def trimEnd (chars : List Char) : List Char :=
  (chars.reverse.dropWhile isBlank).reverse

/-- Removes white space at both ends. -/
def trim (chars : List Char) : List Char :=
  trimEnd (trimStart chars)

/-- Text of white space only, the empty text included. -/
def allBlank (text : String) : Bool :=
  text.toList.all isBlank

def trimText (text : String) : String :=
  String.ofList (trim text.toList)

end LivePage.Text
