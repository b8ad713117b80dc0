import LivePage.Markup.Malformed

/-!
Contract: the tokens of a document's text.

Owns:
- the split of the text into tags, text and other constructs, each with the
  byte offsets of its start and end;
- the faults of constructs that do not end.

Does not own: what stands inside a tag, and how tags nest.
-/

namespace LivePage.Markup

/-- The space that separates the parts of a tag. -/
def isSpace (char : Char) : Bool :=
  char == ' ' || char == '\t' || char == '\r' || char == '\n'

/-- A token with the characters it consists of, without its marks. -/
inductive Token where
  | openTag (content : List Char)
  | emptyTag (content : List Char)
  | closeTag (name : List Char)
  | text (raw : List Char)
  | cdata (content : List Char)
  | comment (content : List Char)
  | instruction (content : List Char)
  | declaration (content : List Char)
  | doctype (content : List Char)
deriving DecidableEq, Repr

/-- A token and the byte offsets of its first byte and of the byte behind it. -/
structure Lexeme where
  token : Token
  start : Nat
  stop : Nat
deriving DecidableEq, Repr

/-- A token, its bytes behind the opening `<`, and the rest of the text. -/
abbrev Scanned := Except Cause (Token × Nat × List Char)

/-- The content of a tag up to the first `>` outside quotes. -/
def cutTag : Option Char → List Char → Option (List Char × List Char)
  | _, [] => none
  | some quote, char :: rest =>
      (cutTag (if char = quote then none else some quote) rest).map
        (fun parts => (char :: parts.1, parts.2))
  | none, char :: rest =>
      if char = '>' then some ([], rest)
      else
        (cutTag (if char = '"' || char = '\'' then some char else none) rest).map
          (fun parts => (char :: parts.1, parts.2))

def scanTag (chars : List Char) : Scanned :=
  match cutTag none chars with
  | none => .error (.unclosed .tag)
  | some (content, rest) =>
      let token :=
        if content.getLast? = some '/' then Token.emptyTag content.dropLast
        else Token.openTag content
      .ok (token, Text.byteCount content + 1, rest)

/-- Trailing space is no part of the name, unless there is nothing else. -/
def closingName (content : List Char) : List Char :=
  if content.all isSpace then content else (content.reverse.dropWhile isSpace).reverse

/-- Behind `</`. -/
def scanClosing (chars : List Char) : Scanned :=
  match Text.cutAt? (· == '>') chars with
  | none => .error (.unclosed .tag)
  | some (content, rest) => .ok (.closeTag (closingName content), Text.byteCount content + 2, rest)

/-- `xml` followed by space or nothing. -/
def isDeclaration (content : List Char) : Bool :=
  match Text.afterWord? "xml".toList content with
  | none => false
  | some [] => true
  | some (char :: _) => isSpace char

/-- Behind `<?`. -/
def scanInstruction (chars : List Char) : Scanned :=
  if chars.head? = some '>' then .error (.unclosed .instruction)
  else
    match Text.cutAtWord? "?>".toList chars with
    | none => .error (.unclosed .instruction)
    | some (content, rest) =>
        let token :=
          if isDeclaration content then Token.declaration content else Token.instruction content
        .ok (token, Text.byteCount content + 3, rest)

/-- The content up to the `>` that no inner `<` opens. -/
def cutBalanced : Nat → List Char → Option (List Char × List Char)
  | _, [] => none
  | depth, char :: rest =>
      if char = '>' && depth == 0 then some ([], rest)
      else
        let inner := if char = '<' then depth + 1 else if char = '>' then depth - 1 else depth
        (cutBalanced inner rest).map (fun parts => (char :: parts.1, parts.2))

/-- Behind `<!`, with the first letter of the document type keyword next. -/
def scanDoctype (chars : List Char) : Scanned :=
  match cutBalanced 0 chars with
  | none => .error (.unclosed .doctype)
  | some (content, rest) =>
      if (content.take 7).map Char.toUpper = "DOCTYPE".toList then
        match (content.drop 7).dropWhile isSpace with
        | [] => .error .unnamedDoctype
        | named => .ok (.doctype named, Text.byteCount content + 2, rest)
      else .error (.unclosed .doctype)

/-- A construct with a fixed opening word and closing word, behind `<!`. -/
def scanBetween (construct : Construct) (token : List Char → Token) (opening : String)
    (chars : List Char) : Scanned :=
  match Text.afterWord? opening.toList chars with
  | none => .error (.unclosed construct)
  | some inside =>
      match Text.cutAtWord? construct.endMark.toList inside with
      | none => .error (.unclosed construct)
      | some (content, rest) =>
          .ok (token content,
            1 + opening.length + Text.byteCount content + construct.endMark.length, rest)

/-- Behind `<!`. -/
def scanBang (chars : List Char) : Scanned :=
  match chars with
  | '-' :: _ => scanBetween .comment .comment "--" chars
  | '[' :: _ => scanBetween .cdata .cdata "[CDATA[" chars
  | 'D' :: _ => scanDoctype chars
  | 'd' :: _ => scanDoctype chars
  | _ => .error .unknownMarkup

/-- Behind `<`. -/
def scanMarkup (chars : List Char) : Scanned :=
  match chars with
  | [] => .error (.unclosed .tag)
  | '!' :: rest => scanBang rest
  | '/' :: rest => scanClosing rest
  | '?' :: rest => scanInstruction rest
  | _ => scanTag chars

/-- The lexemes of a text up to its end or to the first fault. -/
structure Scan where
  lexemes : List Lexeme
  fault : Option Malformed
deriving DecidableEq, Repr

/-- Scans from a byte offset on. The fuel bounds the number of tokens. -/
def scanFrom : Nat → Nat → List Char → Scan
  | 0, _, _ => ⟨[], none⟩
  | _ + 1, _, [] => ⟨[], none⟩
  | fuel + 1, offset, char :: rest =>
      if char = '<' then
        match scanMarkup rest with
        | .error cause => ⟨[], some ⟨offset, cause⟩⟩
        | .ok (token, width, after) =>
            let stop := offset + 1 + width
            let more := scanFrom fuel stop after
            ⟨⟨token, offset, stop⟩ :: more.lexemes, more.fault⟩
      else
        let raw := (char :: rest).takeWhile (· ≠ '<')
        let stop := offset + Text.byteCount raw
        let more := scanFrom fuel stop ((char :: rest).dropWhile (· ≠ '<'))
        ⟨⟨.text raw, offset, stop⟩ :: more.lexemes, more.fault⟩

/-- The text without a leading byte order mark. -/
def withoutByteOrderMark (chars : List Char) : List Char :=
  match chars with
  | char :: rest => if char.toNat = 0xFEFF then rest else chars
  | [] => []

def scan (chars : List Char) : Scan :=
  scanFrom (chars.length + 1) 0 chars

end LivePage.Markup
