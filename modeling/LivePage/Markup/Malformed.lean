import LivePage.Markup.Entity

/-!
Contract: what can be wrong with a document's markup.

Owns:
- the causes and their wording, and the byte offset each is reported at.

Does not own: which stage notices a cause.
-/

namespace LivePage.Markup

/-- Constructs that need an end mark. -/
inductive Construct where
  | instruction
  | comment
  | doctype
  | cdata
  | tag
deriving DecidableEq, Repr

def Construct.endMark : Construct → String
  | .instruction => "?>"
  | .comment => "-->"
  | .doctype => ">"
  | .cdata => "]]>"
  | .tag => ">"

def Construct.name : Construct → String
  | .instruction => "processing instruction or xml declaration"
  | .comment => "comment"
  | .doctype => "DOCTYPE"
  | .cdata => "CDATA"
  | .tag => "tag"

/-- What can be wrong with the attributes of a tag; offsets are bytes from the
tag's content on. -/
inductive AttributeFault where
  | missingEquals (offset : Nat)
  | unquotedValue (offset : Nat)
  | missingValue (offset : Nat)
  | duplicate (offset previous : Nat)
deriving DecidableEq, Repr

def AttributeFault.message : AttributeFault → String
  | .missingEquals offset =>
      "position " ++ toString offset ++
        ": attribute key must be directly followed by `=` or space"
  | .unquotedValue offset =>
      "position " ++ toString offset ++ ": attribute value must be enclosed in `\"` or `'`"
  | .missingValue offset =>
      "position " ++ toString offset ++ ": `=` must be followed by an attribute value"
  | .duplicate offset previous =>
      "position " ++ toString offset ++ ": duplicated attribute, previous declaration at position "
        ++ toString previous

inductive Cause where
  | unknownMarkup
  | unclosed (construct : Construct)
  | mismatchedEnd (expected found : String)
  | unmatchedEnd (name : String)
  | unnamedDoctype
  | attribute (fault : AttributeFault)
  | entity (fault : EntityFault)
  | reservedBinding (qualifier uri : String)
  | unexpectedClosingTag
  | multipleRoots
  | textOutsideRoot
  | unclosedElement (name : String)
  | noRoot
deriving DecidableEq, Repr

/-- Text as bytes between double quotes; bytes that are not printable ASCII
are written as hexadecimal numbers. -/
def byteString (text : String) : String :=
  let byteText (byte : UInt8) : String :=
    if byte = 34 then "\\\""
    else if 32 ≤ byte && byte ≤ 126 then (Char.ofNat byte.toNat).toString
    else "0x" ++ (Text.hexNumber byte.toNat).toUpper
  "\"" ++ String.join ((Text.encodeUtf8 text).map byteText) ++ "\""

def Cause.message : Cause → String
  | .unknownMarkup => "syntax error: unknown or missed symbol in markup"
  | .unclosed construct =>
      "syntax error: " ++ construct.name ++ " not closed: `" ++ construct.endMark ++
        "` not found before end of input"
  | .mismatchedEnd expected found =>
      "ill-formed document: expected `</" ++ expected ++ ">`, but `</" ++ found ++ ">` was found"
  | .unmatchedEnd name =>
      "ill-formed document: close tag `</" ++ name ++ ">` does not match any open tag"
  | .unnamedDoctype =>
      "ill-formed document: `<!DOCTYPE>` declaration does not contain a name of a document type"
  | .attribute fault => fault.message
  | .entity fault => fault.message
  | .reservedBinding qualifier uri =>
      "The namespace prefix '" ++ byteString qualifier ++ "' cannot be bound to '" ++
        byteString uri ++ "'"
  | .unexpectedClosingTag => "unexpected closing tag"
  | .multipleRoots => "multiple root elements"
  | .textOutsideRoot => "text outside the root element"
  | .unclosedElement name => "unclosed element `" ++ name ++ "`"
  | .noRoot => "document has no root element"

/-- A cause and the byte offset it is reported at. -/
structure Malformed where
  position : Nat
  cause : Cause
deriving DecidableEq, Repr

def Malformed.message (malformed : Malformed) : String :=
  "malformed page markup at byte " ++ toString malformed.position ++ ": " ++
    malformed.cause.message

end LivePage.Markup
