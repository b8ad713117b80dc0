import LivePage.Number.Text
import LivePage.Text.Bytes
import LivePage.Text.Cut

/-!
Contract: character references in markup text and attribute values.

Owns:
- replacement of references by the characters they stand for, and writing of references;
- what can be wrong with a reference, with byte ranges inside the text.

Does not own: where the text stands in a document.
-/

namespace LivePage.Markup

/-- Why a numeric reference stands for no character. -/
inductive ReferenceFault where
  | sign
  | empty
  | invalidDigit
  | tooLarge
  | notScalar (code : Nat)
  | notPermitted (code : Nat)
deriving DecidableEq, Repr

def ReferenceFault.message : ReferenceFault → String
  | .sign => "unexpected number sign"
  | .empty => "cannot parse integer from empty string"
  | .invalidDigit => "invalid digit found in string"
  | .tooLarge => "number too large to fit in target type"
  | .notScalar code => "`" ++ toString code ++ "` is not a valid codepoint"
  | .notPermitted code => "0x" ++ Text.hexNumber code ++ " character is not permitted in XML"

/-- Why a text with references cannot be replaced. -/
inductive EntityFault where
  | unknown (start stop : Nat) (name : String)
  | unterminated (start stop : Nat)
  | reference (fault : ReferenceFault)
deriving DecidableEq, Repr

def EntityFault.message : EntityFault → String
  | .unknown start stop name =>
      "at " ++ toString start ++ ".." ++ toString stop ++ ": unrecognized entity `" ++ name ++ "`"
  | .unterminated start stop =>
      "Error while escaping character at range " ++ toString start ++ ".." ++ toString stop ++
        ": Cannot find ';' after '&'"
  | .reference fault => "invalid character reference: " ++ fault.message

/-- The characters that have a named reference. -/
def namedEntities : List (String × Char) :=
  [("lt", '<'), ("gt", '>'), ("amp", '&'), ("apos", '\''), ("quot", '"')]

def digitValue? (radix : Nat) (char : Char) : Option Nat :=
  match Text.hexValue? char with
  | some value => if value < radix then some value else none
  | none => none

/-- The value of digits, which has to fit 32 bits; the first fault counts. -/
def codeOf (radix : Nat) : Nat → List Char → Except ReferenceFault Nat
  | code, [] => .ok code
  | code, char :: rest =>
      match digitValue? radix char with
      | none => .error .invalidDigit
      | some digit =>
          if radix * code + digit ≥ 0x100000000 then .error .tooLarge
          else codeOf radix (radix * code + digit) rest

/-- The character of a numeric reference, given what stands behind its `#`. -/
def referencedChar (spelling : List Char) : Except ReferenceFault Char :=
  let (radix, digits) :=
    match spelling with
    | 'x' :: rest => (16, rest)
    | _ => (10, spelling)
  match digits with
  | [] => .error .empty
  | first :: _ =>
      if first = '+' ∨ first = '-' then .error .sign
      else
        match codeOf radix 0 digits with
        | .error fault => .error fault
        | .ok code =>
            if code = 0 then .error (.notPermitted code)
            else if code.isValidChar then .ok (Char.ofNat code)
            else .error (.notScalar code)

/-- The character that the spelling between `&` and `;` stands for. -/
def entityChar (start : Nat) (spelling : List Char) : Except EntityFault Char :=
  match spelling with
  | '#' :: number =>
      match referencedChar number with
      | .ok char => .ok char
      | .error fault => .error (.reference fault)
  | _ =>
      match namedEntities.find? (fun entity => entity.1.toList = spelling) with
      | some entity => .ok entity.2
      | none => .error (.unknown start (start + Text.byteCount spelling) (String.ofList spelling))

/-- Replaces the references of a text from a byte offset on. `total` is the
text's length in bytes; the fuel bounds the number of characters. -/
def unescapeFrom (total : Nat) : Nat → Nat → List Char → Except EntityFault (List Char)
  | 0, _, _ => .ok []
  | _ + 1, _, [] => .ok []
  | fuel + 1, offset, char :: rest =>
      if char = '&' then
        match Text.cutAt? (fun mark => mark = '&' || mark = ';') rest with
        | none => .error (.unterminated offset total)
        | some (spelling, after) =>
            if (rest.drop spelling.length).head? = some ';' then
              match entityChar (offset + 1) spelling with
              | .error fault => .error fault
              | .ok meant =>
                  (unescapeFrom total fuel (offset + Text.byteCount spelling + 2) after).map
                    (meant :: ·)
            else .error (.unterminated offset total)
      else (unescapeFrom total fuel (offset + char.utf8Size) rest).map (char :: ·)

/-- The text that markup text stands for. -/
def unescape (chars : List Char) : Except EntityFault (List Char) :=
  unescapeFrom (Text.byteCount chars) (chars.length + 1) 0 chars

/-- The reference for a character that has a name. -/
def reference (entity : String × Char) : List Char :=
  '&' :: (entity.1.toList ++ [';'])

/-- What is written for a character: a reference, if it is of a class and has a name. -/
def escapeChar (escaped : Char → Bool) (char : Char) : List Char :=
  match namedEntities.find? (fun entity => entity.2 == char && escaped entity.2) with
  | some entity => reference entity
  | none => [char]

/-- Markup text that stands for the given text, with references for the characters of a class. -/
def escape (escaped : Char → Bool) (chars : List Char) : List Char :=
  chars.flatMap (escapeChar escaped)

end LivePage.Markup
