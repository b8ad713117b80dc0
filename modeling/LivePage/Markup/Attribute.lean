import LivePage.Markup.Token

/-!
Contract: the attributes as they are written in a tag.

Owns:
- the split of a tag's content into its name and its written attributes.

Does not own: namespaces, references in values, and repeated attributes.
-/

namespace LivePage.Markup

/-- An attribute as written; offsets are bytes from the tag's content on. -/
structure WrittenAttribute where
  key : List Char
  offset : Nat
  value : List Char
deriving DecidableEq, Repr

/-- A fault, with the offset and the key of the attribute if its key was read. -/
structure WrittenFault where
  key : Option (List Char × Nat)
  fault : AttributeFault
deriving DecidableEq, Repr

structure WrittenAttributes where
  attributes : List WrittenAttribute
  fault : Option WrittenFault
deriving DecidableEq, Repr

/-- The value behind `=`: the attribute's value, the bytes up to behind its
closing quote, and the rest. -/
def readValue (key : List Char × Nat) (offset : Nat) (chars : List Char) :
    Except WrittenFault (List Char × Nat × List Char) :=
  let space := chars.takeWhile isSpace
  let start := offset + space.length
  match chars.dropWhile isSpace with
  | [] => .error ⟨some key, .missingValue start⟩
  | quote :: inside =>
      if quote = '"' || quote = '\'' then
        match Text.cutAt? (· == quote) inside with
        | some (value, rest) => .ok (value, start + Text.byteCount value + 2, rest)
        | none => .error ⟨some key, .missingValue (start + 1 + Text.byteCount inside)⟩
      else .error ⟨some key, .unquotedValue start⟩

/-- Attributes from a byte offset on. The fuel bounds their number. -/
def readAttributes : Nat → Nat → List Char → WrittenAttributes
  | 0, _, _ => ⟨[], none⟩
  | fuel + 1, offset, chars =>
      let start := offset + (chars.takeWhile isSpace).length
      match chars.dropWhile isSpace with
      | [] => ⟨[], none⟩
      | first :: rest =>
          let ends := fun char => char == '=' || isSpace char
          let key := first :: rest.takeWhile (fun char => !ends char)
          let keyStop := start + Text.byteCount key
          let afterKey := rest.dropWhile (fun char => !ends char)
          let gap := (afterKey.takeWhile isSpace).length
          match afterKey.dropWhile isSpace with
          | '=' :: afterEquals =>
              match readValue (key, start) (keyStop + gap + 1) afterEquals with
              | .error fault => ⟨[], some fault⟩
              | .ok (value, stop, after) =>
                  let more := readAttributes fuel stop after
                  ⟨⟨key, start, value⟩ :: more.attributes, more.fault⟩
          | _ => ⟨[], some ⟨none, .missingEquals (keyStop + gap)⟩⟩

def tagName (content : List Char) : List Char :=
  content.takeWhile (fun char => !isSpace char)

/-- The attributes behind a tag's name. -/
def tagAttributes (content : List Char) : WrittenAttributes :=
  let name := tagName content
  readAttributes (content.length + 1) (Text.byteCount name)
    (content.dropWhile (fun char => !isSpace char))

end LivePage.Markup
