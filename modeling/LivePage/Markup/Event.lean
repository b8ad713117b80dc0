import LivePage.Markup.Attribute
import LivePage.Markup.Name

/-!
Contract: the events of a document, with names resolved.

Owns:
- the scope of namespace declarations and the binding of names;
- attributes with their values, without the declarations;
- the match of closing tags with opening tags;
- the stream of events up to the end of the text or the first fault.

Does not own: the tree that the events describe.
-/

namespace LivePage.Markup

structure Attribute where
  name : Name
  value : String
deriving DecidableEq, Repr, Inhabited

inductive EventKind where
  | enter (name : Name) (attributes : List Attribute)
  | leaf (name : Name) (attributes : List Attribute)
  | leave
  | text (text : String)
  | cdata (text : String)
  | comment (text : String)
  | instruction (content : String)
  | declaration
  | doctype (text : String)
deriving DecidableEq, Repr

/-- An event and the byte offset of its first byte. -/
structure Event where
  position : Nat
  kind : EventKind
deriving DecidableEq, Repr

/-- The events up to the end of the text or to the first fault, and the offset
of the end. -/
structure EventStream where
  events : List Event
  fault : Option Malformed
  stop : Nat
deriving DecidableEq, Repr

/-! ### Scopes -/

/-- A declaration of a qualifier, or of the default namespace. An empty
namespace takes an outer declaration back. -/
structure Declaration where
  qualifier : Option (List Char)
  uri : String
deriving DecidableEq, Repr

/-- The declarations in force, the innermost first. -/
abbrev Scope := List Declaration

def xmlUri : String := "http://www.w3.org/XML/1998/namespace"

def xmlnsUri : String := "http://www.w3.org/2000/xmlns/"

/-- The declarations that hold everywhere. -/
def outermostScope : Scope :=
  [⟨some "xmlns".toList, xmlnsUri⟩, ⟨some "xml".toList, xmlUri⟩]

/-- What an attribute key declares: `xmlns` the default namespace, and
`xmlns:` followed by a qualifier that qualifier. -/
def declaredQualifier? (key : List Char) : Option (List Char) :=
  match Text.afterWord? "xmlns".toList key with
  | some [] => some []
  | some (':' :: qualifier) => some qualifier
  | _ => none

/-- Adds the declaration of one attribute. The reserved qualifiers and
namespaces belong together. -/
def Scope.declare (scope : Scope) (written : WrittenAttribute) : Except Cause Scope :=
  match declaredQualifier? written.key with
  | none => .ok scope
  | some [] => .ok (⟨none, String.ofList written.value⟩ :: scope)
  | some qualifier =>
      let uri := String.ofList written.value
      let refused := Except.error (Cause.reservedBinding (String.ofList qualifier) uri)
      if qualifier = "xml".toList then
        if uri = xmlUri then .ok scope else refused
      else if qualifier = "xmlns".toList then refused
      else if uri = xmlUri || uri = xmlnsUri then refused
      else .ok (⟨some qualifier, uri⟩ :: scope)

def Scope.declareAll (scope : Scope) : List WrittenAttribute → Except Cause Scope
  | [] => .ok scope
  | written :: rest =>
      match scope.declare written with
      | .error cause => .error cause
      | .ok extended => Scope.declareAll extended rest

/-- The binding of a qualified name by the innermost declaration. -/
def Scope.bindingOf (scope : Scope) (qualifier : List Char) : Binding :=
  match scope.find? (fun declaration => declaration.qualifier = some qualifier) with
  | some declaration => if declaration.uri.isEmpty then .undeclared else .uri declaration.uri
  | none => .undeclared

/-- The binding of an element name without qualifier. -/
def Scope.defaultBinding (scope : Scope) : Binding :=
  match scope.find? (fun declaration => declaration.qualifier = none) with
  | some declaration => if declaration.uri.isEmpty then .unbound else .uri declaration.uri
  | none => .unbound

/-- A name as written, cut at its first colon and resolved. -/
def Scope.resolve (scope : Scope) (unqualified : Binding) (written : List Char) : Name :=
  match Text.cutAt? (· == ':') written with
  | some (qualifier, localName) =>
      ⟨some (String.ofList qualifier), String.ofList localName, scope.bindingOf qualifier⟩
  | none => ⟨none, String.ofList written, unqualified⟩

/-! ### Tags -/

/-- The attribute of the same key among those before, the first of them. -/
def duplicateOf (earlier : List WrittenAttribute) (key : List Char) : Option WrittenAttribute :=
  earlier.find? (fun written => written.key = key)

/-- Resolves attributes in the order of writing; the first fault counts. -/
def resolveAttributes (scope : Scope) (fault : Option WrittenFault) :
    List WrittenAttribute → List WrittenAttribute → Except Cause (List Attribute)
  | earlier, [] =>
      match fault with
      | none => .ok []
      | some fault =>
          match fault.key.bind (fun key =>
              (duplicateOf earlier key.1).map (fun previous => (key.2, previous.offset))) with
          | some (offset, previous) => .error (.attribute (.duplicate offset previous))
          | none => .error (.attribute fault.fault)
  | earlier, written :: rest =>
      match duplicateOf earlier written.key with
      | some previous => .error (.attribute (.duplicate written.offset previous.offset))
      | none =>
          let following := resolveAttributes scope fault (earlier ++ [written]) rest
          if (declaredQualifier? written.key).isSome then following
          else
            match unescape written.value with
            | .error fault => .error (.entity fault)
            | .ok value =>
                let name := scope.resolve .unbound written.key
                following.map (⟨name, String.ofList value⟩ :: ·)

/-- The scope inside a tag, its name and its attributes. Declarations are
refused at the start of the tag, attributes behind its end. -/
def resolveTag (scope : Scope) (content : List Char) (start stop : Nat) :
    Except Malformed (Scope × Name × List Attribute) :=
  let written := tagAttributes content
  match scope.declareAll written.attributes with
  | .error cause => .error ⟨start, cause⟩
  | .ok inner =>
      match resolveAttributes inner written.fault [] written.attributes with
      | .error cause => .error ⟨stop, cause⟩
      | .ok attributes =>
          .ok (inner, inner.resolve inner.defaultBinding (tagName content), attributes)

/-! ### The stream -/

/-- The elements open at a token: the names as written and the scopes inside. -/
abbrev OpenTags := List (List Char × Scope)

def OpenTags.scope (openTags : OpenTags) : Scope :=
  match openTags with
  | (_, scope) :: _ => scope
  | [] => outermostScope

/-- The event of a lexeme and the elements open behind it. -/
def eventOf (openTags : OpenTags) (lexeme : Lexeme) :
    Except Malformed (EventKind × OpenTags) :=
  match lexeme.token with
  | .openTag content =>
      (resolveTag openTags.scope content lexeme.start lexeme.stop).map
        (fun tag => (.enter tag.2.1 tag.2.2, (tagName content, tag.1) :: openTags))
  | .emptyTag content =>
      (resolveTag openTags.scope content lexeme.start lexeme.stop).map
        (fun tag => (.leaf tag.2.1 tag.2.2, openTags))
  | .closeTag name =>
      match openTags with
      | [] => .error ⟨lexeme.start, .unmatchedEnd (String.ofList name)⟩
      | (expected, _) :: outer =>
          if name = expected then .ok (.leave, outer)
          else
            .error ⟨lexeme.start,
              .mismatchedEnd (String.ofList expected) (String.ofList name)⟩
  | .text raw =>
      match unescape raw with
      | .error fault => .error ⟨lexeme.start, .entity fault⟩
      | .ok text => .ok (.text (String.ofList text), openTags)
  | .cdata content => .ok (.cdata (String.ofList content), openTags)
  | .comment content => .ok (.comment (String.ofList content), openTags)
  | .instruction content => .ok (.instruction (String.ofList content), openTags)
  | .declaration _ => .ok (.declaration, openTags)
  | .doctype content => .ok (.doctype (String.ofList content), openTags)

/-- The events of lexemes up to the first fault. -/
def eventsOf : OpenTags → List Lexeme → List Event × Option Malformed
  | _, [] => ([], none)
  | openTags, lexeme :: rest =>
      match eventOf openTags lexeme with
      | .error malformed => ([], some malformed)
      | .ok (kind, inside) =>
          let more := eventsOf inside rest
          (⟨lexeme.start, kind⟩ :: more.1, more.2)

/-- The events of a text. A fault of the events comes before one of the scan,
since it stands before it in the text. -/
def EventStream.ofText (text : String) : EventStream :=
  let chars := withoutByteOrderMark text.toList
  let scanned := scan chars
  let (events, fault) := eventsOf [] scanned.lexemes
  ⟨events, fault <|> scanned.fault, Text.byteCount chars⟩

end LivePage.Markup
