import LivePage.Dict
import LivePage.Markup.Name

/-!
Contract: the namespaces that page markup may use.

Owns:
- namespaces by URI and by short name;
- the resolution of a name of the markup: plain, in a known namespace, or neither.

Does not own: what a resolved name means.
-/

namespace LivePage

/-- The standing of a name of the markup. -/
inductive ResolvedName where
  | plain (localName : String)
  | namespaced (shortName localName : String)
  | unresolvable
deriving DecidableEq, Repr, Inhabited

/-- The one spelling of a resolved name, whatever its qualifier was. -/
def ResolvedName.normalized : ResolvedName → String
  | .plain localName => localName
  | .namespaced shortName localName => shortName ++ ":" ++ localName
  | .unresolvable => "unresolvable"

/-- The known namespaces: short names by URI, and all short names. -/
structure Namespaces where
  byUri : Dict String
  shortNames : Dict Unit
deriving Inhabited

namespace Namespaces

/-- The namespace whose names are plain names. -/
def pageUri : String := "http://www.fujion.org/schema/fsp"

/-- The URI that belongs to a short name. -/
def uriFor (shortName : String) : String :=
  pageUri ++ "/" ++ shortName

def empty : Namespaces := ⟨.empty, .empty⟩

def registerUri (namespaces : Namespaces) (shortName uri : String) : Namespaces :=
  ⟨namespaces.byUri.insert uri shortName, namespaces.shortNames.insert shortName ()⟩

def register (namespaces : Namespaces) (shortName : String) : Namespaces :=
  namespaces.registerUri shortName (uriFor shortName)

def ofShortNames (shortNames : List String) : Namespaces :=
  shortNames.foldl register empty

/-- The namespaces of tags at the start. -/
def tags : Namespaces := ofShortNames ["html"]

/-- The namespaces of attributes at the start. -/
def attributes : Namespaces := ofShortNames ["on", "attr", "controller"]

def contains (namespaces : Namespaces) (shortName : String) : Bool :=
  namespaces.shortNames.contains shortName

def nameForUri? (namespaces : Namespaces) (uri : String) : Option String :=
  namespaces.byUri.get? uri

/-- Resolves a name by its URI. A qualifier that nothing declares counts as
the namespace of that short name. -/
def resolve (namespaces : Namespaces) (name : Markup.Name) : ResolvedName :=
  match name.binding with
  | .unbound => .plain name.localName
  | .uri uri =>
      if uri = pageUri then .plain name.localName
      else
        match namespaces.nameForUri? uri with
        | some shortName => .namespaced shortName name.localName
        | none => .unresolvable
  | .undeclared =>
      match name.qualifier with
      | some qualifier =>
          if namespaces.contains qualifier then .namespaced qualifier name.localName
          else .unresolvable
      | none => .unresolvable

end Namespaces

end LivePage
