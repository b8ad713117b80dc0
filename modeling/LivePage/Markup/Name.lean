/-!
Contract: names inside markup.

Owns:
- names with an optional qualifier and what the qualifier is bound to.

Does not own: which namespaces a page may use.
-/

namespace LivePage.Markup

/-- What a name's qualifier stands for where the name occurs. -/
inductive Binding where
  /-- No qualifier, and no default namespace in scope. -/
  | unbound
  | uri (uri : String)
  /-- A qualifier that no enclosing element declares. -/
  | undeclared
deriving DecidableEq, Repr, Inhabited

structure Name where
  qualifier : Option String
  localName : String
  binding : Binding
deriving DecidableEq, Repr, Inhabited

/-- The name as it is spelled. -/
def Name.qualified (name : Name) : String :=
  match name.qualifier with
  | some qualifier => qualifier ++ ":" ++ name.localName
  | none => name.localName

def Name.plain (localName : String) : Name :=
  ⟨none, localName, .unbound⟩

end LivePage.Markup
