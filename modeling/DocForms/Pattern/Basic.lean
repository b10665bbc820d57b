import DocForms.Pattern.Reader
import DocForms.Pattern.Search

/-! Search patterns: a source text together with the tree that it is read as. -/
namespace DocForms

/-- A text that is a search pattern. -/
structure Pattern where
  source : String
  node : Pattern.Node
deriving DecidableEq, Repr

namespace Pattern

/-- The pattern that a text is. -/
def ofSource (source : String) : Except Defect Pattern :=
  (read Text.namesOfLatin source).map (⟨source, ·⟩)

/-- Whether the pattern matches somewhere in the text. -/
def occursIn (p : Pattern) (s : String) : Bool := p.node.search s

end Pattern
end DocForms
