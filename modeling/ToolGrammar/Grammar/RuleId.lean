import ToolGrammar.Text.Lowercase

namespace ToolGrammar.Grammar

structure RuleId where
  text : String
  deriving DecidableEq, Repr

/-- A path segment as it appears in names: small letters, and hyphens for underscores. -/
def normalize (segment : String) : String :=
  Text.lowercase (segment.map fun c => if c = '_' then '-' else c)

namespace RuleId

/-- By the code points of their texts. -/
instance : Ord RuleId where
  compare left right := compare left.text right.text

def ofPath (segments : List String) : RuleId :=
  ⟨"-".intercalate (segments.map normalize)⟩

def function (name : String) : RuleId :=
  ofPath [name]

def params (id : RuleId) : RuleId :=
  ⟨id.text ++ "-params"⟩

def child (id : RuleId) (field : String) : RuleId :=
  ⟨id.text ++ "-" ++ normalize field⟩

def element (id : RuleId) : RuleId :=
  ⟨id.text ++ "-element"⟩

end RuleId

end ToolGrammar.Grammar
