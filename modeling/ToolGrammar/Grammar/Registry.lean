import ToolGrammar.Grammar.Rule

namespace ToolGrammar.Grammar

open Schema (Precision Parameter Fields FunctionSpec)

structure Registry where
  precisions : List Precision
  ascending : precisions.Pairwise (·.digits < ·.digits)

/-- Puts a precision in its place among ascending ones. -/
def insertAscending (precision : Precision) : List Precision → List Precision
  | [] => [precision]
  | first :: rest =>
      if precision.digits < first.digits then precision :: first :: rest
      else if first.digits < precision.digits then first :: insertAscending precision rest
      else first :: rest

theorem mem_insertAscending {precision other : Precision} {precisions : List Precision} :
    other ∈ insertAscending precision precisions ↔ other = precision ∨ other ∈ precisions := by
  induction precisions with
  | nil => simp [insertAscending]
  | cons first rest ih =>
      by_cases below : precision.digits < first.digits
      · simp [insertAscending, below]
      · by_cases above : first.digits < precision.digits
        · simp only [insertAscending, below, above, if_true, if_false, List.mem_cons, ih]
          constructor <;> rintro (h | h | h) <;> simp [h]
        · have same : first = precision := by
            obtain ⟨a, _, _⟩ := first
            obtain ⟨b, _, _⟩ := precision
            simp only [Precision.mk.injEq]
            simp only at below above
            omega
          simp [insertAscending, same]

theorem insertAscending_ascending {precision : Precision} {precisions : List Precision}
    (ascending : precisions.Pairwise (·.digits < ·.digits)) :
    (insertAscending precision precisions).Pairwise (·.digits < ·.digits) := by
  induction precisions with
  | nil => simp [insertAscending]
  | cons first rest ih =>
      obtain ⟨least, tail⟩ := List.pairwise_cons.mp ascending
      by_cases below : precision.digits < first.digits
      · simp only [insertAscending, below, if_true]
        refine List.pairwise_cons.mpr ⟨fun other member => ?_, ascending⟩
        rcases List.mem_cons.mp member with same | later
        · exact same ▸ below
        · exact Nat.lt_trans below (least other later)
      · by_cases above : first.digits < precision.digits
        · simp only [insertAscending, below, above, if_true, if_false]
          refine List.pairwise_cons.mpr ⟨fun other member => ?_, ih tail⟩
          rcases mem_insertAscending.mp member with same | later
          · exact same ▸ above
          · exact least other later
        · simpa only [insertAscending, below, above, if_false] using ascending

namespace Registry

def empty : Registry :=
  ⟨[], List.Pairwise.nil⟩

def insert (registry : Registry) (precision : Precision) : Registry :=
  ⟨insertAscending precision registry.precisions, insertAscending_ascending registry.ascending⟩

/-- Notes a precision, and answers the name that stands for it. -/
def register (registry : Registry) (precision : Precision) : RuleId × Registry :=
  (floatId precision, registry.insert precision)

def contains (registry : Registry) (precision : Precision) : Bool :=
  precision ∈ registry.precisions

def size (registry : Registry) : Nat :=
  registry.precisions.length

def isEmpty (registry : Registry) : Bool :=
  registry.precisions.isEmpty

theorem mem_insert {registry : Registry} {precision other : Precision} :
    other ∈ (registry.insert precision).precisions ↔
      other = precision ∨ other ∈ registry.precisions :=
  mem_insertAscending

mutual

/-- Adds the precisions of a parameter, at every depth. -/
def collectFrom (registry : Registry) : Parameter → Registry
  | .float _ (some precision) => registry.insert precision
  | .object _ fields => registry.collectFields fields
  | .array _ element => registry.collectFrom element
  | .string _ | .boolean _ | .integer .. | .float _ none | .enum .. => registry
termination_by structural parameter => parameter

def collectFields (registry : Registry) : Fields → Registry
  | [] => registry
  | (_, parameter) :: rest => (registry.collectFrom parameter).collectFields rest
termination_by structural fields => fields

end

def collect (functions : List FunctionSpec) : Registry :=
  functions.foldl (fun registry function => registry.collectFields function.parameters) empty

def precisionRules (precision : Precision) : List Rule :=
  [⟨floatId precision, .fixedPoint precision⟩, ⟨fractionId precision, .fraction precision⟩]

/-- The rules of all precisions in ascending order, then the one they share; none for the empty
registry. -/
def rules (registry : Registry) : List Rule :=
  if registry.isEmpty then []
  else registry.precisions.flatMap precisionRules ++ [⟨integerPartId, .integerPart⟩]

end Registry

end ToolGrammar.Grammar
