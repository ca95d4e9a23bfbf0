import ToolGrammar.Proofs.Json.Nodes
import ToolGrammar.Proofs.Schema.Construction

namespace ToolGrammar.Schema

def namedBefore (field other : String × Parameter) : Bool :=
  field.1 ≤ other.1

def inNameOrder (fields : Fields) : Fields :=
  fields.mergeSort namedBefore

theorem inNameOrder_perm (fields : Fields) : (inNameOrder fields).Perm fields :=
  List.mergeSort_perm fields _

theorem inNameOrder_pairwise (fields : Fields) :
    (inNameOrder fields).Pairwise fun field other => field.1 ≤ other.1 := by
  have sorted : (inNameOrder fields).Pairwise fun field other => namedBefore field other = true :=
    List.pairwise_mergeSort
      (fun a b c first second => by
        simp only [namedBefore, decide_eq_true_eq] at first second ⊢
        exact String.le_trans first second)
      (fun a b => by simpa [namedBefore] using String.le_total a.1 b.1) fields
  exact sorted.imp of_decide_eq_true

/-- Fields of different names are in the same order once they are sorted. -/
theorem inNameOrder_eq_iff {fields others : Fields} (distinct : (fields.map (·.1)).Nodup) :
    inNameOrder fields = inNameOrder others ↔ fields.Perm others := by
  constructor
  · intro same
    exact (inNameOrder_perm fields).symm.trans (same ▸ inNameOrder_perm others)
  · intro perm
    have whole : (inNameOrder fields).Perm (inNameOrder others) :=
      (inNameOrder_perm fields).trans (perm.trans (inNameOrder_perm others).symm)
    refine List.Perm.eq_of_pairwise (fun field other first second up down => ?_)
      (inNameOrder_pairwise fields) (inNameOrder_pairwise others) whole
    have member := (inNameOrder_perm fields).mem_iff.mp first
    have again := perm.mem_iff.mpr ((inNameOrder_perm others).mem_iff.mp second)
    exact List.inj_on_of_nodup_map distinct member again (String.le_antisymm up down)

mutual

/-- The parameter with the fields of every object in the order of their names. -/
def Parameter.sorted : Parameter → Parameter
  | .string note => .string note
  | .boolean note => .boolean note
  | .integer note name => .integer note name
  | .float note precision => .float note precision
  | .object note fields => .object note (inNameOrder (sortedFields fields))
  | .array note element => .array note element.sorted
  | .enum note values => .enum note values
termination_by structural parameter => parameter

/-- The fields in their own order, each of them sorted. -/
def sortedFields : Fields → Fields
  | [] => []
  | (name, parameter) :: rest => (name, parameter.sorted) :: sortedFields rest
termination_by structural fields => fields

end

def FunctionSpec.sorted (function : FunctionSpec) : FunctionSpec :=
  { function with parameters := inNameOrder (sortedFields function.parameters) }

def sortedField (field : String × Parameter) : String × Parameter :=
  (field.1, field.2.sorted)

theorem sortedFields_eq (fields : Fields) : sortedFields fields = fields.map sortedField := by
  induction fields with
  | nil => rfl
  | cons field rest ih => rw [sortedFields, ih, List.map_cons, sortedField]

theorem names_sortedFields (fields : Fields) :
    (sortedFields fields).map (·.1) = fields.map (·.1) := by
  rw [sortedFields_eq, List.map_map]
  rfl

/-- Fields whose names differ are the same once they are sorted if there are as many of them, and
each of them is found. -/
theorem sorted_eq_iff {fields others : Fields} (distinct : (fields.map (·.1)).Nodup) :
    inNameOrder (sortedFields fields) = inNameOrder (sortedFields others) ↔
      fields.length = others.length ∧
        ∀ field ∈ fields, sortedField field ∈ others.map sortedField := by
  have names : ((sortedFields fields).map (·.1)).Nodup := by rwa [names_sortedFields]
  rw [inNameOrder_eq_iff names, sortedFields_eq, sortedFields_eq]
  constructor
  · intro perm
    refine ⟨by simpa using perm.length_eq, fun field member => ?_⟩
    exact perm.mem_iff.mp (List.mem_map_of_mem member)
  · rintro ⟨count, found⟩
    have different : (fields.map sortedField).Nodup := by
      rw [sortedFields_eq] at names
      exact .of_map _ names
    refine (List.subperm_of_subset different fun entry member => ?_).perm_of_length_le ?_
    · obtain ⟨field, inside, rfl⟩ := List.mem_map.mp member
      exact found field inside
    · simp [count]

/-- A field is found by its name if there is one of its name that is the same. -/
theorem sortedField_mem_iff {others : Fields} (distinct : (others.map (·.1)).Nodup) {name : String}
    {parameter : Parameter} : sortedField (name, parameter) ∈ others.map sortedField ↔
      ∃ other, Keyed.lookup? name others = some other ∧ parameter.sorted = other.sorted := by
  constructor
  · intro found
    obtain ⟨⟨key, other⟩, member, same⟩ := List.mem_map.mp found
    obtain ⟨rfl, sorted⟩ := Prod.mk.inj same
    exact ⟨other, Keyed.lookup?_of_mem distinct member, sorted.symm⟩
  · rintro ⟨other, found, sorted⟩
    exact List.mem_map.mpr ⟨(name, other), Keyed.mem_of_lookup? found,
      congrArg (Prod.mk name) sorted.symm⟩

mutual

theorem Parameter.same_iff : (parameter other : Parameter) → parameter.Valid → other.Valid →
    (parameter.same other = true ↔ parameter.sorted = other.sorted)
  | .object note fields, other, valid, others => by
      cases other with
      | object note' fields' =>
          have each := sameFields_iff fields fields' valid.2 others.2
          simp only [Parameter.same, Parameter.sorted, Bool.and_eq_true, beq_iff_eq, each,
            Parameter.object.injEq, sorted_eq_iff (nodup_names_of_fieldsValid valid.2), and_assoc]
      | _ => simp [Parameter.same, Parameter.sorted]
  | .array note element, other, valid, others => by
      cases other with
      | array note' element' =>
          simp [Parameter.same, Parameter.sorted, element.same_iff element' valid others]
      | _ => simp [Parameter.same, Parameter.sorted]
  | .string _, other, _, _ | .boolean _, other, _, _ | .integer .., other, _, _
  | .float .., other, _, _ | .enum .., other, _, _ => by
      cases other <;> simp [Parameter.same, Parameter.sorted]

theorem sameFields_iff : (fields others : Fields) → FieldsValid fields → FieldsValid others →
    (Parameter.sameFields fields others = true ↔
      ∀ field ∈ fields, sortedField field ∈ others.map sortedField)
  | [], others, _, _ => by simp [Parameter.sameFields]
  | (name, parameter) :: rest, others, valid, validOthers => by
      obtain ⟨-, -, own, later⟩ := valid
      rw [List.forall_mem_cons, ← sameFields_iff rest others later validOthers,
        sortedField_mem_iff (nodup_names_of_fieldsValid validOthers), Parameter.sameFields]
      cases found : Keyed.lookup? name others with
      | none => simp
      | some other =>
          have valid := (fieldsValid_iff.mp validOthers).2.2 _ (Keyed.mem_of_lookup? found)
          simp [parameter.same_iff other own valid]

end

theorem FunctionSpec.same_iff {function other : FunctionSpec} (valid : function.Valid)
    (validOther : other.Valid) : function.same other = true ↔ function.sorted = other.sorted := by
  simp only [FunctionSpec.same, FunctionSpec.sorted, Bool.and_eq_true, beq_iff_eq,
    sameFields_iff _ _ valid.parameters validOther.parameters, FunctionSpec.mk.injEq,
    sorted_eq_iff (nodup_names_of_fieldsValid valid.parameters), and_assoc]

mutual

/-- The fields of one object stand in another order, at whatever depth that object is. -/
inductive Parameter.Reorders : Parameter → Parameter → Prop
  | fields {note : Note} {fields others : Fields} (inside : FieldsReorder fields others) :
      Parameter.Reorders (.object note fields) (.object note others)
  | element {note : Note} {element other : Parameter} (inside : Parameter.Reorders element other) :
      Parameter.Reorders (.array note element) (.array note other)

inductive FieldsReorder : Fields → Fields → Prop
  | order {fields others : Fields} (perm : fields.Perm others) : FieldsReorder fields others
  | field {before after : Fields} {name : String} {parameter other : Parameter}
      (inside : Parameter.Reorders parameter other) :
      FieldsReorder (before ++ (name, parameter) :: after) (before ++ (name, other) :: after)

end

structure FunctionSpec.Reorders (function other : FunctionSpec) : Prop where
  name : function.name = other.name
  description : function.description = other.description
  parameters : FieldsReorder function.parameters other.parameters

theorem fieldsValid_perm {fields others : Fields} (perm : fields.Perm others) :
    FieldsValid fields ↔ FieldsValid others := by
  have names := perm.map (·.1)
  simp only [fieldsValid_iff, names.mem_iff, names.nodup_iff, perm.mem_iff]

mutual

/-- Another order of fields is as valid, and the same once it is sorted. -/
theorem Parameter.Reorders.keeps : {parameter other : Parameter} → parameter.Reorders other →
    parameter.Valid → other.Valid ∧ parameter.sorted = other.sorted
  | _, _, .fields inside, valid => by
      obtain ⟨count, validOthers, same⟩ := inside.keeps valid.2
      refine ⟨⟨fun none => valid.1 ?_, validOthers⟩, ?_⟩
      · rw [none] at count
        exact List.length_eq_zero_iff.mp count
      · rw [Parameter.sorted, Parameter.sorted, same]
  | _, _, .element inside, valid => by
      obtain ⟨validOther, same⟩ := inside.keeps valid
      exact ⟨validOther, by rw [Parameter.sorted, Parameter.sorted, same]⟩

theorem FieldsReorder.keeps : {fields others : Fields} → FieldsReorder fields others →
    FieldsValid fields → fields.length = others.length ∧ FieldsValid others ∧
      inNameOrder (sortedFields fields) = inNameOrder (sortedFields others)
  | fields, others, .order perm, valid => by
      have distinct : ((sortedFields fields).map (·.1)).Nodup := by
        rw [names_sortedFields]
        exact nodup_names_of_fieldsValid valid
      refine ⟨perm.length_eq, (fieldsValid_perm perm).mp valid, ?_⟩
      rw [inNameOrder_eq_iff distinct, sortedFields_eq, sortedFields_eq]
      exact perm.map sortedField
  | _, _, @FieldsReorder.field before after name parameter other inside, valid => by
      obtain ⟨words, distinct, valid⟩ := fieldsValid_iff.mp valid
      have member : (name, parameter) ∈ before ++ (name, parameter) :: after := by simp
      obtain ⟨validOther, same⟩ := inside.keeps (valid _ member)
      have names : (before ++ (name, other) :: after).map (·.1) =
          (before ++ (name, parameter) :: after).map (·.1) := by simp
      refine ⟨by simp, fieldsValid_iff.mpr ⟨names ▸ words, names ▸ distinct, ?_⟩, ?_⟩
      · intro field within
        rcases List.mem_append.mp within with earlier | later
        · exact valid field (List.mem_append_left _ earlier)
        · rcases List.mem_cons.mp later with rfl | later
          · exact validOther
          · exact valid field (List.mem_append_right _ (List.mem_cons_of_mem _ later))
      · simp [sortedFields_eq, sortedField, same]

end

theorem FunctionSpec.Reorders.keeps {function other : FunctionSpec}
    (reorders : function.Reorders other) (valid : function.Valid) :
    other.Valid ∧ function.sorted = other.sorted := by
  obtain ⟨-, parameters, same⟩ := reorders.parameters.keeps valid.parameters
  refine ⟨⟨reorders.name ▸ valid.name, parameters⟩, ?_⟩
  rw [FunctionSpec.sorted, FunctionSpec.sorted, same, reorders.name, reorders.description]

/-- Among what is built, `same` is an equivalence that tells apart just what sorting leaves apart,
and takes no notice of the order of any fields. -/
structure EqualUpToOrder {α : Type} (built : α → Prop) (same : α → α → Bool) (sorted : α → α)
    (reorders : α → α → Prop) : Prop where
  iff_sorted : ∀ a b, built a → built b → (same a b = true ↔ sorted a = sorted b)
  refl : ∀ a, built a → same a a = true
  symm : ∀ a b, built a → built b → same a b = true → same b a = true
  trans : ∀ a b c, built a → built b → built c → same a b = true → same b c = true →
    same a c = true
  order : ∀ a b c, built a → reorders a b → built c →
    same b c = same a c ∧ same c b = same c a

theorem equalUpToOrder {α : Type} {built valid : α → Prop} {same : α → α → Bool} {sorted : α → α}
    {reorders : α → α → Prop} (sound : ∀ {a}, built a → valid a)
    (iff_sorted : ∀ {a b}, valid a → valid b → (same a b = true ↔ sorted a = sorted b))
    (keeps : ∀ {a b}, reorders a b → valid a → valid b ∧ sorted a = sorted b) :
    EqualUpToOrder built same sorted reorders where
  iff_sorted _ _ first second := iff_sorted (sound first) (sound second)
  refl _ own := (iff_sorted (sound own) (sound own)).mpr rfl
  symm _ _ first second equal :=
    (iff_sorted (sound second) (sound first)).mpr
      ((iff_sorted (sound first) (sound second)).mp equal).symm
  trans _ _ _ first second third equal next :=
    (iff_sorted (sound first) (sound third)).mpr
      (((iff_sorted (sound first) (sound second)).mp equal).trans
        ((iff_sorted (sound second) (sound third)).mp next))
  order a b c own moved other := by
    obtain ⟨valid, sorted⟩ := keeps moved (sound own)
    constructor
    · rw [Bool.eq_iff_iff, iff_sorted valid (sound other), iff_sorted (sound own) (sound other),
        sorted]
    · rw [Bool.eq_iff_iff, iff_sorted (sound other) valid, iff_sorted (sound other) (sound own),
        sorted]

/-- What is built is the same just when it is identical with all fields in the order of their
names. -/
theorem same_iff_identical_in_order :
    EqualUpToOrder Parameter.Built Parameter.same Parameter.sorted Parameter.Reorders ∧
      EqualUpToOrder FunctionSpec.Built FunctionSpec.same FunctionSpec.sorted
        FunctionSpec.Reorders :=
  ⟨equalUpToOrder Parameter.Built.valid (fun first second => Parameter.same_iff _ _ first second)
      Parameter.Reorders.keeps,
    equalUpToOrder FunctionSpec.Built.valid FunctionSpec.same_iff FunctionSpec.Reorders.keeps⟩

def pinnedPrecision : Precision :=
  ⟨14, by decide, by decide⟩

def pinnedSpot : Fields :=
  [("lat", .float .plain (some pinnedPrecision)), ("floor", .integer .plain .number)]

def pinning (spot : Fields) : FunctionSpec :=
  ⟨"pin", "Drop pins.", [("spots", .array .plain (.object .plain spot)), ("note", .string .plain)]⟩

theorem pinnedSpot_reorders :
    (Parameter.object .plain pinnedSpot).Reorders (.object .plain pinnedSpot.reverse) :=
  .fields (.order (List.reverse_perm _).symm)

theorem pinning_reorders : (pinning pinnedSpot).Reorders (pinning pinnedSpot.reverse) where
  name := rfl
  description := rfl
  parameters := @FieldsReorder.field [] [("note", .string .plain)] "spots" _ _
    (.element pinnedSpot_reorders)

theorem pinnedSpot_built {fields : Fields} (members : ∀ field ∈ fields, field ∈ pinnedSpot)
    (checked : Parameter.checkedObject fields = .ok (.object .plain fields)) :
    (Parameter.object .plain fields).Built := by
  have lat : Parameter.checkedFloat (some 14) = .ok (.float .plain (some pinnedPrecision)) := rfl
  have floor : FromValue.parameter (.array [.string "number"]) =
      .ok (.integer .plain .number) := rfl
  refine .object (fun field member => ?_) checked
  have known := members field member
  simp only [pinnedSpot, List.mem_cons, List.not_mem_nil, or_false] at known
  rcases known with rfl | rfl
  · exact .float lat
  · exact .ofValue floor

theorem pinning_built {spot : Fields} (built : (Parameter.object .plain spot).Built) :
    (pinning spot).Built := by
  have pin : FunctionSpec.checked "pin" "Drop pins." (pinning spot).parameters =
      .ok (pinning spot) := rfl
  refine .checked (fun field member => ?_) pin
  simp only [pinning, List.mem_cons, List.not_mem_nil, or_false] at member
  rcases member with rfl | rfl
  · exact .array built
  · exact .string

/-- Two functions that differ in the order of the fields of an object inside an array. -/
theorem same_iff_identical_in_order_pinning :
    (Parameter.object .plain pinnedSpot.reverse).same (.object .plain pinnedSpot) = true ∧
      (pinning pinnedSpot).same (pinning pinnedSpot.reverse) = true ∧
      (pinning pinnedSpot).sorted = (pinning pinnedSpot.reverse).sorted := by
  have spot : (Parameter.object .plain pinnedSpot).Built := pinnedSpot_built (by simp) rfl
  have turned : (Parameter.object .plain pinnedSpot.reverse).Built :=
    pinnedSpot_built (by simp) rfl
  obtain ⟨parameters, functions⟩ := same_iff_identical_in_order
  have pin := pinning_built spot
  have same : (pinning pinnedSpot).same (pinning pinnedSpot.reverse) = true :=
    (functions.order _ _ _ pin pinning_reorders pin).2.trans (functions.refl _ pin)
  refine ⟨(parameters.order _ _ _ spot pinnedSpot_reorders spot).1.trans
    (parameters.refl _ spot), same, ?_⟩
  exact (functions.iff_sorted _ _ pin (pinning_built turned)).mp same

end ToolGrammar.Schema
