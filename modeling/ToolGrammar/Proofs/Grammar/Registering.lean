import ToolGrammar.Proofs.Grammar.FixedPoint
import ToolGrammar.Proofs.Grammar.Precisions
import ToolGrammar.Proofs.Grammar.Separation

namespace ToolGrammar.Grammar

open Schema Gbnf

namespace Registry

/-- The registry has come about by registering one precision after another, starting from nothing or
from what functions use; `noted` are all precisions collected or registered. -/
inductive Noting : Registry → Set Precision → Prop where
  | empty : Noting .empty ∅
  | collect (functions : List FunctionSpec) :
      Noting (collect functions) {precision | ∃ function ∈ functions, function.HasFloat precision}
  | register {registry : Registry} {noted : Set Precision} (noting : Noting registry noted)
      (precision : Precision) :
      Noting (registry.register precision).2 (Insert.insert precision noted)

/-- What can be seen of the registry is the set, listed by ascending numbers of places. -/
structure Shows (registry : Registry) (noted : Set Precision) : Prop where
  contains : ∀ precision, registry.contains precision = true ↔ precision ∈ noted
  size : registry.size = noted.ncard
  listed : ∀ precision, precision ∈ registry.precisions ↔ precision ∈ noted
  ascending : (registry.precisions.map (·.digits)).Pairwise (· < ·)

/-- Among the rules of the registry one alone has the name. It stands for the numbers with as many
decimal places as the precision asks for. -/
structure Defines (registry : Registry) (id : RuleId) (precision : Precision) : Prop where
  kept : ⟨id, .fixedPoint precision⟩ ∈ registry.rules
  single : ∀ rule ∈ registry.rules, rule.id = id → rule = ⟨id, .fixedPoint precision⟩
  derives : ∀ text, Derives registry.productions (.reference id.text) text ↔
    FixedPoint precision.digits text

variable {registry other : Registry} {noted : Set Precision} {precision : Precision}

theorem Noting.mem_iff (noting : registry.Noting noted) :
    precision ∈ registry.precisions ↔ precision ∈ noted := by
  induction noting with
  | empty => exact iff_of_false List.not_mem_nil (Set.notMem_empty precision)
  | collect functions => exact mem_collect_iff_hasFloat
  | register _ told ih => exact mem_insert.trans (or_congr_right ih)

theorem Noting.size_eq (noting : registry.Noting noted) : registry.size = noted.ncard := by
  -- The list has no repetitions, so its length is the number of its members.
  have whole : noted = (registry.precisions.toFinset : Set Precision) := by
    ext precision
    rw [Finset.mem_coe, List.mem_toFinset, noting.mem_iff]
  rw [whole, Set.ncard_coe_finset, List.toFinset_card_of_nodup registry.nodup_precisions, size]

theorem Noting.shows (noting : registry.Noting noted) : registry.Shows noted where
  contains _ := decide_eq_true_iff.trans noting.mem_iff
  size := noting.size_eq
  listed _ := noting.mem_iff
  ascending := List.pairwise_map.mpr registry.ascending

theorem Noting.unique (noting : registry.Noting noted) (same : other.Noting noted) :
    other = registry :=
  eq_of_mem_iff fun _ => same.mem_iff.trans noting.mem_iff.symm

theorem defines_of_mem (used : precision ∈ registry.precisions) :
    registry.Defines (floatId precision) precision := by
  have kept : ⟨floatId precision, .fixedPoint precision⟩ ∈ registry.rules :=
    mem_rules.mpr (.inl ⟨precision, used, .inl rfl⟩)
  refine ⟨kept, fun rule member named => ?_, fun text => derives_iff used⟩
  exact List.inj_on_of_nodup_map registry.nodup_ids member kept named

theorem defines_register (registry : Registry) (precision : Precision) :
    (registry.register precision).2.Defines (registry.register precision).1 precision :=
  defines_of_mem (mem_insert.mpr (.inl rfl))

end Registry

/-- A registry shows the set of the precisions that it was collected from or told of. Its rules have
distinct names and depend on the set alone, and the name answered for a precision is the one under
which they define it. -/
theorem registry_shows_noted {registry : Registry} {noted : Set Precision}
    (noting : registry.Noting noted) :
    registry.Shows noted ∧
    registry.rules.length = floatRules noted.ncard ∧
    (registry.rules.map Rule.id).Nodup ∧
    (∀ other : Registry, other.Noting noted → other.rules = registry.rules) ∧
    ∀ precision,
      (registry.register precision).2.Defines (registry.register precision).1 precision := by
  refine ⟨noting.shows, ?_, registry.nodup_ids, fun other same => ?_, registry.defines_register⟩
  · rw [Registry.length_rules, ← noting.size_eq, Registry.size]
  · rw [noting.unique same]

def ninePlaces : Precision :=
  ⟨9, Nat.succ_pos 8, Nat.le_of_ble_eq_true rfl⟩

def tenPlaces : Precision :=
  ⟨10, Nat.succ_pos 9, Nat.le_of_ble_eq_true rfl⟩

def sounding : List FunctionSpec := [
  ⟨"sound", "", [("depths", .array .plain (.object .plain [
    ("depth", .float .plain (some tenPlaces))]))]⟩]

/-- Collected from a function, and then told of the smaller precision. -/
def sounded : Registry :=
  ((Registry.collect sounding).register ninePlaces).2

/-- Told of both, of one of them twice. -/
def registered : Registry :=
  (((Registry.empty.register tenPlaces).2.register ninePlaces).2.register tenPlaces).2

theorem sounded_noting : sounded.Noting {ninePlaces, tenPlaces} := by
  have collected : {precision | ∃ function ∈ sounding, function.HasFloat precision} =
      {tenPlaces} := by
    ext precision
    have listed : (Registry.collect sounding).precisions = [tenPlaces] := rfl
    rw [Set.mem_ofPred_eq, ← mem_collect_iff_hasFloat, listed, List.mem_singleton,
      Set.mem_singleton_iff]
  have noting := (Registry.Noting.collect sounding).register ninePlaces
  rwa [collected] at noting

theorem registered_noting : registered.Noting {ninePlaces, tenPlaces} := by
  have noting := ((Registry.Noting.empty.register tenPlaces).register ninePlaces).register tenPlaces
  rwa [Set.insert_comm ninePlaces, Set.insert_idem, Set.insert_comm, insert_empty_eq] at noting

theorem registry_shows_noted_sounded :
    sounded.Noting {ninePlaces, tenPlaces} ∧ sounded.Shows {ninePlaces, tenPlaces} ∧
      registered.Noting {ninePlaces, tenPlaces} ∧ registered.rules = sounded.rules := by
  obtain ⟨shows, _, _, alike, _⟩ := registry_shows_noted sounded_noting
  exact ⟨sounded_noting, shows, registered_noting, alike registered registered_noting⟩

end ToolGrammar.Grammar
