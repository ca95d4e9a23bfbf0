import Mathlib
import ToolGrammar.Schema.Refusal

namespace ToolGrammar.Schema

variable {ε ε' α β : Type}

@[simp]
theorem ok_of_bind {first : Except ε α} {next : α → Except ε β} {result : β} :
    (first >>= next) = .ok result ↔ ∃ value, first = .ok value ∧ next value = .ok result := by
  cases first <;> simp [bind, Except.bind]

@[simp]
theorem ok_of_pure {value result : α} :
    (pure value : Except ε α) = .ok result ↔ value = result := by
  simp [pure, Except.pure]

@[simp]
theorem ok_of_throw {failure : ε} {result : α} :
    (throw failure : Except ε α) = .ok result ↔ False := by
  simp [throw, throwThe, MonadExceptOf.throw]

@[simp]
theorem ok_of_map {decoded : Except ε α} {use : α → β} {result : β} :
    decoded.map use = .ok result ↔ ∃ value, decoded = .ok value ∧ use value = result := by
  cases decoded <;> simp [Except.map]

@[simp]
theorem ok_of_functorMap {decoded : Except ε α} {use : α → β} {result : β} :
    use <$> decoded = .ok result ↔ ∃ value, decoded = .ok value ∧ use value = result :=
  ok_of_map

@[simp]
theorem ok_of_mapError {decoded : Except ε α} {tell : ε → ε'} {result : α} :
    decoded.mapError tell = .ok result ↔ decoded = .ok result := by
  cases decoded <;> simp [Except.mapError]

@[simp]
theorem Decoded.ok_of_under {step : Json.Step} {decoded : Decoded α} {result : α} :
    Decoded.under step decoded = .ok result ↔ decoded = .ok result :=
  ok_of_mapError

@[simp]
theorem Decoded.ok_of_settle {position : Json.Position} {decoded : Decoded α} {result : α} :
    Decoded.settle position decoded = .ok result ↔ decoded = .ok result :=
  ok_of_mapError

@[simp]
theorem Decoded.ok_of_ofChecked {checked : Except SchemaError α} {result : α} :
    Decoded.ofChecked checked = .ok result ↔ checked = .ok result :=
  ok_of_mapError

end ToolGrammar.Schema
