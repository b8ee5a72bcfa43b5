import ApiExposure.Json.Decoder

/-!
# Types with a JSON form

A type of the domain has one JSON form: how it is written and which JSON is read
as a value of it. Lists are written and read item by item.
-/

namespace ApiExposure

/-- A type with a JSON form. -/
class JsonForm (α : Type) where
  /-- Reads a value. -/
  decode : Decoder α
  /-- Writes a value. -/
  toJson : α → Json

namespace JsonForm

instance : JsonForm String := ⟨Decoder.text, .str⟩

instance : JsonForm Bool := ⟨Decoder.bool, .bool⟩

instance {α : Type} [JsonForm α] : JsonForm (List α) := ⟨Decoder.list decode, .ofList toJson⟩

instance {α : Type} [JsonForm α] : JsonForm (Option α) := ⟨Decoder.orNone decode, .orNull toJson⟩

end JsonForm

end ApiExposure
