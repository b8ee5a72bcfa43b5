import ApiExposure.Json.Form

/-!
# Named choices and function roles

A choice among a few names has one JSON name for each. The roles of provider
functions are such a choice: a function publishes APIs, exposes them or manages
the domain.
-/

namespace ApiExposure

/-- Reads one of the listed values by its name. -/
def Decoder.named {α : Type} (all : List α) (name : α → String) : Decoder α :=
  Decoder.choice (fun s => all.find? (fun a => name a == s))

/-- What a provider function does in its domain. -/
inductive Role where
  /-- Publishes service APIs. -/
  | publisher
  /-- Exposes service APIs. -/
  | exposer
  /-- Manages the domain. -/
  | manager
  deriving DecidableEq, Repr, Inhabited, Hashable

namespace Role

/-- Every role. -/
def all : List Role := [publisher, exposer, manager]

/-- The short name, used in JSON and in front of generated function identifiers. -/
def code : Role → String
  | publisher => "APF"
  | exposer => "AEF"
  | manager => "AMF"

/-- The word for the role in messages. -/
def word : Role → String
  | publisher => "publisher"
  | exposer => "exposer"
  | manager => "manager"

/-- Reads a role from JSON. -/
def decode : Decoder Role := Decoder.named all code

/-- The JSON form. -/
def toJson (r : Role) : Json := .str r.code

instance : JsonForm Role := ⟨decode, toJson⟩

/-- A role is read back from its word. -/
theorem decode_toJson (r : Role) : decode (Draft.ofJson r.toJson) = .ok r := by
  cases r <;> rfl

end Role

end ApiExposure
