import ApiExposure.Json.Form
import ApiExposure.Role

/-!
# Identifiers

Domains, functions, APIs, invokers and subscriptions are named by texts, one
type for each so that they cannot be confused. In JSON an identifier is its
text. A generated identifier is a word for its kind with a fresh suffix, and
fresh suffixes never repeat.
-/

namespace ApiExposure

/-- Names a provider domain. -/
structure DomainId where
  /-- The identifier as text. -/
  text : String
  deriving DecidableEq, Repr, Inhabited, Hashable

/-- Names a provider function. -/
structure FunctionId where
  /-- The identifier as text. -/
  text : String
  deriving DecidableEq, Repr, Inhabited, Hashable

/-- Names a published API. -/
structure ApiId where
  /-- The identifier as text. -/
  text : String
  deriving DecidableEq, Repr, Inhabited, Hashable

/-- Names an onboarded invoker. -/
structure InvokerId where
  /-- The identifier as text. -/
  text : String
  deriving DecidableEq, Repr, Inhabited, Hashable

/-- Names an event subscription. -/
structure SubscriptionId where
  /-- The identifier as text. -/
  text : String
  deriving DecidableEq, Repr, Inhabited, Hashable

/-- The part of a generated identifier that never repeats. -/
abbrev Suffix := String

namespace DomainId

/-- Reads the identifier from JSON. -/
def decode : Decoder DomainId := fun d => (Decoder.text d).map mk

/-- The JSON form. -/
def toJson (id : DomainId) : Json := .str id.text

instance : JsonForm DomainId := ⟨decode, toJson⟩

/-- A generated identifier. -/
def generate (suffix : Suffix) : DomainId := ⟨"domain_" ++ suffix⟩

/-- Domains with different suffixes have different identifiers. -/
theorem generate_injective {s t : Suffix} (h : generate s = generate t) : s = t := by
  simpa [generate] using h

end DomainId

namespace FunctionId

/-- Reads the identifier from JSON. -/
def decode : Decoder FunctionId := fun d => (Decoder.text d).map mk

/-- The JSON form. -/
def toJson (id : FunctionId) : Json := .str id.text

instance : JsonForm FunctionId := ⟨decode, toJson⟩

/-- A generated identifier; it begins with the short name of the function's role. -/
def generate (role : Role) (suffix : Suffix) : FunctionId := ⟨role.code ++ "_" ++ suffix⟩

/-- All short names have three letters, so the suffix can be told whatever the role is. -/
theorem generate_injective {q r : Role} {s t : Suffix} (h : generate q s = generate r t) :
    s = t := by
  have htext : (q.code ++ "_").toList ++ s.toList = (r.code ++ "_").toList ++ t.toList := by
    rw [← String.toList_append, ← String.toList_append]
    exact congrArg (fun id => id.text.toList) h
  have hcode : ∀ role : Role, role.code.toList.length = 3 := by
    intro role
    cases role <;> rfl
  have hlength : (q.code ++ "_").toList.length = (r.code ++ "_").toList.length := by
    simp only [String.toList_append, List.length_append, hcode]
  exact String.toList_inj.mp (List.append_inj_right htext hlength)

end FunctionId

namespace ApiId

/-- Reads the identifier from JSON. -/
def decode : Decoder ApiId := fun d => (Decoder.text d).map mk

/-- The JSON form. -/
def toJson (id : ApiId) : Json := .str id.text

instance : JsonForm ApiId := ⟨decode, toJson⟩

/-- A generated identifier. -/
def generate (suffix : Suffix) : ApiId := ⟨"api_id_" ++ suffix⟩

theorem generate_injective {s t : Suffix} (h : generate s = generate t) : s = t := by
  simpa [generate] using h

end ApiId

namespace InvokerId

/-- Reads the identifier from JSON. -/
def decode : Decoder InvokerId := fun d => (Decoder.text d).map mk

/-- The JSON form. -/
def toJson (id : InvokerId) : Json := .str id.text

instance : JsonForm InvokerId := ⟨decode, toJson⟩

/-- A generated identifier. -/
def generate (suffix : Suffix) : InvokerId := ⟨"api_invoker_id_" ++ suffix⟩

theorem generate_injective {s t : Suffix} (h : generate s = generate t) : s = t := by
  simpa [generate] using h

end InvokerId

namespace SubscriptionId

/-- Reads the identifier from JSON. -/
def decode : Decoder SubscriptionId := fun d => (Decoder.text d).map mk

/-- The JSON form. -/
def toJson (id : SubscriptionId) : Json := .str id.text

instance : JsonForm SubscriptionId := ⟨decode, toJson⟩

/-- The subscriber with the running number of the subscription behind it. -/
def forSubscriber (subscriber : String) (sequence : Nat) : SubscriptionId :=
  ⟨subscriber ++ toString sequence⟩

end SubscriptionId

end ApiExposure
