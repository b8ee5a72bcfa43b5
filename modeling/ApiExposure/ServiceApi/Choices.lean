import ApiExposure.Role

/-!
# Choices in API descriptions

Kinds of communication, protocols, data formats, security methods and methods
of operations, each with one name in JSON.
-/

namespace ApiExposure

/-- How a resource or custom operation communicates. -/
inductive CommType where
  /-- One response for a request. -/
  | requestResponse
  /-- Notifications for a subscription. -/
  | subscribeNotify
  deriving DecidableEq, Repr, Inhabited

namespace CommType

/-- Every kind of communication. -/
def all : List CommType := [requestResponse, subscribeNotify]

/-- The name in JSON. -/
def code : CommType → String
  | requestResponse => "REQUEST_RESPONSE"
  | subscribeNotify => "SUBSCRIBE_NOTIFY"

/-- Reads a kind from JSON. -/
def decode : Decoder CommType := Decoder.named all code

/-- The JSON form. -/
def toJson (c : CommType) : Json := .str c.code

instance : JsonForm CommType := ⟨decode, toJson⟩

/-- A communication type is read back from its word. -/
theorem decode_toJson (c : CommType) : decode (Draft.ofJson c.toJson) = .ok c := by
  cases c <;> rfl

end CommType

/-- Protocol of an exposing function. -/
inductive Protocol where
  /-- Version 1.1 of the hypertext protocol. -/
  | http11
  /-- Version 2 of the hypertext protocol. -/
  | http2
  deriving DecidableEq, Repr, Inhabited

namespace Protocol

/-- Every protocol. -/
def all : List Protocol := [http11, http2]

/-- The name in JSON. -/
def code : Protocol → String
  | http11 => "HTTP_1_1"
  | http2 => "HTTP_2"

/-- Reads a protocol from JSON. -/
def decode : Decoder Protocol := Decoder.named all code

/-- The JSON form. -/
def toJson (p : Protocol) : Json := .str p.code

instance : JsonForm Protocol := ⟨decode, toJson⟩

/-- A protocol is read back from its word. -/
theorem decode_toJson (p : Protocol) : decode (Draft.ofJson p.toJson) = .ok p := by
  cases p <;> rfl

end Protocol

/-- Data format of an exposing function. -/
inductive DataFormat where
  /-- JSON texts. -/
  | json
  deriving DecidableEq, Repr, Inhabited

namespace DataFormat

/-- Every format. -/
def all : List DataFormat := [json]

/-- The name in JSON. -/
def code : DataFormat → String
  | json => "JSON"

/-- Reads a format from JSON. -/
def decode : Decoder DataFormat := Decoder.named all code

/-- The JSON form. -/
def toJson (f : DataFormat) : Json := .str f.code

instance : JsonForm DataFormat := ⟨decode, toJson⟩

/-- A data format is read back from its word. -/
theorem decode_toJson (f : DataFormat) : decode (Draft.ofJson f.toJson) = .ok f := by
  cases f
  rfl

end DataFormat

/-- How calls to an API are secured. -/
inductive SecurityMethod where
  /-- A key shared in advance. -/
  | psk
  /-- Certificates. -/
  | pki
  /-- Access tokens. -/
  | oauth
  deriving DecidableEq, Repr, Inhabited

namespace SecurityMethod

/-- Every method. -/
def all : List SecurityMethod := [psk, pki, oauth]

/-- The name in JSON. -/
def code : SecurityMethod → String
  | psk => "PSK"
  | pki => "PKI"
  | oauth => "OAUTH"

/-- Reads a method from JSON. -/
def decode : Decoder SecurityMethod := Decoder.named all code

/-- The JSON form. -/
def toJson (m : SecurityMethod) : Json := .str m.code

instance : JsonForm SecurityMethod := ⟨decode, toJson⟩

/-- A security method is read back from its word. -/
theorem decode_toJson (m : SecurityMethod) : decode (Draft.ofJson m.toJson) = .ok m := by
  cases m <;> rfl

end SecurityMethod

/-- Method of an operation on a resource. -/
inductive Operation where
  /-- Reads. -/
  | get
  /-- Creates. -/
  | post
  /-- Replaces. -/
  | put
  /-- Changes in part. -/
  | patch
  /-- Removes. -/
  | delete
  deriving DecidableEq, Repr, Inhabited

namespace Operation

/-- Every method. -/
def all : List Operation := [get, post, put, patch, delete]

/-- The name in JSON. -/
def code : Operation → String
  | get => "GET"
  | post => "POST"
  | put => "PUT"
  | patch => "PATCH"
  | delete => "DELETE"

/-- Reads a method from JSON. -/
def decode : Decoder Operation := Decoder.named all code

/-- The JSON form. -/
def toJson (o : Operation) : Json := .str o.code

instance : JsonForm Operation := ⟨decode, toJson⟩

/-- An operation is read back from its word. -/
theorem decode_toJson (o : Operation) : decode (Draft.ofJson o.toJson) = .ok o := by
  cases o <;> rfl

end Operation

end ApiExposure
