import ApiExposure.Json.Form
import ApiExposure.Settings.Value
import ApiExposure.Net.SocketAddress

/-!
# Settings of the service

Settings come in three sections, for the server, the events and the log. Every
section and every field has a default.
-/

namespace ApiExposure

/-- A socket address in a text. -/
def SocketAddress.decode : Decoder SocketAddress := .parsed SocketAddress.read?

/-- Settings of the server. -/
structure ServerSettings where
  /-- Address to listen on. -/
  listen : SocketAddress := .v4 [127, 0, 0, 1] 8080
  /-- Whether pages of any origin may call. -/
  allowOrigins : Bool := true
  /-- Seconds before a request is given up. -/
  requestTimeout : Nat := 30
  /-- Greatest number of bytes of a request body. -/
  maxBody : Nat := 1048576
  deriving DecidableEq, Repr, Inhabited

namespace ServerSettings

/-- The fields in JSON. -/
def record : Record ServerSettings :=
  let d : ServerSettings := {}
  ServerSettings.mk <$> .withDefault "listen_addr" SocketAddress.decode d.listen
    <*> .withDefault "enable_cors" .bool d.allowOrigins
    <*> .withDefault "request_timeout_secs" (.natUpTo Word.greatest) d.requestTimeout
    <*> .withDefault "max_body_size" (.natUpTo Word.greatest) d.maxBody

/-- Reads the section from JSON. -/
def decode : Decoder ServerSettings := record.decode

/-- Reads the section leniently. -/
def ofSetting? (s : Setting) : Option ServerSettings := do
  let d : ServerSettings := {}
  some {
    listen := ← s.field? "listen_addr" 0 (fun v => v.text?.bind SocketAddress.read?) d.listen
    allowOrigins := ← s.field? "enable_cors" 1 Setting.truth? d.allowOrigins
    requestTimeout := ← s.field? "request_timeout_secs" 2 Setting.count? d.requestTimeout
    maxBody := ← s.field? "max_body_size" 3 Setting.count? d.maxBody }

/-- The JSON form. -/
def toJson (s : ServerSettings) : Json :=
  .ofGroups [
    Json.member "listen_addr" (.str s.listen.text),
    Json.member "enable_cors" (.bool s.allowOrigins),
    Json.member "request_timeout_secs" (.int s.requestTimeout),
    Json.member "max_body_size" (.int s.maxBody)]

instance : JsonForm ServerSettings := ⟨decode, toJson⟩

end ServerSettings

/-- Settings of the events. -/
structure EventSettings where
  /-- How many events a slow listener may lag behind. -/
  capacity : Nat := 256
  /-- Seconds before the delivery of a notification is given up. -/
  deliveryTimeout : Nat := 5
  deriving DecidableEq, Repr, Inhabited

namespace EventSettings

/-- The fields in JSON. -/
def record : Record EventSettings :=
  let d : EventSettings := {}
  EventSettings.mk <$> .withDefault "channel_capacity" (.natUpTo Word.greatest) d.capacity
    <*> .withDefault "delivery_timeout_secs" (.natUpTo Word.greatest) d.deliveryTimeout

/-- Reads the section leniently. -/
def ofSetting? (s : Setting) : Option EventSettings := do
  let d : EventSettings := {}
  some {
    capacity := ← s.field? "channel_capacity" 0 Setting.count? d.capacity
    deliveryTimeout := ← s.field? "delivery_timeout_secs" 1 Setting.count? d.deliveryTimeout }

/-- The JSON form. -/
def toJson (s : EventSettings) : Json :=
  .ofGroups [
    Json.member "channel_capacity" (.int s.capacity),
    Json.member "delivery_timeout_secs" (.int s.deliveryTimeout)]

end EventSettings

/-- Settings of the log. -/
structure LogSettings where
  /-- Least level that is logged. -/
  level : String := "info"
  /-- Whether lines are JSON. -/
  json : Bool := false
  deriving DecidableEq, Repr, Inhabited

namespace LogSettings

/-- The fields in JSON. -/
def record : Record LogSettings :=
  let d : LogSettings := {}
  LogSettings.mk <$> .withDefault "level" .text d.level <*> .withDefault "json" .bool d.json

/-- Reads the section leniently. -/
def ofSetting? (s : Setting) : Option LogSettings := do
  let d : LogSettings := {}
  some {
    level := ← s.field? "level" 0 Setting.text? d.level
    json := ← s.field? "json" 1 Setting.truth? d.json }

/-- The JSON form. -/
def toJson (s : LogSettings) : Json :=
  .ofGroups [Json.member "level" (.str s.level), Json.member "json" (.bool s.json)]

end LogSettings

/-- All settings. -/
structure Settings where
  /-- Settings of the server. -/
  server : ServerSettings := {}
  /-- Settings of the events. -/
  events : EventSettings := {}
  /-- Settings of the log. -/
  logging : LogSettings := {}
  deriving DecidableEq, Repr, Inhabited

namespace Settings

/-- The sections in JSON. -/
def record : Record Settings :=
  Settings.mk <$> .withDefault "server" ServerSettings.record.decode {}
    <*> .withDefault "events" EventSettings.record.decode {}
    <*> .withDefault "logging" LogSettings.record.decode {}

/-- Reads settings from JSON. -/
def decode : Decoder Settings := record.decode

/-- Reads all sections leniently. -/
def ofSetting? (s : Setting) : Option Settings := do
  some {
    server := ← s.field? "server" 0 ServerSettings.ofSetting? {}
    events := ← s.field? "events" 1 EventSettings.ofSetting? {}
    logging := ← s.field? "logging" 2 LogSettings.ofSetting? {} }

/-- The JSON form. -/
def toJson (s : Settings) : Json :=
  .ofGroups [
    Json.member "server" s.server.toJson,
    Json.member "events" s.events.toJson,
    Json.member "logging" s.logging.toJson]

instance : JsonForm Settings := ⟨decode, toJson⟩

end Settings

end ApiExposure
