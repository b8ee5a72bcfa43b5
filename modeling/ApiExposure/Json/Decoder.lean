import ApiExposure.Json.Reader

/-!
# Decoding JSON into types

A decoder reads one type from a draft. It fails in two ways: the JSON is fine
but not of the type, or the text is no JSON at a place that the decoder had to
read. Records are read from objects in the order of the text, so the first
fault met decides between the two; a record may also be written as an array of
its fields in declaration order. Fields that a record does not know are
skipped, whatever sound JSON they hold.
-/

namespace ApiExposure

/-- Why JSON does not decode. -/
inductive DecodeFailure where
  /-- JSON that is not of the type. -/
  | mismatch
  /-- A text that is no JSON, or JSON without a value, where a value was needed. -/
  | malformed
  deriving DecidableEq, Repr

/-- Reads a type from a draft. -/
abbrev Decoder (α : Type) := Draft → Except DecodeFailure α

namespace Decoder

/-- The failure of a draft of the wrong shape. -/
def wrong {α : Type} : Decoder α
  | .unrepresentable => .error .malformed
  | .broken => .error .malformed
  | _ => .error .mismatch

/-- A text. -/
def text : Decoder String
  | .str s => .ok s
  | d => wrong d

/-- A truth value. -/
def bool : Decoder Bool
  | .bool b => .ok b
  | d => wrong d

/-- An integer from zero up to a bound. -/
def natUpTo (bound : Nat) : Decoder Nat
  | .int n => if 0 ≤ n ∧ n ≤ bound then .ok n.toNat else .error .mismatch
  | d => wrong d

/-- Any JSON value. -/
def json : Decoder Json := fun d =>
  match d.value? with
  | some v => .ok v
  | none => .error .malformed

/-- A text that a reader accepts. -/
def parsed {α : Type} (read : String → Option α) : Decoder α := fun d => do
  match read (← text d) with
  | some a => .ok a
  | none => .error .mismatch

/-- One of several names, written as a text or as an object with that single key and the
value `null`; where the object was collected, an empty object may stand for `null`. Any other
kind of JSON counts as malformed. -/
def choice {α : Type} (read : String → Option α) : Decoder α
  | .str s =>
    match read s with
    | some a => .ok a
    | none => .error .mismatch
  | .obj ((some key, value) :: rest) closed =>
    match read key, value with
    | none, _ => .error .mismatch
    | some a, .null => if rest.isEmpty && closed then .ok a else .error .malformed
    | some a, .void => if rest.isEmpty && closed then .ok a else .error .malformed
    | some _, d => wrong d
  | _ => .error .malformed

/-- A value or `null`. -/
def orNone {α : Type} (decode : Decoder α) : Decoder (Option α)
  | .null => .ok none
  | d => (decode d).map some

/-- The items of an array, in order; it has to be closed. -/
def items {α : Type} (decode : Decoder α) (closed : Bool) :
    List Draft → Except DecodeFailure (List α)
  | [] => if closed then .ok [] else .error .malformed
  | d :: ds => do
    let a ← decode d
    let as ← items decode closed ds
    .ok (a :: as)

/-- An array. -/
def list {α : Type} (decode : Decoder α) : Decoder (List α)
  | .arr ds closed => items decode closed ds
  | d => wrong d

end Decoder

/-- How a record is read: from the members of an object or from the items of an array. -/
structure Record (α : Type) where
  /-- Names of the fields with a check of their written values, in declaration order. -/
  fields : List (String × (Draft → Except DecodeFailure Unit))
  /-- The record, given the written value of each field. -/
  ofMembers : (String → Option Draft) → Except DecodeFailure α
  /-- The record from the items in front, given whether the array is closed, and the rest. -/
  ofItems : List Draft → Bool → Except DecodeFailure (α × List Draft)

namespace Record

/-- A field with a fallback for the case that it is not written. -/
def field {α : Type} (name : String) (decode : Decoder α) (missing : Except DecodeFailure α) :
    Record α where
  fields := [(name, fun d => (decode d).map (fun _ => ()))]
  ofMembers := fun written =>
    match written name with
    | some d => decode d
    | none => missing
  ofItems := fun items closed =>
    match items with
    | d :: ds => (decode d).map (·, ds)
    | [] => if closed then missing.map (·, []) else .error .malformed

/-- A field that has to be written. -/
def required {α : Type} (name : String) (decode : Decoder α) : Record α :=
  field name decode (.error .mismatch)

/-- A field that may be left out or be `null`. -/
def optional {α : Type} (name : String) (decode : Decoder α) : Record (Option α) :=
  field name (Decoder.orNone decode) (.ok none)

/-- A field with a value for the case that it is left out. -/
def withDefault {α : Type} (name : String) (decode : Decoder α) (value : α) : Record α :=
  field name decode (.ok value)

/-- A record without fields. -/
protected def pure {α : Type} (a : α) : Record α where
  fields := []
  ofMembers := fun _ => .ok a
  ofItems := fun items _ => .ok (a, items)

/-- The fields of one record followed by those of another. -/
protected def seq {α β : Type} (f : Record (α → β)) (x : Record α) : Record β where
  fields := f.fields ++ x.fields
  ofMembers := fun written => do
    let g ← f.ofMembers written
    let a ← x.ofMembers written
    .ok (g a)
  ofItems := fun items closed => do
    let (g, items) ← f.ofItems items closed
    let (a, items) ← x.ofItems items closed
    .ok (g a, items)

instance : Applicative Record where
  pure := Record.pure
  seq f x := Record.seq f (x ())

/-- The members of an object from first to last. A known field may be written once and its
value has to pass its check; the value of an unknown one has to pass `unknown`. -/
def walk (fields : List (String × (Draft → Except DecodeFailure Unit)))
    (unknown : Draft → Except DecodeFailure Unit) (closed : Bool) :
    List (Option String × Draft) → List String → Except DecodeFailure Unit
  | [], _ => if closed then .ok () else .error .malformed
  | (none, _) :: _, _ => .error .malformed
  | (some key, d) :: rest, seen =>
    match fields.find? (fun f => f.1 == key) with
    | some f => do
      if seen.contains key then .error .mismatch
      f.2 d
      walk fields unknown closed rest (key :: seen)
    | none => do
      unknown d
      walk fields unknown closed rest seen

/-- The first written value of a field. -/
def written (members : List (Option String × Draft)) (name : String) : Option Draft :=
  (members.find? (fun m => m.1 == some name)).map (·.2)

/-- Unknown fields may hold any sound JSON. -/
def skip (d : Draft) : Except DecodeFailure Unit :=
  if d.intact then .ok () else .error .malformed

/-- Unknown fields may hold any JSON that has a value. -/
def buffer (d : Draft) : Except DecodeFailure Unit :=
  if d.value?.isSome then .ok () else .error .malformed

/-- Reads a record. -/
def decode {α : Type} (r : Record α) : Decoder α
  | .obj members closed => do
    walk r.fields skip closed members []
    r.ofMembers (written members)
  | .arr items closed => do
    let (a, rest) ← r.ofItems items closed
    if rest.isEmpty && closed then .ok a else .error .malformed
  | .void => r.ofMembers (fun _ => none)
  | d => Decoder.wrong d

/-- A field whose value has to have a value before it is checked, as collected. -/
def collected (f : String × (Draft → Except DecodeFailure Unit)) :
    String × (Draft → Except DecodeFailure Unit) :=
  (f.1, fun d => do
    buffer d
    f.2 d.collected)

/-- Reads a record whose fields stand in one object with those of an inner record. Such an
object is collected as a whole first, so every value in it outside the outer fields has to
have a value; the array form does not exist. -/
def decodeFlattened {α β γ : Type} (combine : α → β → γ) (outer : Record α)
    (inner : Record β) : Decoder γ
  | .obj members closed => do
    walk (outer.fields ++ inner.fields.map collected) buffer closed members []
    let a ← outer.ofMembers (written members)
    let b ← inner.ofMembers (fun name => (written members name).map Draft.collected)
    .ok (combine a b)
  | .arr _ _ => .error .mismatch
  | d => Decoder.wrong d

end Record

namespace Decoder

/-- Reads a whole text: the value first, then the check that nothing follows it. -/
def ofText {α : Type} (decode : Decoder α) (text : String) : Except DecodeFailure α := do
  let t := Json.Text.read text
  let a ← decode t.draft
  if t.complete then .ok a else .error .malformed

/-- Reads a value. -/
def ofJson {α : Type} (decode : Decoder α) (value : Json) : Except DecodeFailure α :=
  decode (Draft.ofJson value)

end Decoder

end ApiExposure
