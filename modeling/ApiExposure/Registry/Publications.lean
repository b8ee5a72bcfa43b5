import ApiExposure.Criteria
import ApiExposure.Registry.Providers

/-!
# The store of published APIs

APIs in the order of publication, and an index of the names that each publisher
has taken. References to functions are checked against the registry of
providers; when functions go, a cascade drops the APIs that they published,
strips the profiles that they exposed and drops APIs left without profiles.
-/

namespace ApiExposure

/-- One live publication of a version on an exposing function. -/
structure Exposure where
  /-- The API. -/
  api : ApiId
  /-- Its publisher. -/
  publisher : FunctionId
  /-- When the version expires. -/
  expiry : Option Instant
  deriving DecidableEq, Repr, Inhabited

/-- The APIs that a cascade touched. -/
structure Cascade where
  /-- Dropped APIs, as they were when they were dropped. -/
  removed : List PublishedApi
  /-- Stripped APIs that stay. -/
  updated : List PublishedApi
  deriving Inhabited

/-- Published APIs. -/
structure Publications where
  /-- APIs in the order of publication. -/
  apis : Table ApiId PublishedApi
  /-- The API that a publisher has under a name. -/
  names : Table (FunctionId × String) ApiId

namespace Publications

/-- The store without APIs. -/
def empty : Publications := ⟨.empty, .empty⟩

instance : Inhabited Publications := ⟨empty⟩

/-- Adds an API and takes its name. -/
def add (s : Publications) (a : PublishedApi) : Publications :=
  ⟨s.apis.insert a.id a, s.names.insert (a.publisher, a.name) a.id⟩

/-- Removes an API and frees its name. -/
def remove (s : Publications) (id : ApiId) : Option (PublishedApi × Publications) :=
  (s.apis.get? id).map (fun a => (a, ⟨s.apis.erase id, s.names.erase (a.publisher, a.name)⟩))

/-- Puts a changed API in its place. -/
def replace (s : Publications) (a : PublishedApi) : Publications :=
  { s with apis := s.apis.insert a.id a }

/-- The publisher must not have an API of that name. -/
def requireFree (s : Publications) (publisher : FunctionId) (name : String) : Outcome Unit :=
  if s.names.contains (publisher, name) then .error (.conflict (.nameTaken name publisher))
  else .ok ()

/-- Checks a publication without recording it. -/
def validate (s : Publications) (p : Providers) (publisher : FunctionId) (d : ApiDescription) :
    Outcome Unit := do
  d.validate
  p.requirePublisher publisher
  p.requireExposers d.exposers
  s.requireFree publisher d.name

/-- Records a publication under a given identifier. -/
def publishAs (s : Publications) (p : Providers) (id : ApiId) (publisher : FunctionId)
    (d : ApiDescription) (now : Instant) : Outcome (PublishedApi × Publications) := do
  s.validate p publisher d
  if s.apis.contains id then .error (.conflict (.apiIdTaken id))
  else
    let a : PublishedApi := ⟨id, publisher, d, now, now⟩
    .ok (a, s.add a)

/-- Records a publication under a generated identifier. -/
def publish (s : Publications) (p : Providers) (publisher : FunctionId) (d : ApiDescription)
    (o : Occasion) : Outcome (PublishedApi × Publications) :=
  s.publishAs p (.generate (o.suffix 0)) publisher d o.now

/-- The API with an identifier. -/
def get (s : Publications) (id : ApiId) : Outcome PublishedApi :=
  match s.apis.get? id with
  | some a => .ok a
  | none => .error (.notFound (.api id))

/-- The API with an identifier, if it belongs to the publisher. What belongs to another one
looks like what does not exist. -/
def getFor (s : Publications) (publisher : FunctionId) (id : ApiId) : Outcome PublishedApi :=
  match s.apis.get? id with
  | some a => if a.publisher = publisher then .ok a else .error (.notFound (.api id))
  | none => .error (.notFound (.api id))

/-- Applies a patch to an API that was looked up. -/
def patch (s : Publications) (p : Providers) (held : Outcome PublishedApi) (patch : ApiPatch)
    (now : Instant) : Outcome (PublishedApi × Publications) := do
  patch.validate
  let a ← held
  a.checkRename patch
  p.requireExposers patch.exposers
  let a := a.apply patch now
  .ok (a, s.replace a)

/-- Applies a patch to any API. -/
def update (s : Publications) (p : Providers) (id : ApiId) (patch : ApiPatch) (now : Instant) :
    Outcome (PublishedApi × Publications) :=
  s.patch p (s.get id) patch now

/-- Applies a patch to an API of the publisher. -/
def updateFor (s : Publications) (p : Providers) (publisher : FunctionId) (id : ApiId)
    (patch : ApiPatch) (now : Instant) : Outcome (PublishedApi × Publications) :=
  s.patch p (s.getFor publisher id) patch now

/-- Removes an API. -/
def unpublish (s : Publications) (id : ApiId) : Outcome (PublishedApi × Publications) :=
  match s.remove id with
  | some r => .ok r
  | none => .error (.notFound (.api id))

/-- Whether an API depends on one of the functions. -/
def dependsOn (removed : List FunctionId) (a : PublishedApi) : Bool :=
  removed.contains a.publisher || a.description.exposers.any (removed.contains ·)

/-- What the removal of functions does to one API. -/
def invalidateOne (removed : List FunctionId) (now : Instant) (acc : Publications × Cascade)
    (id : ApiId) : Publications × Cascade :=
  match acc.1.remove id with
  | none => acc
  | some (a, without) =>
    if removed.contains a.publisher then
      (without, { acc.2 with removed := acc.2.removed ++ [a] })
    else
      let stripped := (a.stripExposers removed now).1
      if stripped.description.profiles.isEmpty then
        (without, { acc.2 with removed := acc.2.removed ++ [stripped] })
      else
        (acc.1.replace stripped, { acc.2 with updated := acc.2.updated ++ [stripped] })

/-- Drops or strips everything that depends on removed functions, in the order of
publication. -/
def invalidate (s : Publications) (removed : List FunctionId) (now : Instant) :
    Publications × Cascade :=
  let affected := (s.apis.values.filter (dependsOn removed)).map (·.id)
  affected.foldl (invalidateOne removed now) (s, ⟨[], []⟩)

/-- APIs that criteria select, in the order of publication. -/
def query (s : Publications) (c : Criteria) : List PublishedApi := s.apis.values.filter c.selects

/-- APIs of a publisher, in the order of publication. -/
def listFor (s : Publications) (publisher : FunctionId) : List PublishedApi :=
  s.apis.values.filter (fun a => a.publisher == publisher)

/-- Whether an identifier names a published API. -/
def contains (s : Publications) (id : ApiId) : Bool := s.apis.contains id

/-- Number of published APIs. -/
def size (s : Publications) : Nat := s.apis.size

/-- The publication by one API, if it has the name, the exposing function and the version. -/
def exposure? (exposer : FunctionId) (name version : String) (a : PublishedApi) :
    Option Exposure :=
  if a.name = name ∧ a.exposedBy exposer then
    (a.version? version).map (fun v => ⟨a.id, a.publisher, v.expiry⟩)
  else none

/-- Publications of a version on an exposing function, in the order of publication. -/
def exposures (s : Publications) (exposer : FunctionId) (name version : String) :
    List Exposure :=
  s.apis.values.filterMap (exposure? exposer name version)

/-- Security methods on offer for an API, each once, in the order of its profiles. With an
exposing function only its profile counts; an unknown API offers nothing. -/
def securityMethods (s : Publications) (id : ApiId) (exposer : Option FunctionId) :
    List SecurityMethod :=
  match s.apis.get? id with
  | none => []
  | some a =>
    let profiles := a.description.profiles.filter (fun p => exposer.all (· == p.exposer))
    (profiles.flatMap (·.securityMethods)).eraseDups

/-- Every grant for each of the listed APIs that is published. -/
def grantable (s : Publications) (ids : List ApiId) : List Grant :=
  ids.flatMap (fun id =>
    match s.apis.get? id with
    | some a => a.grantable
    | none => [])

end Publications

end ApiExposure
