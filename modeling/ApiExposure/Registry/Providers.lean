import ApiExposure.Provider
import ApiExposure.Registry.Table

/-!
# The registry of providers

Domains in the order of registration, and an index from functions to their
domain and role. A function counts as live only while the index knows it. A
patch of a domain keeps every function with its role and can only add new ones.
-/

namespace ApiExposure

/-- What an operation takes from its surroundings. -/
structure Occasion where
  /-- The time of the operation. -/
  now : Instant
  /-- Suffixes for generated identifiers, none of which was ever used. -/
  suffix : Nat → Suffix

/-- Registered domains and their functions. -/
structure Providers where
  /-- Domains in the order of registration. -/
  domains : Table DomainId ProviderDomain
  /-- Domain and role of every function. -/
  functions : Table FunctionId ResolvedFunction

namespace Providers

/-- The registry without domains. -/
def empty : Providers := ⟨.empty, .empty⟩

instance : Inhabited Providers := ⟨empty⟩

/-- Enters functions of a domain into the index. -/
def index (functions : Table FunctionId ResolvedFunction) (domain : DomainId)
    (added : List ProviderFunction) : Table FunctionId ResolvedFunction :=
  added.foldl (fun t f => t.insert f.id ⟨domain, f.role⟩) functions

/-- Functions of a registration under generated identifiers, numbered from `n`. -/
def buildFunctions (o : Occasion) : Nat → List FunctionEntry → Outcome (List ProviderFunction)
  | _, [] => .ok []
  | n, e :: es => do
    let f ← e.build (fun role => .generate role (o.suffix n))
    let fs ← buildFunctions o (n + 1) es
    .ok (f :: fs)

/-- Registers a domain under generated identifiers. -/
def register (p : Providers) (r : DomainRegistration) (o : Occasion) :
    Outcome (ProviderDomain × Providers) := do
  r.validate
  let id := DomainId.generate (o.suffix 0)
  let functions ← buildFunctions o 1 r.functions
  let domain : ProviderDomain := ⟨id, r.info, r.credential, functions, o.now, o.now⟩
  .ok (domain, ⟨p.domains.insert id domain, index p.functions id functions⟩)

/-- An entry may repeat the role of a function but not change it, and may not blank its key. -/
def checkChange (f : ProviderFunction) (e : FunctionEntry) : Outcome Unit := do
  match e.role with
  | some role => require (role == f.role) (.roleChange f.id f.role role)
  | none => .ok ()
  match e.registration with
  | some registration => registration.validate
  | none => .ok ()

/-- A function with the changes of an entry. -/
def changeFunction (f : ProviderFunction) (e : FunctionEntry) : ProviderFunction :=
  { f with
    registration := e.registration.getD f.registration
    info := e.info.or f.info }

/-- Puts a changed function in the place of the first one with its identifier. -/
def replaceFunction (f : ProviderFunction) : List ProviderFunction → List ProviderFunction
  | [] => []
  | g :: gs => if g.id = f.id then f :: gs else g :: replaceFunction f gs

/-- Works through the entries of a patch, numbered from `n`: all functions of the domain and
those among them that are new. -/
def patchFunctions (o : Occasion) (domain : DomainId) : Nat → List FunctionEntry →
    List ProviderFunction → List ProviderFunction →
    Outcome (List ProviderFunction × List ProviderFunction)
  | _, [], functions, added => .ok (functions, added)
  | n, e :: es, functions, added =>
    match e.id with
    | some id =>
      match functions.find? (fun f => f.id == id) with
      | none => .error (.notFound (.functionOf id domain))
      | some f => do
        checkChange f e
        patchFunctions o domain (n + 1) es (replaceFunction (changeFunction f e) functions) added
    | none => do
      let f ← e.build (fun role => .generate role (o.suffix n))
      patchFunctions o domain (n + 1) es (functions ++ [f]) (added ++ [f])

/-- The domain with an identifier. -/
def get (p : Providers) (id : DomainId) : Outcome ProviderDomain :=
  match p.domains.get? id with
  | some domain => .ok domain
  | none => .error (.notFound (.domain id))

/-- Applies a patch to a domain. -/
def update (p : Providers) (id : DomainId) (patch : DomainPatch) (o : Occasion) :
    Outcome (ProviderDomain × Providers) := do
  require (!patch.credential.any Text.isBlank) .blankCredential
  let domain ← p.get id
  let (functions, added) ← patchFunctions o id 0 patch.functions domain.functions []
  let domain : ProviderDomain :=
    { domain with
      info := patch.info.or domain.info
      credential := patch.credential.getD domain.credential
      functions := functions
      updatedAt := o.now }
  .ok (domain, ⟨p.domains.insert id domain, index p.functions id added⟩)

/-- Removes a domain with all its functions, whose identifiers it returns. -/
def deregister (p : Providers) (id : DomainId) : Outcome (List FunctionId × Providers) := do
  let domain ← p.get id
  let removed := domain.functionIds
  .ok (removed, ⟨p.domains.erase id, removed.foldl Table.erase p.functions⟩)

/-- Domain and role of a function. -/
def resolve (p : Providers) (id : FunctionId) : Outcome ResolvedFunction :=
  match p.functions.get? id with
  | some f => .ok f
  | none => .error (.notFound (.function id))

/-- Domains in the order of registration. -/
def list (p : Providers) : List ProviderDomain := p.domains.values

/-- The role of a live function. -/
def roleOf (p : Providers) (id : FunctionId) : Option Role :=
  (p.functions.get? id).map (·.role)

/-- Roles of all live functions. -/
def roles (p : Providers) : List (FunctionId × Role) :=
  p.functions.entries.map (fun e => (e.1, e.2.role))

/-- The function must be a live publisher. -/
def requirePublisher (p : Providers) (id : FunctionId) : Outcome Unit :=
  match p.roleOf id with
  | some .publisher => .ok ()
  | some role => .error (.invalid (.notPublisher id role))
  | none => .error (.notFound (.publisher id))

/-- Every function must be a live exposer. -/
def requireExposers (p : Providers) (ids : List FunctionId) : Outcome Unit :=
  ids.forM (fun id => require (p.roleOf id == some .exposer) (.notExposer id))

/-- A function passes as publisher when it is registered as one. -/
theorem requirePublisher_eq_ok_iff {p : Providers} {id : FunctionId} :
    p.requirePublisher id = .ok () ↔ p.roleOf id = some .publisher := by
  unfold requirePublisher
  split <;> simp_all

end Providers

end ApiExposure
