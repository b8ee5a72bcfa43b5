import ApiExposure.Http.Service
import ApiExposure.Proofs.Json.Bytes
import ApiExposure.Proofs.Json.Faithful
import ApiExposure.Proofs.System.Atomicity

/-!
# What requests order

Each endpoint stands for one command to the core. Which one, and how its result is
answered, is listed here once, with the identifiers from the path and with what the
query or the body says. Every request is then found to be answered in one of three
ways: aside, with a report about the service; by a refusal, before the core is asked;
or by performing the command that is ordered. The collaborators may reply as they
like, as long as nothing else happens to the registries meanwhile.
-/

namespace ApiExposure

namespace Flow

variable {α σ : Type}

/-- Surroundings in which nothing happens to the registries while an operation waits. -/
structure Surroundings.Undisturbed (w : Surroundings (StateM σ)) : Prop where
  /-- Not during an errand. -/
  errand : ∀ c e memory, (w.errand c e memory).1.2 = c
  /-- Not while a client is asked for. -/
  register : ∀ c id memory, (w.register c id memory).1.2 = c
  /-- Not while a change is made known. -/
  announce : ∀ c change memory, (w.announce c change memory).1 = c

/-- Undisturbed, a settled flow ends in the state that it has reached. -/
theorem Settled.perform_undisturbed {f : Flow α} {r : Outcome α} (h : f.Settled r)
    {w : Surroundings (StateM σ)} (hw : w.Undisturbed) (memory : σ) :
    (f.perform w memory).1 = (f.state, r) := by
  induction f generalizing memory with
  | done s result => exact congrArg (Prod.mk s) h
  | errand s e next ih =>
    have hstate := hw.errand s e memory
    obtain ⟨hfound, hr⟩ := h (w.errand s e memory).1.1 (w.errand s e memory).1.2
    exact (ih _ _ hr _).trans (by rw [hfound, hstate]; rfl)
  | register s id next ih =>
    have hstate := hw.register s id memory
    obtain ⟨hfound, hr⟩ := h (w.register s id memory).1.1 (w.register s id memory).1.2
    exact (ih _ _ hr _).trans (by rw [hfound, hstate]; rfl)
  | announce s change next ih =>
    have hstate := hw.announce s change memory
    obtain ⟨hfound, hr⟩ := h (w.announce s change memory).1
    exact (ih _ hr _).trans (by rw [hfound, hstate]; rfl)

end Flow

/-- Undisturbed, a command has one effect on the registries that it finds. -/
theorem Command.effect_of_undisturbed {σ : Type} {w : Flow.Surroundings (StateM σ)}
    (hw : w.Undisturbed) (command : Command) (o : Occasion) (c : Core) (memory : σ) :
    Effect o command c ((command.start o c).perform w memory).1.2
      ((command.start o c).perform w memory).1.1 := by
  have heffect : ∀ (f : Flow command.Result) (memory : σ), command.TakesEffect o c f →
      Effect o command c (f.perform w memory).1.2 (f.perform w memory).1.1 := by
    rintro f memory ⟨r, hr, he⟩
    rw [hr.perform_undisturbed hw memory]
    exact he
  rcases command.start_cases o c with h | ⟨hstate, hwaits⟩
  · exact heffect _ memory h
  · cases hf : command.start o c with
    | done s r => exact absurd rfl ((hf ▸ hwaits).unsettled r)
    | errand s e next =>
      rw [hf] at hstate hwaits
      obtain rfl : s = c := hstate
      refine heffect (next _ (w.errand s e memory).1.2) _ ?_
      rw [hw.errand s e memory]
      exact hwaits.resume (.errand _) s _ rfl
    | register s id next =>
      rw [hf] at hstate hwaits
      obtain rfl : s = c := hstate
      refine heffect (next _ (w.register s id memory).1.2) _ ?_
      rw [hw.register s id memory]
      exact hwaits.resume (.client _) s _ rfl
    | announce s change next =>
      rw [hf] at hstate hwaits
      obtain rfl : s = c := hstate
      refine heffect (next (w.announce s change memory).1) _ ?_
      rw [hw.announce s change memory]
      exact hwaits.resume .announced s _ rfl

namespace Http

/-- What is decoded from a text as a whole is read from a body that is the text. -/
theorem Request.read_of_ofText {α : Type} [JsonForm α] {r : Request} {limit : Nat} {text : String}
    {a : α} (hjson : r.declaresJson = true) (hbody : r.body = text)
    (hlimit : r.body.list.length ≤ limit) (h : Decoder.ofText JsonForm.decode text = .ok a) :
    r.read limit = .ok a := by
  obtain ⟨b, hdecode, hcomplete⟩ := Decoder.bind_eq_ok_iff.mp h
  have hread : JsonForm.decode (Json.Text.readBytes r.body).draft = .ok b := by
    rw [hbody, Json.readBytes_toBytes]
    exact hdecode
  split at hcomplete
  · cases hcomplete
    rw [Request.read, hjson, hread]
    simp only [Bool.not_true, Bool.false_eq_true, if_false, if_neg (Nat.not_lt.mpr hlimit)]
  · cases hcomplete

/-- The query of a request in the terms of a record. -/
def Request.query {α : Type} (r : Request) (record : Record α) : Except DecodeFailure α :=
  record.decode (.obj (r.queryPairs.map (fun p => (some p.1, .str p.2))) true)

/-- The command that a request orders at an endpoint, with the identifiers from its path, and the
answer to its success. A body longer than the limit is not read. -/
inductive Orders (limit : Nat) (r : Request) :
    Endpoint → List String → (command : Command) → (command.Result → Response) → Prop
  | registerProvider {g : DomainRegistration} (h : r.read limit = .ok g) :
      Orders limit r .registerProvider [] (.registerProvider g) (fun d =>
        .created ("/api-provider-management/v1/registrations/" ++ d.id.text) d.toJson)
  | readProvider (domain : String) :
      Orders limit r .readProvider [domain] (.ask (.provider ⟨domain⟩)) (fun d => .ok d.toJson)
  | updateProvider (domain : String) {p : DomainPatch} (h : r.read limit = .ok p) :
      Orders limit r .updateProvider [domain] (.updateProvider ⟨domain⟩ p) (fun d => .ok d.toJson)
  | deregisterProvider (domain : String) :
      Orders limit r .deregisterProvider [domain] (.deregisterProvider ⟨domain⟩)
        (fun _ => .noContent)
  | listApis (publisher : String) :
      Orders limit r .listApis [publisher] (.ask (.apis ⟨publisher⟩))
        (fun apis => .ok (.ofList PublishedApi.toJson apis))
  | publish (publisher : String) {d : ApiDescription} (h : r.read limit = .ok d) :
      Orders limit r .publish [publisher] (.publish ⟨publisher⟩ d) (fun a =>
        .created ("/published-apis/v1/" ++ a.publisher.text ++ "/service-apis/" ++ a.id.text)
          a.toJson)
  | readApi (publisher api : String) :
      Orders limit r .readApi [publisher, api] (.ask (.api ⟨publisher⟩ ⟨api⟩))
        (fun a => .ok a.toJson)
  | updateApi (publisher api : String) {p : ApiPatch} (h : r.read limit = .ok p) :
      Orders limit r .updateApi [publisher, api] (.updateApi ⟨publisher⟩ ⟨api⟩ p)
        (fun a => .ok a.toJson)
  | unpublish (publisher api : String) :
      Orders limit r .unpublish [publisher, api] (.unpublish ⟨publisher⟩ ⟨api⟩)
        (fun _ => .noContent)
  | onboard {e : Enrolment} (h : r.read limit = .ok e) :
      Orders limit r .onboard [] (.onboard e) (fun i =>
        .created ("/api-invoker-management/v1/onboardedInvokers/" ++ i.identity.id.text) i.toJson)
  | readInvoker (invoker : String) :
      Orders limit r .readInvoker [invoker] (.ask (.invoker ⟨invoker⟩)) (fun i => .ok i.toJson)
  | updateInvoker (invoker : String) {p : InvokerPatch} (h : r.read limit = .ok p) :
      Orders limit r .updateInvoker [invoker] (.updateInvoker ⟨invoker⟩ p)
        (fun i => .ok i.toJson)
  | offboard (invoker : String) :
      Orders limit r .offboard [invoker] (.offboard ⟨invoker⟩) (fun _ => .noContent)
  | listGrants (invoker : String) :
      Orders limit r .listGrants [invoker] (.ask (.grants ⟨invoker⟩))
        (fun gs => .ok (.ofList Grant.toJson gs))
  | addGrant (invoker : String) {g : Grant} (h : r.read limit = .ok g) :
      Orders limit r .addGrant [invoker] (.grant ⟨invoker⟩ g) (fun _ => .noContent)
  | removeGrant (invoker : String) {g : Grant} (h : r.read limit = .ok g) :
      Orders limit r .removeGrant [invoker] (.removeGrant ⟨invoker⟩ g) (fun _ => .noContent)
  | discover {q : DiscoveryQuery} {invoker : InvokerId} {criteria : Criteria}
      (h : r.query DiscoveryQuery.record = .ok q) (hq : q.request = .ok (invoker, criteria)) :
      Orders limit r .discover [] (.ask (.discovery invoker criteria)) (fun apis =>
        .ok (.ofMembers [("serviceAPIDescriptions", .ofList PublishedApi.toJson apis)]))
  | check {c : Call} (h : r.read limit = .ok c) :
      Orders limit r .check [] (.ask (.decision c)) (fun d => .ok (Visit.decisionJson d))
  | revoke {c : Call} (h : r.read limit = .ok c) :
      Orders limit r .revoke [] (.revoke c) (fun _ => .noContent)
  | readContext (invoker : String) {authentication authorization : Bool}
      (h : r.query Visit.credentialsRecord = .ok (authentication, authorization)) :
      Orders limit r .readContext [invoker]
        (.ask (.context ⟨invoker⟩ authentication authorization)) (fun c => .ok c.toJson)
  | createContext (invoker : String) {c : SecurityContext} (h : r.read limit = .ok c) :
      Orders limit r .createContext [invoker] (.createContext ⟨invoker⟩ c) (fun c =>
        .created ("/capif-security/v1/trustedInvokers/" ++ invoker) c.toJson)
  | updateContext (invoker : String) {c : SecurityContext} (h : r.read limit = .ok c) :
      Orders limit r .updateContext [invoker] (.updateContext ⟨invoker⟩ c)
        (fun c => .ok c.toJson)
  | revokeAccess (invoker : String) {scope : RevocationScope} (h : r.read limit = .ok scope) :
      Orders limit r .revokeAccess [invoker] (.revokeAccess ⟨invoker⟩ scope)
        (fun _ => .noContent)
  | subscribe (subscriber : String) {s : EventSubscription} (h : r.read limit = .ok s) :
      Orders limit r .subscribe [subscriber] (.subscribe subscriber s) (fun id =>
        .created ("/capif-events/v1/" ++ subscriber ++ "/subscriptions/" ++ id.text) s.toJson)
  | unsubscribe (subscriber id : String) :
      Orders limit r .unsubscribe [subscriber, id] (.unsubscribe subscriber ⟨id⟩)
        (fun _ => .noContent)

/-- How many identifiers the path of an endpoint has. -/
def Endpoint.arity : Endpoint → Nat
  | health | status | registerProvider | onboard | discover | check | revoke => 0
  | readApi | updateApi | unpublish | unsubscribe => 2
  | _ => 1

/-- A problem is a client or a server error. -/
theorem Problem.le_status (p : Problem) : 400 ≤ p.status := by
  cases p <;> simp [status]

namespace Visit

variable {σ : Type}

/-- A visit is answered by a refusal, or by performing the command that it orders. -/
inductive Answers (v : Visit σ) (e : Endpoint) : Response × Host σ → Prop
  /-- The core is not asked. -/
  | refused {response : Response} (h : 400 ≤ response.status) : Answers v e (response, v.service)
  /-- The command succeeds. -/
  | done {command : Command} {form : command.Result → Response} {core : Core} {a : command.Result}
      {memory : σ} (ho : Orders v.service.settings.maxBody v.request e v.parameters command form)
      (h : (command.start v.occasion v.service.core).perform v.surroundings v.service.memory =
        ((core, .ok a), memory)) :
      Answers v e (form a, { v.service with core, memory })
  /-- The command fails. -/
  | failed {command : Command} {form : command.Result → Response} {core : Core} {f : Failure}
      {memory : σ} (p : Problem)
      (ho : Orders v.service.settings.maxBody v.request e v.parameters command form)
      (h : (command.start v.occasion v.service.core).perform v.surroundings v.service.memory =
        ((core, .error f), memory)) :
      Answers v e (.ofProblem p, { v.service with core, memory })

variable {v : Visit σ} {e : Endpoint}

/-- An operation without collaborators that succeeds leaves its state. -/
theorem update_ok {α : Type} {v : Visit σ} {a : α} {core : Core} {form : α → Response} :
    v.update (.ok (a, core)) form = (form a, { v.service with core }) := rfl

/-- A problem is an answer at every endpoint. -/
theorem answers_problem (p : Problem) : v.Answers e (v.answer (.ofProblem p)) :=
  .refused p.le_status

/-- A command that is performed for an endpoint is answered by the form of its result. -/
theorem answers_perform {parameters : List String} {command : Command}
    {form : command.Result → Response} (hp : v.parameters = parameters)
    (ho : Orders v.service.settings.maxBody v.request e parameters command form) :
    v.Answers e (v.perform (command.start v.occasion v.service.core) form) := by
  subst hp
  cases h : (command.start v.occasion v.service.core).perform v.surroundings v.service.memory with
  | mk ended memory =>
    obtain ⟨core, outcome⟩ := ended
    have hperform : v.perform (command.start v.occasion v.service.core) form =
        tell { v with service := { v.service with core, memory } } outcome form := by
      rw [perform, StateT.run, h]
    rw [hperform]
    cases outcome with
    | ok a => exact .done ho h
    | error f => exact .failed _ ho h

/-- What is found without a change is the answer to a question. -/
theorem answers_tell {parameters : List String} {q : Query} {form : q.Answer → Response}
    (hp : v.parameters = parameters)
    (ho : Orders v.service.settings.maxBody v.request e parameters (.ask q) form) :
    v.Answers e (v.tell (q.answer v.service.core v.occasion.now) form) := by
  have htell : v.tell (q.answer v.service.core v.occasion.now) form =
      v.perform ((Command.ask q).start v.occasion v.service.core) form := rfl
  rw [htell]
  exact answers_perform hp ho

/-- An endpoint with a body answers for every value that the body may have; otherwise the problem is
the answer. -/
theorem answers_withBody {α : Type} [JsonForm α] {next : α → Response × Host σ}
    (h : ∀ a, v.request.read v.service.settings.maxBody = .ok a → v.Answers e (next a)) :
    v.Answers e (v.withBody next) := by
  rw [withBody]
  cases hr : v.request.read (α := α) v.service.settings.maxBody with
  | ok a => exact h a hr
  | error p => exact answers_problem p

/-- An endpoint with a query answers for every value that the query may have; otherwise the faulty
query is the answer. -/
theorem answers_withQuery {α : Type} {record : Record α} {next : α → Response × Host σ}
    (h : ∀ a, v.request.query record = .ok a → v.Answers e (next a)) :
    v.Answers e (v.withQuery record next) := by
  rw [withQuery]
  cases hr : v.request.query record with
  | ok a =>
    rw [Request.query] at hr
    rw [hr]
    exact h a hr
  | error f =>
    rw [Request.query] at hr
    rw [hr]
    exact .refused (by decide)

/-- Discovery answers, its query read piece by piece. -/
theorem answers_discover (hp : v.parameters = []) : v.Answers .discover v.discover := by
  refine answers_withQuery fun q h => ?_
  cases hq : q.request with
  | error cause => exact answers_problem _
  | ok asked =>
    obtain ⟨invoker, criteria⟩ := asked
    have ho : Orders v.service.settings.maxBody v.request .discover [] _ _ := .discover h hq
    have htell := answers_tell (v := v) hp ho
    dsimp only
    split
    · next hfound =>
      rw [← hp] at ho
      refine .failed _ ho (f := .denied .unknownInvoker) ?_
      rw [← hfound]
      rfl
    · exact htell

/-- A context is read with its marks, which the query may leave out. -/
theorem answers_readContext (hp : v.parameters = [v.parameter 0]) :
    v.Answers .readContext (v.handle .readContext) := by
  have hhandle : v.handle .readContext = v.withQuery credentialsRecord (fun asked =>
      v.tell (v.service.core.trusted.get ⟨v.parameter 0⟩ asked.1 asked.2)
        (fun c => .ok c.toJson)) := rfl
  rw [hhandle]
  refine answers_withQuery fun asked h => ?_
  obtain ⟨authentication, authorization⟩ := asked
  exact answers_tell hp (.readContext _ h)

/-- A visit of an endpoint that is not about the service itself is answered by a refusal, or by
performing the command that it orders. -/
theorem answers_handle (v : Visit σ) (e : Endpoint) (harity : v.parameters.length = e.arity)
    (hhealth : e ≠ .health) (hstatus : e ≠ .status) : v.Answers e (v.handle e) := by
  have hnone : e.arity = 0 → v.parameters = [] :=
    fun h => List.eq_nil_of_length_eq_zero (harity.trans h)
  have hone : e.arity = 1 → v.parameters = [v.parameter 0] := by
    intro h
    obtain ⟨x, hx⟩ := List.length_eq_one_iff.mp (harity.trans h)
    rw [parameter, hx]
    rfl
  have htwo : e.arity = 2 → v.parameters = [v.parameter 0, v.parameter 1] := by
    intro h
    obtain ⟨x, y, hxy⟩ := List.length_eq_two.mp (harity.trans h)
    rw [parameter, parameter, hxy]
    rfl
  cases e with
  | health => exact absurd rfl hhealth
  | status => exact absurd rfl hstatus
  | registerProvider =>
    exact answers_withBody fun _ h => answers_perform (hnone rfl) (.registerProvider h)
  | readProvider => exact answers_tell (hone rfl) (.readProvider _)
  | updateProvider =>
    exact answers_withBody fun _ h => answers_perform (hone rfl) (.updateProvider _ h)
  | deregisterProvider => exact answers_perform (hone rfl) (.deregisterProvider _)
  | listApis => exact answers_tell (hone rfl) (.listApis _)
  | publish => exact answers_withBody fun _ h => answers_perform (hone rfl) (.publish _ h)
  | readApi => exact answers_tell (htwo rfl) (.readApi _ _)
  | updateApi => exact answers_withBody fun _ h => answers_perform (htwo rfl) (.updateApi _ _ h)
  | unpublish => exact answers_perform (htwo rfl) (.unpublish _ _)
  | onboard => exact answers_withBody fun _ h => answers_perform (hnone rfl) (.onboard h)
  | readInvoker => exact answers_tell (hone rfl) (.readInvoker _)
  | updateInvoker =>
    exact answers_withBody fun _ h => answers_perform (hone rfl) (.updateInvoker _ h)
  | offboard => exact answers_perform (hone rfl) (.offboard _)
  | listGrants => exact answers_tell (hone rfl) (.listGrants _)
  | addGrant => exact answers_withBody fun _ h => answers_perform (hone rfl) (.addGrant _ h)
  | removeGrant => exact answers_withBody fun _ h => answers_perform (hone rfl) (.removeGrant _ h)
  | discover => exact answers_discover (hnone rfl)
  | check => exact answers_withBody fun _ h => answers_tell (hnone rfl) (.check h)
  | revoke => exact answers_withBody fun _ h => answers_perform (hnone rfl) (.revoke h)
  | readContext => exact answers_readContext (hone rfl)
  | createContext =>
    exact answers_withBody fun _ h => answers_perform (hone rfl) (.createContext _ h)
  | updateContext =>
    exact answers_withBody fun _ h => answers_perform (hone rfl) (.updateContext _ h)
  | revokeAccess =>
    exact answers_withBody fun _ h => answers_perform (hone rfl) (.revokeAccess _ h)
  | subscribe => exact answers_withBody fun _ h => answers_perform (hone rfl) (.subscribe _ h)
  | unsubscribe => exact answers_perform (htwo rfl) (.unsubscribe _ _)

end Visit

/-- A request calls an endpoint with the identifiers from its path, their escapes decoded. -/
def Request.Calls (r : Request) (e : Endpoint) (ids : List String) : Prop :=
  ∃ route raw, Route.find? r.segments = some (route, raw) ∧
    route.endpoint? r.method = some e ∧ decodeParameters raw = .ok ids

namespace Route

/-- Whether a segment of a path is taken as a parameter. -/
def isParameter : Segment → Bool
  | .fixed _ => false
  | .parameter _ => true

/-- A route has a value for each of its parameters. -/
theorem length_parameters? {path : List Segment} {segments : List String}
    {raw : List (String × String)} (h : parameters? path segments = some raw) :
    raw.length = path.countP isParameter := by
  induction path generalizing segments raw with
  | nil =>
    cases segments with
    | nil =>
      cases h
      rfl
    | cons _ _ => cases h
  | cons part path ih =>
    cases segments with
    | nil => cases part <;> cases h
    | cons s ss =>
      cases part with
      | fixed text =>
        rw [parameters?] at h
        split at h
        · exact ih h
        · cases h
      | parameter name =>
        rw [parameters?] at h
        split at h
        · cases h
        · obtain ⟨rest, hrest, rfl⟩ := Option.map_eq_some_iff.mp h
          rw [List.length_cons, ih hrest, List.countP_cons_of_pos rfl]

/-- A route that is found is one of the routes, and it takes the path. -/
theorem of_find?_eq_some {segments : List String} {route : Route}
    {raw : List (String × String)} (h : find? segments = some (route, raw)) :
    route ∈ all ∧ parameters? route.path segments = some raw := by
  obtain ⟨found, hmem, hfound⟩ := List.exists_of_findSome?_eq_some h
  obtain ⟨_, hraw, heq⟩ := Option.map_eq_some_iff.mp hfound
  cases heq
  exact ⟨hmem, hraw⟩

/-- An endpoint of a route is offered there under some method. -/
theorem exists_of_endpoint? {route : Route} {method : String} {e : Endpoint}
    (h : route.endpoint? method = some e) : ∃ name, (name, e) ∈ route.methods := by
  have hlookup : ∀ name, route.methods.lookup name = some e → (name, e) ∈ route.methods := by
    intro name hname
    obtain ⟨l, l', hl, _⟩ := List.lookup_eq_some_iff.mp hname
    rw [hl]
    exact List.mem_append_right _ List.mem_cons_self
  rw [endpoint?, Option.or_eq_some_iff] at h
  rcases h with h | ⟨_, h⟩
  · exact ⟨method, hlookup _ h⟩
  · split at h
    · exact ⟨"GET", hlookup _ h⟩
    · cases h

/-- The routes have as many parameters as their endpoints need. -/
theorem countP_isParameter_of_mem :
    ∀ route ∈ all, ∀ m ∈ route.methods, route.path.countP isParameter = m.2.arity := by
  decide

end Route

/-- Decoding parameters loses none. -/
theorem length_decodeParameters {raw : List (String × String)} {ids : List String}
    (h : decodeParameters raw = .ok ids) : ids.length = raw.length := by
  induction raw generalizing ids with
  | nil =>
    cases h
    rfl
  | cons parameter raw ih =>
    rw [decodeParameters] at h
    split at h
    · cases h
    · cases hrest : decodeParameters raw with
      | error name =>
        rw [hrest] at h
        cases h
      | ok rest =>
        rw [hrest] at h
        cases h
        rw [List.length_cons, List.length_cons, ih hrest]

/-- A request calls an endpoint with as many identifiers as that needs. -/
theorem Request.Calls.length_eq {r : Request} {e : Endpoint} {ids : List String}
    (h : r.Calls e ids) : ids.length = e.arity := by
  obtain ⟨route, raw, hfind, hendpoint, hdecode⟩ := h
  obtain ⟨hroute, hraw⟩ := Route.of_find?_eq_some hfind
  obtain ⟨name, hmem⟩ := Route.exists_of_endpoint? hendpoint
  rw [length_decodeParameters hdecode, Route.length_parameters? hraw]
  exact Route.countP_isParameter_of_mem route hroute _ hmem

namespace Host

variable {σ : Type}

/-- A response as it is sent. -/
def deliver (s : Host σ) (r : Request) (response : Response) : Response :=
  { response with
    anyOrigin := s.settings.allowOrigins
    body := if r.method = "HEAD" then .empty else response.body }

/-- Delivering a response does not change its status. -/
theorem status_deliver (s : Host σ) (r : Request) (response : Response) :
    (s.deliver r response).status = response.status := rfl

/-- A request that asks about the service itself: what it allows, or how it is. -/
def IsAside (s : Host σ) (r : Request) : Prop :=
  s.settings.allowOrigins = true ∧ r.method = "OPTIONS" ∨ r.Calls .health [] ∨ r.Calls .status []

/-- How a request is answered. -/
inductive Served (s : Host σ) (r : Request) (o : Occasion) (w : Flow.Surroundings (StateM σ)) :
    Response × Host σ → Prop
  /-- The service speaks of itself. -/
  | aside {response : Response} (h : s.IsAside r) (hok : response.status = 200) :
      Served s r o w (response, s)
  /-- The core is not asked. -/
  | refused {response : Response} (h : 400 ≤ response.status) : Served s r o w (response, s)
  /-- The command that is ordered succeeds. -/
  | done {e : Endpoint} {ids : List String} {command : Command}
      {form : command.Result → Response} {core : Core} {a : command.Result} {memory : σ}
      (hcalls : r.Calls e ids) (ho : Orders s.settings.maxBody r e ids command form)
      (h : (command.start o s.core).perform w s.memory = ((core, .ok a), memory)) :
      Served s r o w (s.deliver r (form a), { s with core, memory })
  /-- The command that is ordered fails. -/
  | failed {e : Endpoint} {ids : List String} {command : Command}
      {form : command.Result → Response} {core : Core} {f : Failure} {memory : σ} (p : Problem)
      (hcalls : r.Calls e ids) (ho : Orders s.settings.maxBody r e ids command form)
      (h : (command.start o s.core).perform w s.memory = ((core, .error f), memory)) :
      Served s r o w (s.deliver r (.ofProblem p), { s with core, memory })

variable {s : Host σ} {r : Request} {o : Occasion} {w : Flow.Surroundings (StateM σ)}

/-- Unless it is about options that pages of any origin may ask for, the answer comes from the
route. -/
theorem serveIn_eq_deliver (h : ¬ (s.settings.allowOrigins = true ∧ r.method = "OPTIONS")) :
    s.serveIn r o w = (s.deliver r (s.dispatch r o w).1, (s.dispatch r o w).2) := by
  rw [serveIn, if_neg (by simpa using h)]
  generalize s.dispatch r o w = answer
  rfl

/-- Every request is answered aside, by a refusal, or by performing the command that it orders. -/
theorem served (s : Host σ) (r : Request) (o : Occasion) (w : Flow.Surroundings (StateM σ)) :
    s.Served r o w (s.serveIn r o w) := by
  by_cases hoptions : s.settings.allowOrigins = true ∧ r.method = "OPTIONS"
  · have hserve : s.serveIn r o w = ({ options r with anyOrigin := true }, s) := by
      rw [serveIn, if_pos (by simpa using hoptions)]
    rw [hserve]
    refine .aside (.inl hoptions) ?_
    rw [options]
    split <;> rfl
  · rw [serveIn_eq_deliver hoptions, dispatch]
    cases hfind : Route.find? r.segments with
    | none => exact .refused (show 400 ≤ 404 by decide)
    | some found =>
      obtain ⟨route, raw⟩ := found
      dsimp only
      cases hendpoint : route.endpoint? r.method with
      | none => exact .refused (show 400 ≤ 405 by decide)
      | some e =>
        dsimp only
        cases hdecode : decodeParameters raw with
        | error name => exact .refused (show 400 ≤ 400 by decide)
        | ok ids =>
          have hcalls : r.Calls e ids := ⟨route, raw, hfind, hendpoint, hdecode⟩
          dsimp only
          by_cases hhealth : e = .health
          · subst hhealth
            obtain rfl := List.eq_nil_of_length_eq_zero hcalls.length_eq
            exact .aside (.inr (.inl hcalls)) rfl
          · by_cases hstatus : e = .status
            · subst hstatus
              obtain rfl := List.eq_nil_of_length_eq_zero hcalls.length_eq
              exact .aside (.inr (.inr hcalls)) rfl
            · have hanswers := Visit.answers_handle ⟨s, r, ids, o, w⟩ e hcalls.length_eq hhealth
                hstatus
              generalize Visit.handle ⟨s, r, ids, o, w⟩ e = answer at hanswers
              cases hanswers with
              | refused h => exact .refused h
              | done ho h => exact .done hcalls ho h
              | failed p ho h => exact .failed p hcalls ho h

/-- An answer that is neither a report nor an error is that to a command which has succeeded. -/
theorem performed_of_status (hreport : (s.serveIn r o w).1.status ≠ 200)
    (herror : (s.serveIn r o w).1.status < 400) :
    ∃ (e : Endpoint) (ids : List String) (command : Command) (form : command.Result → Response)
      (core : Core) (a : command.Result) (memory : σ),
      r.Calls e ids ∧ Orders s.settings.maxBody r e ids command form ∧
        (command.start o s.core).perform w s.memory = ((core, .ok a), memory) ∧
          s.serveIn r o w = (s.deliver r (form a), { s with core, memory }) := by
  have hserved := s.served r o w
  generalize s.serveIn r o w = answer at hserved hreport herror ⊢
  cases hserved with
  | aside _ hok => exact absurd hok hreport
  | refused h => exact absurd h (Nat.not_le.mpr herror)
  | failed p _ _ _ => exact absurd p.le_status (Nat.not_le.mpr herror)
  | done hcalls ho h => exact ⟨_, _, _, _, _, _, _, hcalls, ho, h, rfl⟩

end Host

end Http

end ApiExposure
