import ApiExposure.Proofs.Http.Refusals
import ApiExposure.Proofs.Text.Paths

/-!
# Paths of what can be created

What a request can create has a location, which is a path with names in it. Where the
names stand for themselves in a path, the request for the location has exactly these
names, and is answered at the endpoint that shows what is there, or ends it. A path is
taken apart into its query, its segments and its parameters; here it is put together
and followed through all three.
-/

namespace ApiExposure

/-- A plain text stands for itself in a path. -/
theorem Text.isVerbatim_of_isPlain {text : String} (h : isPlain text = true) :
    isVerbatim text = true := by
  rw [isPlain, Bool.and_eq_true, List.all_eq_true] at h
  have hother : ∀ c : Char, (∀ d, isPlainChar d = true → d ≠ c) → c ∉ text.toList :=
    fun c hc hmem => hc c (h.2 c hmem) rfl
  have hescape : ∀ cs : List Char, (∀ c ∈ cs, isPlainChar c = true) → hasEscape cs = false := by
    intro cs hcs
    induction cs with
    | nil => rfl
    | cons c cs ih =>
      rw [List.forall_mem_cons] at hcs
      rw [hasEscape, ih hcs.2, Bool.or_false]
      refine startsEscape_eq_false_of_short fun _ _ _ hc _ => ?_
      exact (of_isPlainChar hcs.1).2.2.2.2.2 hc
  exact isVerbatim_iff.mpr ⟨⟨hother _ fun d hd => (of_isPlainChar hd).2.2.1,
    hother _ fun d hd => (of_isPlainChar hd).2.2.2.1,
    hother _ fun d hd => (of_isPlainChar hd).2.2.2.2.1⟩, hescape _ h.2⟩

/-- A plain text is not empty. -/
theorem Text.ne_empty_of_isPlain {text : String} (h : isPlain text = true) : text ≠ "" := by
  rintro rfl
  cases h

namespace Core

variable {c : Core} {subscriber : String} {id : SubscriptionId}

/-- A subscription ends when its own subscriber asks for that. -/
theorem unsubscribe_of_held
    (h : (c.subscriptions.table.get? id).any (fun e => e.subscriber == subscriber) = true) :
    c.unsubscribe subscriber id = .ok ((), { c with subscriptions :=
      { c.subscriptions with table := c.subscriptions.table.erase id } }) := by
  rw [unsubscribe, Subscriptions.unsubscribe, if_pos h]
  rfl

/-- No other is found. -/
theorem unsubscribe_of_not_held
    (h : ¬ (c.subscriptions.table.get? id).any (fun e => e.subscriber == subscriber) = true) :
    c.unsubscribe subscriber id = .error (.notFound (.subscription id subscriber)) := by
  rw [unsubscribe, Subscriptions.unsubscribe, if_neg h]
  rfl

end Core

namespace Http

/-- The path of given segments. -/
def pathOf (segments : List String) : String :=
  String.ofList (segments.flatMap (fun s => '/' :: s.toList))

/-- A path has a slash before every segment. -/
theorem toList_pathOf (segments : List String) :
    (pathOf segments).toList = segments.flatMap (fun s => '/' :: s.toList) :=
  String.toList_ofList

/-- Paths are put together segment by segment. -/
theorem pathOf_append (before after : List String) :
    pathOf (before ++ after) = pathOf before ++ pathOf after := by
  rw [← String.toList_inj, String.toList_append, toList_pathOf, toList_pathOf, toList_pathOf,
    List.flatMap_append]

/-- The last segment stands behind a slash. -/
theorem pathOf_concat (before : List String) (s : String) :
    pathOf (before ++ [s]) = pathOf before ++ "/" ++ s := by
  have hlast : (pathOf [s]).toList = ("/" ++ s).toList := by
    rw [toList_pathOf, List.flatMap_singleton, String.toList_append]
    rfl
  rw [pathOf_append, String.toList_inj.mp hlast, String.append_assoc]

/-- A path is cut back into the segments that it was put together from. What stands before the first
slash is empty. -/
theorem splitAtEach_pathOf {segments : List String} (h : ∀ s ∈ segments, '/' ∉ s.toList) :
    Text.splitAtEach '/' (pathOf segments).toList = [] :: segments.map String.toList := by
  rw [toList_pathOf]
  have hbehind : ∀ (segments : List String) (part : List Char), '/' ∉ part →
      (∀ s ∈ segments, '/' ∉ s.toList) →
      Text.splitAtEach '/' (part ++ segments.flatMap (fun s => '/' :: s.toList)) =
        part :: segments.map String.toList := by
    intro segments
    induction segments with
    | nil =>
      intro part hpart _
      rw [List.flatMap_nil, List.append_nil, Text.splitAtEach_of_not_mem hpart]
      rfl
    | cons s segments ih =>
      intro part hpart hall
      rw [List.forall_mem_cons] at hall
      rw [List.flatMap_cons, List.cons_append, Text.splitAtEach_append hpart, ih _ hall.1 hall.2]
      rfl
  exact hbehind segments [] List.not_mem_nil h

/-- A request for the path of segments that are verbatim has that path and no query. -/
theorem Request.pathAndQuery_of_pathOf {r : Request} {first : String} {rest : List String}
    (htarget : r.target = pathOf (first :: rest))
    (h : ∀ s ∈ first :: rest, Text.isVerbatim s = true) :
    r.pathAndQuery = ((pathOf (first :: rest)).toList, []) := by
  have habsent : ∀ c : Char, c ≠ '/' → (∀ s ∈ first :: rest, c ∉ s.toList) →
      c ∉ (pathOf (first :: rest)).toList := by
    intro c hc hall hmem
    rw [toList_pathOf, List.mem_flatMap] at hmem
    obtain ⟨s, hs, hmem⟩ := hmem
    rcases List.mem_cons.mp hmem with heq | hmem
    · exact hc heq
    · exact hall s hs hmem
  have hfragment := habsent '#' (by decide) fun s hs => (Text.isVerbatim_iff.mp (h s hs)).1.2.2
  have hquery := habsent '?' (by decide) fun s hs => (Text.isVerbatim_iff.mp (h s hs)).1.2.1
  have hfrom : Request.fromPath (pathOf (first :: rest)).toList =
      (pathOf (first :: rest)).toList := by
    rw [toList_pathOf, List.flatMap_cons, List.cons_append, Request.fromPath_slash]
  rw [Request.pathAndQuery, htarget, hfrom, Text.splitAtFirst_of_not_mem hfragment]
  dsimp only
  rw [Text.splitAtFirst_of_not_mem hquery]
  rfl

/-- So it has these segments. -/
theorem Request.segments_of_pathOf {r : Request} {first : String} {rest : List String}
    (htarget : r.target = pathOf (first :: rest))
    (h : ∀ s ∈ first :: rest, Text.isVerbatim s = true) : r.segments = first :: rest := by
  rw [Request.segments, Request.pathAndQuery_of_pathOf htarget h,
    splitAtEach_pathOf fun s hs => (Text.isVerbatim_iff.mp (h s hs)).1.1]
  simp [Function.comp_def]

/-- What can be created. -/
inductive Entity where
  /-- A domain of a provider. -/
  | domain (id : DomainId)
  /-- An API of a publisher. -/
  | api (publisher : FunctionId) (id : ApiId)
  /-- An invoker. -/
  | invoker (id : InvokerId)
  /-- The security context of an invoker. -/
  | context (id : InvokerId)
  /-- A subscription of a subscriber. -/
  | subscription (subscriber : String) (id : SubscriptionId)
  deriving DecidableEq, Repr

namespace Entity

/-- The names of a resource in its path. -/
def names : Entity → List String
  | domain id => [id.text]
  | api publisher id => [publisher.text, id.text]
  | invoker id => [id.text]
  | context id => [id.text]
  | subscription subscriber id => [subscriber, id.text]

/-- Its place in a path. -/
def segments : Entity → List String
  | domain id => ["api-provider-management", "v1", "registrations", id.text]
  | api publisher id => ["published-apis", "v1", publisher.text, "service-apis", id.text]
  | invoker id => ["api-invoker-management", "v1", "onboardedInvokers", id.text]
  | context id => ["capif-security", "v1", "trustedInvokers", id.text]
  | subscription subscriber id => ["capif-events", "v1", subscriber, "subscriptions", id.text]

/-- Its location as it is told. -/
def location : Entity → String
  | domain id => "/api-provider-management/v1/registrations/" ++ id.text
  | api publisher id => "/published-apis/v1/" ++ publisher.text ++ "/service-apis/" ++ id.text
  | invoker id => "/api-invoker-management/v1/onboardedInvokers/" ++ id.text
  | context id => "/capif-security/v1/trustedInvokers/" ++ id.text
  | subscription subscriber id =>
    "/capif-events/v1/" ++ subscriber ++ "/subscriptions/" ++ id.text

/-- The location is the path of its place. -/
theorem location_eq_pathOf (x : Entity) : x.location = pathOf x.segments := by
  have hone : ∀ (lead : String) (before : List String) (s : String), lead = pathOf before ++ "/" →
      lead ++ s = pathOf (before ++ [s]) := by
    intro lead before s h
    rw [pathOf_concat, h]
  have htwo : ∀ (lead mid : String) (before : List String) (s word t : String),
      lead = pathOf before ++ "/" → mid = "/" ++ word ++ "/" →
        lead ++ s ++ mid ++ t = pathOf (before ++ [s] ++ [word] ++ [t]) := by
    intro lead mid before s word t h hmid
    rw [pathOf_concat, pathOf_concat, pathOf_concat, h, hmid]
    simp only [String.append_assoc]
  cases x with
  | domain id => exact hone _ ["api-provider-management", "v1", "registrations"] _ (by decide)
  | api publisher id =>
    exact htwo _ _ ["published-apis", "v1"] _ "service-apis" _ (by decide) (by decide)
  | invoker id =>
    exact hone _ ["api-invoker-management", "v1", "onboardedInvokers"] _ (by decide)
  | context id => exact hone _ ["capif-security", "v1", "trustedInvokers"] _ (by decide)
  | subscription subscriber id =>
    exact htwo _ _ ["capif-events", "v1"] _ "subscriptions" _ (by decide) (by decide)

/-- Whether its names stand for themselves in a path. -/
def isVerbatim (x : Entity) : Bool := x.names.all Text.isVerbatim

/-- What is known of it in a state: nothing when it is not there. Of a context, the credentials
are left out. -/
def view (c : Core) : Entity → Option Json
  | domain id => (c.providers.get id).toOption.map ProviderDomain.toJson
  | api publisher id => (c.store.getFor publisher id).toOption.map PublishedApi.toJson
  | invoker id => (c.invokers.get id).toOption.map InvokerIdentity.toJson
  | context id => (c.trusted.get id false false).toOption.map SecurityContext.toJson
  | subscription subscriber id =>
    ((c.subscriptions.table.get? id).filter (·.subscriber == subscriber)).map
      (·.subscription.toJson)

/-- The request for its location: to see it, or to end it where it is a subscription. -/
def request (x : Entity) : Request :=
  match x with
  | subscription _ _ => { method := "DELETE", target := x.location }
  | _ => { method := "GET", target := x.location }

/-- The answer that the request for its location should have, and what it should leave: it is shown
and nothing changes, or the subscription ends and nothing else does. -/
def outcome {σ : Type} (x : Entity) (t : Host σ) (json : Json) : Response × Host σ :=
  match x with
  | subscription _ id => (.noContent, { t with core := { t.core with subscriptions :=
      { t.core.subscriptions with table := t.core.subscriptions.table.erase id } } })
  | _ => (.ok json, t)

/-- The request for its location reaches it. -/
def ReachedIn {σ : Type} (x : Entity) (t : Host σ) (o : Occasion)
    (w : Flow.Surroundings (StateM σ)) (json : Json) : Prop :=
  t.serveIn x.request o w =
    (t.deliver x.request (x.outcome t json).1, (x.outcome t json).2)

/-- The resource that a command creates by its success, with the view of it. -/
inductive MadeBy : (command : Command) → command.Result → Entity → Json → Prop
  | registerProvider (r : DomainRegistration) (d : ProviderDomain) :
      MadeBy (.registerProvider r) d (.domain d.id) d.toJson
  | publish (publisher : FunctionId) (d : ApiDescription) (a : PublishedApi) :
      MadeBy (.publish publisher d) a (.api a.publisher a.id) a.toJson
  | onboard (e : Enrolment) (i : OnboardedInvoker) :
      MadeBy (.onboard e) i (.invoker i.identity.id) i.identity.toJson
  | createContext (id : InvokerId) (context stored : SecurityContext) :
      MadeBy (.createContext id context) stored (.context id)
        (stored.redacted false false).toJson
  | subscribe (subscriber : String) (s : EventSubscription) (id : SubscriptionId) :
      MadeBy (.subscribe subscriber s) id (.subscription subscriber id) s.toJson

end Entity

/-- Parameters that stand for themselves are decoded to themselves. -/
theorem decodeParameters_of_isVerbatim {raw : List (String × String)}
    (h : ∀ p ∈ raw, Text.isVerbatim p.2 = true) :
    decodeParameters raw = .ok (raw.map (·.2)) := by
  induction raw with
  | nil => rfl
  | cons p raw ih =>
    rw [List.forall_mem_cons] at h
    obtain ⟨name, text⟩ := p
    rw [decodeParameters, Text.decode_of_isVerbatim h.1]
    dsimp only
    rw [ih h.2]
    rfl

namespace Entity

/-- Where the request for a location is answered. -/
def endpoint : Entity → Endpoint
  | domain _ => .readProvider
  | api _ _ => .readApi
  | invoker _ => .readInvoker
  | context _ => .readContext
  | subscription _ _ => .unsubscribe

/-- The route of a location takes its names as they are written. -/
theorem find?_segments {x : Entity} (h : ∀ name ∈ x.names, name ≠ "") :
    ∃ route raw, Route.find? x.segments = some (route, raw) ∧
      route.endpoint? x.request.method = some x.endpoint ∧ raw.map (·.2) = x.names := by
  cases x with
  | domain id =>
    have hid : id.text ≠ "" := h _ (by simp [names])
    refine ⟨Route.all[3], [("domain_id", id.text)], ?_, rfl, rfl⟩
    simp [Route.find?, Route.all, Route.under, Route.parameters?, segments, hid]
  | api publisher id =>
    have hid : id.text ≠ "" := h _ (by simp [names])
    refine ⟨Route.all[5], [("apf_id", publisher.text), ("api_id", id.text)], ?_, rfl, rfl⟩
    simp [Route.find?, Route.all, Route.under, Route.parameters?, segments, hid]
  | invoker id =>
    have hid : id.text ≠ "" := h _ (by simp [names])
    refine ⟨Route.all[7], [("onboarding_id", id.text)], ?_, rfl, rfl⟩
    simp [Route.find?, Route.all, Route.under, Route.parameters?, segments, hid]
  | context id =>
    have hid : id.text ≠ "" := h _ (by simp [names])
    refine ⟨Route.all[12], [("api_invoker_id", id.text)], ?_, rfl, rfl⟩
    simp [Route.find?, Route.all, Route.under, Route.parameters?, segments, hid]
  | subscription subscriber id =>
    have hid : id.text ≠ "" := h _ (by simp [names])
    refine ⟨Route.all[16], [("subscriber_id", subscriber), ("subscription_id", id.text)], ?_,
      rfl, rfl⟩
    simp [Route.find?, Route.all, Route.under, Route.parameters?, segments, hid]

/-- The request for a location has the location as its target. -/
theorem target_request (x : Entity) : x.request.target = x.location := by
  cases x <;> rfl

/-- When the names of a thing stand for themselves, so do all segments of its location. -/
theorem isVerbatim_of_mem_segments {x : Entity} (h : x.isVerbatim = true) :
    ∀ s ∈ x.segments, Text.isVerbatim s = true := by
  have hfixed : ∀ s ∈ ["api-provider-management", "v1", "registrations", "published-apis",
      "service-apis", "api-invoker-management", "onboardedInvokers", "capif-security",
      "trustedInvokers", "capif-events", "subscriptions"], Text.isVerbatim s = true := by decide
  simp only [List.forall_mem_cons] at hfixed
  cases x <;>
  · simp only [isVerbatim, names, List.all_cons, List.all_nil, Bool.and_true,
      Bool.and_eq_true] at h
    simp [segments, hfixed, h]

/-- The location of such a thing is a path without a query. -/
theorem pathAndQuery_request {x : Entity} (h : x.isVerbatim = true) :
    x.request.pathAndQuery = (x.location.toList, []) := by
  have htarget := x.target_request.trans x.location_eq_pathOf
  have hall := isVerbatim_of_mem_segments h
  rw [x.location_eq_pathOf]
  cases x <;> exact Request.pathAndQuery_of_pathOf htarget hall

/-- The request for a location with names that stand for themselves calls the endpoint for these
names. -/
theorem calls_request {x : Entity} (hverbatim : x.isVerbatim = true)
    (hnamed : ∀ name ∈ x.names, name ≠ "") : x.request.Calls x.endpoint x.names := by
  have hsegments : x.request.segments = x.segments := by
    have htarget := x.target_request.trans x.location_eq_pathOf
    have hall := isVerbatim_of_mem_segments hverbatim
    cases x <;> exact Request.segments_of_pathOf htarget hall
  obtain ⟨route, raw, hfind, hendpoint, hraw⟩ := find?_segments hnamed
  refine ⟨route, raw, hsegments ▸ hfind, hendpoint, ?_⟩
  rw [decodeParameters_of_isVerbatim, hraw]
  exact fun p hp => List.all_eq_true.mp hverbatim _ (hraw ▸ List.mem_map_of_mem hp)

/-- What is there is told. -/
theorem tell_of_shown {σ α : Type} {v : Visit σ} {found : Outcome α} {form : α → Json}
    {json : Json} (h : found.toOption.map form = some json) :
    v.tell found (fun a => .ok (form a)) = (.ok json, v.service) := by
  cases found with
  | error f => cases h
  | ok a =>
    cases h
    rfl

/-- Where subscriptions end, the registry is asked to end one. -/
theorem handle_unsubscribe {σ : Type} {t : Host σ} {r : Request} {subscriber id : String}
    {o : Occasion} {w : Flow.Surroundings (StateM σ)} :
    Visit.handle ⟨t, r, [subscriber, id], o, w⟩ .unsubscribe =
      Visit.update ⟨t, r, [subscriber, id], o, w⟩ (t.core.unsubscribe subscriber ⟨id⟩)
        (fun _ => .noContent) := rfl

/-- At its endpoint a resource is shown, or a subscription ends. -/
theorem handle_endpoint {x : Entity} {σ : Type} {t : Host σ} {r : Request} {o : Occasion}
    {w : Flow.Surroundings (StateM σ)} {json : Json} (hquery : r.queryPairs = [])
    (h : x.view t.core = some json) :
    Visit.handle ⟨t, r, x.names, o, w⟩ x.endpoint = x.outcome t json := by
  cases x with
  | domain id => exact tell_of_shown (v := ⟨t, r, [id.text], o, w⟩) h
  | api publisher id => exact tell_of_shown (v := ⟨t, r, [publisher.text, id.text], o, w⟩) h
  | invoker id => exact tell_of_shown (v := ⟨t, r, [id.text], o, w⟩) h
  | context id =>
    have htell : Visit.handle ⟨t, r, [id.text], o, w⟩ .readContext =
        Visit.tell ⟨t, r, [id.text], o, w⟩ (t.core.trusted.get id false false)
          (fun c => .ok c.toJson) := by
      rw [Visit.handle, Visit.withQuery]
      dsimp only
      rw [hquery]
      rfl
    exact htell.trans (tell_of_shown h)
  | subscription subscriber id =>
    obtain ⟨entry, hentry, _⟩ := Option.map_eq_some_iff.mp h
    obtain ⟨hheld, hown⟩ := Option.filter_eq_some_iff.mp hentry
    exact handle_unsubscribe.trans (by rw [Core.unsubscribe_of_held (by simp [hheld, hown])]; rfl)

/-- A location with names that stand for themselves leads to its resource. -/
theorem reachedIn {x : Entity} (hverbatim : x.isVerbatim = true)
    (hnamed : ∀ name ∈ x.names, name ≠ "") {σ : Type} {t : Host σ} (o : Occasion)
    (w : Flow.Surroundings (StateM σ)) {json : Json} (h : x.view t.core = some json) :
    x.ReachedIn t o w json := by
  have hquery : x.request.queryPairs = [] := by
    rw [Request.queryPairs, pathAndQuery_request hverbatim]
    rfl
  rw [ReachedIn, Host.serveIn_of_calls (calls_request hverbatim hnamed), handle_endpoint hquery h]

end Entity

end Http

end ApiExposure
