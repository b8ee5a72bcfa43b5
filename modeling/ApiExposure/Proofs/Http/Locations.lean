import ApiExposure.Proofs.Http.Entities

/-!
# Where a location leads

A response to a creation names the location of what was created. The request for that
location reaches it and nothing else, as long as the names in it stand for themselves in
a path. Generated names always do. The name of a subscriber is written as it was meant,
not as it was requested, so it may not: what then is requested is another place, or
another subscription. Decoding adds no byte to a text, so no other way of taking the path
apart gives back the same names.
-/

namespace ApiExposure

namespace Http

/-- Below the event interface only the route of a single subscription can be deleted. -/
theorem Route.of_find?_events {ss : List String} {route : Route} {raw : List (String × String)}
    {e : Endpoint} (h : find? ("capif-events" :: "v1" :: ss) = some (route, raw))
    (he : route.endpoint? "DELETE" = some e) :
    e = .unsubscribe ∧ ∃ x y, ss = [x, "subscriptions", y] ∧
      raw = [("subscriber_id", x), ("subscription_id", y)] := by
  obtain ⟨hroute, hraw⟩ := of_find?_eq_some h
  have htaken : route = all[15] ∨ route = all[16] := by
    simp only [all, under, List.mem_cons, List.not_mem_nil, or_false] at hroute
    rcases hroute with rfl | rfl | rfl | rfl | rfl | rfl | rfl | rfl | rfl | rfl | rfl | rfl | rfl |
      rfl | rfl | rfl | rfl
    all_goals first | exact .inl rfl | exact .inr rfl | simp [parameters?] at hraw
  rcases htaken with rfl | rfl
  · cases he
  · refine ⟨Option.some.inj (he.symm.trans rfl), ?_⟩
    replace hraw : parameters? [.parameter "subscriber_id", .fixed "subscriptions",
      .parameter "subscription_id"] ss = some raw := hraw
    rcases ss with _ | ⟨x, _ | ⟨s, _ | ⟨y, _ | ⟨z, rest⟩⟩⟩⟩
    case cons.cons.cons.nil =>
      simp only [parameters?, List.isEmpty_cons, Bool.false_and, Bool.false_eq_true, if_false,
        List.isEmpty_nil, Bool.true_and, Option.map_eq_some_iff] at hraw
      obtain ⟨rest, hrest, rfl⟩ := hraw
      split at hrest
      · next hs =>
        split at hrest
        · cases hrest
        · cases hrest
          exact ⟨x, y, by rw [hs], rfl⟩
      · cases hrest
    all_goals simp [parameters?] at hraw

namespace Entity

/-- A request for the location of a subscription has a path that begins with the location up to
the name of the subscriber, and goes on with a part of the rest. -/
theorem path_request_subscription (subscriber : String) (id : SubscriptionId) :
    ∃ rest, (subscription subscriber id).request.pathAndQuery.1 =
        "/capif-events/v1/".toList ++ rest ∧ '?' ∉ rest ∧ '#' ∉ rest ∧
      rest <+: subscriber.toList ++ "/subscriptions/".toList ++ id.text.toList := by
  have happend : ∀ lead mid : String, (lead ++ subscriber ++ mid ++ id.text).toList =
      lead.toList ++ (subscriber.toList ++ mid.toList ++ id.text.toList) := by
    intro lead mid
    simp only [String.toList_append, List.append_assoc]
  have htarget := happend "/capif-events/v1/" "/subscriptions/"
  generalize subscriber.toList ++ "/subscriptions/".toList ++ id.text.toList = behind at htarget ⊢
  have hfrom : Request.fromPath ("/capif-events/v1/".toList ++ behind) =
      "/capif-events/v1/".toList ++ behind := by
    have hslash : "/capif-events/v1/".toList = '/' :: "capif-events/v1/".toList := rfl
    rw [hslash, List.cons_append, Request.fromPath_slash]
  have hpath : (subscription subscriber id).request.pathAndQuery.1 =
      (Text.splitAtFirst '?' (Text.splitAtFirst '#'
        ("/capif-events/v1/".toList ++ behind)).1).1 := by
    have hlocation : (subscription subscriber id).request.target =
        "/capif-events/v1/" ++ subscriber ++ "/subscriptions/" ++ id.text := rfl
    rw [Request.pathAndQuery, hlocation, htarget, hfrom]
  obtain ⟨hfragment, hnoFragment⟩ := Text.of_splitAtFirst '#' behind
  obtain ⟨hquery, hnoQuery⟩ := Text.of_splitAtFirst '?' (Text.splitAtFirst '#' behind).1
  refine ⟨_, ?_, hnoQuery, fun hmem => hnoFragment (hquery.subset hmem),
    hquery.trans hfragment⟩
  rw [hpath, Text.splitAtFirst_append (by decide), Text.splitAtFirst_append (by decide)]

/-- What a request for the location of a subscription can end: the texts that it decodes stand in
the location, in the place of the names, with nothing at which a path is cut. -/
theorem of_calls_subscription {subscriber : String} {id : SubscriptionId} {e : Endpoint}
    {called : List String} (h : (subscription subscriber id).request.Calls e called) :
    e = .unsubscribe ∧ ∃ x y first second : String, called = [first, second] ∧
      Text.utf8? (Text.percentBytes x.toList) = some first ∧
      Text.utf8? (Text.percentBytes y.toList) = some second ∧
      (∀ c ∈ ['/', '?', '#'], c ∉ x.toList ∧ c ∉ y.toList) ∧
      x.toList ++ "/subscriptions/".toList ++ y.toList <+:
        subscriber.toList ++ "/subscriptions/".toList ++ id.text.toList := by
  obtain ⟨route, raw, hfind, hendpoint, hdecode⟩ := h
  obtain ⟨rest, hpath, hnoQuery, hnoFragment, hprefix⟩ := path_request_subscription subscriber id
  have hsegments : (subscription subscriber id).request.segments =
      "capif-events" :: "v1" :: (Text.splitAtEach '/' rest).map String.ofList := by
    have hlead : "/capif-events/v1/".toList ++ rest =
        [] ++ '/' :: ("capif-events".toList ++ '/' :: ("v1".toList ++ '/' :: rest)) := rfl
    rw [Request.segments, hpath, hlead, Text.splitAtEach_append List.not_mem_nil,
      Text.splitAtEach_append (by decide), Text.splitAtEach_append (by decide)]
    rfl
  obtain ⟨rfl, x, y, hparts, rfl⟩ := Route.of_find?_events (hsegments ▸ hfind) hendpoint
  have hsplit : Text.splitAtEach '/' rest =
      [x.toList, "subscriptions".toList, y.toList] := by
    have hback := congrArg (List.map String.toList) hparts
    simpa [Function.comp_def] using hback
  have hrest : rest = x.toList ++ "/subscriptions/".toList ++ y.toList := by
    have hjoined := Text.intercalate_splitAtEach '/' rest
    rw [hsplit] at hjoined
    rw [← hjoined]
    simp [List.intercalate]
  have hx : '/' ∉ x.toList := Text.not_mem_of_mem_splitAtEach (hsplit ▸ List.mem_cons_self)
  have hlast : y.toList ∈ Text.splitAtEach '/' rest := by simp [hsplit]
  have hy : '/' ∉ y.toList := Text.not_mem_of_mem_splitAtEach hlast
  rw [hrest] at hnoQuery hnoFragment hprefix
  simp only [List.mem_append, not_or] at hnoQuery hnoFragment
  simp only [decodeParameters] at hdecode
  split at hdecode
  · cases hdecode
  · next first hfirst =>
    cases hsecond : Text.utf8? (Text.percentBytes y.toList) with
    | none =>
      rw [hsecond] at hdecode
      cases hdecode
    | some second =>
      rw [hsecond] at hdecode
      cases hdecode
      refine ⟨rfl, x, y, first, second, rfl, hfirst, hsecond, ?_, hprefix⟩
      simp only [List.forall_mem_cons, List.not_mem_nil, false_implies, implies_true, and_true]
      exact ⟨⟨hx, hy⟩, ⟨hnoQuery.1.1, hnoQuery.2⟩, hnoFragment.1.1, hnoFragment.2⟩

/-- Only when its names stand for themselves can the request for the location of a subscription be
about that subscription: decoding adds no byte, so nothing may be cut off or decoded. -/
theorem isVerbatim_of_calls {subscriber : String} {id : SubscriptionId} {e : Endpoint}
    (h : (subscription subscriber id).request.Calls e [subscriber, id.text]) :
    (subscription subscriber id).isVerbatim = true := by
  obtain ⟨_, x, y, first, second, hcalled, hx, hy, hcut, hprefix⟩ := of_calls_subscription h
  obtain ⟨rfl, hsecond⟩ : subscriber = first ∧ id.text = second := by simpa using hcalled
  subst hsecond
  have hlengthX := Text.length_percentBytes x.toList
  have hlengthY := Text.length_percentBytes y.toList
  rw [Text.byteLength_of_utf8? hx] at hlengthX
  rw [Text.byteLength_of_utf8? hy] at hlengthY
  obtain ⟨after, hafter⟩ := hprefix
  have hlength := congrArg Text.byteLength hafter
  simp only [Text.byteLength_append] at hlength
  obtain rfl : after = [] := Text.eq_nil_of_byteLength (by omega)
  rw [List.append_nil, List.append_assoc, List.append_assoc] at hafter
  obtain ⟨hsame, hbehind⟩ := Text.append_inj_of_byteLength hafter (by omega)
  have hnoEscape : ∀ cs : List Char, Text.byteLength cs +
      (if Text.hasEscape cs = true then 1 else 0) ≤ Text.byteLength cs →
        Text.hasEscape cs = false := by
    intro cs hcs
    cases he : Text.hasEscape cs with
    | false => rfl
    | true =>
      rw [if_pos he] at hcs
      omega
  have hverbatim : ∀ s : String, (∀ c ∈ ['/', '?', '#'], c ∉ s.toList) →
      Text.hasEscape s.toList = false → Text.isVerbatim s = true := by
    intro s hmarks hescape
    simp only [List.forall_mem_cons] at hmarks
    exact Text.isVerbatim_iff.mpr ⟨⟨hmarks.1, hmarks.2.1, hmarks.2.2.1⟩, hescape⟩
  obtain rfl := String.toList_inj.mp hsame
  obtain rfl := String.toList_inj.mp (List.append_cancel_left hbehind)
  simp only [isVerbatim, names, List.all_cons, List.all_nil, Bool.and_true, Bool.and_eq_true]
  exact ⟨hverbatim _ (fun c hc => (hcut c hc).1) (hnoEscape _ hlengthX),
    hverbatim _ (fun c hc => (hcut c hc).2) (hnoEscape _ hlengthY)⟩

/-- A request that ends a subscription ends that of the names in its path. -/
theorem of_ended {σ : Type} {t : Host σ} {r : Request} {o : Occasion}
    {w : Flow.Surroundings (StateM σ)} {subscriber id : String}
    (hcalls : r.Calls .unsubscribe [subscriber, id]) (h : (t.serveIn r o w).1.status = 204) :
    (t.core.subscriptions.table.get? ⟨id⟩).any (fun e => e.subscriber == subscriber) = true ∧
      (t.serveIn r o w).2.core.subscriptions.table =
        t.core.subscriptions.table.erase ⟨id⟩ := by
  rw [Host.serveIn_of_calls hcalls, handle_unsubscribe] at h ⊢
  by_cases hheld : (t.core.subscriptions.table.get? ⟨id⟩).any
      (fun e => e.subscriber == subscriber) = true
  · rw [Core.unsubscribe_of_held hheld]
    exact ⟨hheld, rfl⟩
  · rw [Core.unsubscribe_of_not_held hheld] at h
    cases h

/-- A subscription that is there is ended by the request for its location only when its names
stand for themselves. -/
theorem isVerbatim_of_reachedIn {subscriber : String} {id : SubscriptionId} {σ : Type}
    {t : Host σ} {o : Occasion} {w : Flow.Surroundings (StateM σ)} {json : Json}
    (hview : (subscription subscriber id).view t.core = some json)
    (h : (subscription subscriber id).ReachedIn t o w json) :
    (subscription subscriber id).isVerbatim = true := by
  obtain ⟨entry, hentry, _⟩ := Option.map_eq_some_iff.mp hview
  obtain ⟨hheld, hown⟩ := Option.filter_eq_some_iff.mp hentry
  have hstatus : (t.serveIn (subscription subscriber id).request o w).1.status = 204 := by
    rw [h]
    rfl
  have hafter : (t.serveIn (subscription subscriber id).request o w).2.core.subscriptions.table =
      t.core.subscriptions.table.erase id := by
    rw [h]
    rfl
  obtain ⟨e, called, _, _, _, _, _, hcalls, _⟩ :=
    Host.performed_of_status (by rw [hstatus]; decide) (by rw [hstatus]; decide)
  obtain ⟨rfl, _, _, first, second, rfl, _⟩ := of_calls_subscription hcalls
  obtain ⟨hended, htable⟩ := of_ended hcalls hstatus
  have hsame : t.core.subscriptions.table.erase ⟨second⟩ =
      t.core.subscriptions.table.erase id := htable.symm.trans hafter
  have hsecond : (⟨second⟩ : SubscriptionId) = id := by
    by_contra hne
    have herased := congrArg (fun table => table.get? (⟨second⟩ : SubscriptionId)) hsame
    rw [Table.get?_erase, if_pos rfl, Table.get?_erase, if_neg hne] at herased
    rw [← herased] at hended
    cases hended
  subst hsecond
  rw [hheld, Option.any_some, beq_iff_eq] at hended
  obtain rfl : subscriber = first := (beq_iff_eq.mp hown).symm.trans hended
  exact isVerbatim_of_calls hcalls

end Entity

/-- A response to a creation has the location of what was created. -/
theorem Orders.created {limit : Nat} {r : Request} {e : Endpoint} {ids : List String}
    {command : Command} {form : command.Result → Response} {a : command.Result}
    (ho : Orders limit r e ids command form) (h : (form a).status = 201) :
    ∃ x json, Entity.MadeBy command a x json ∧ (form a).location = some x.location := by
  have hlocation : ∀ {location : String} {value : Json},
      (Response.created location value).status = 201 →
        (Response.created location value).location = some location := by
    intro location value hstatus
    unfold Response.created at hstatus ⊢
    split at hstatus
    · next hfits => rw [if_pos hfits]
    · cases hstatus
  cases ho with
  | registerProvider _ => exact ⟨_, _, .registerProvider _ a, hlocation h⟩
  | publish publisher _ => exact ⟨_, _, .publish _ _ a, hlocation h⟩
  | onboard _ => exact ⟨_, _, .onboard _ a, hlocation h⟩
  | createContext invoker _ => exact ⟨_, _, .createContext _ _ a, hlocation h⟩
  | subscribe subscriber _ => exact ⟨_, _, .subscribe _ _ a, hlocation h⟩
  | _ => cases h

/-- What a command creates is there afterwards. -/
theorem Entity.view_of_madeBy {o : Occasion} {command : Command} {c d : Core} {a : command.Result}
    {x : Entity} {json : Json} (h : Effect o command c (.ok a) d)
    (hmade : MadeBy command a x json) : x.view d = some json := by
  cases hmade with
  | registerProvider r domain =>
    cases h with
    | registered h =>
      obtain ⟨_, h⟩ := Outcome.andThen_eq_ok_iff.mp h
      obtain ⟨functions, _, h⟩ := Outcome.bind_eq_ok_iff.mp h
      cases h
      simp [view, Providers.get, Except.toOption]
  | publish publisher description api =>
    cases h with
    | published h =>
      obtain ⟨_, _, hmade, rfl⟩ := Publications.publishAs_eq_ok_iff.mp h
      have hget : (c.store.add api).getFor api.publisher api.id = .ok api :=
        Publications.getFor_eq_ok_iff.mpr ⟨by simp [Publications.get?_add], rfl⟩
      simp [view, hget, Except.toOption]
  | onboard e i =>
    have hid := h.id_of_onboard
    cases h with
    | onboarded h =>
      obtain ⟨_, _, rfl⟩ := Invokers.of_onboardAs_eq_ok h
      dsimp only at hid
      simp [view, hid, Invokers.get, Except.toOption]
  | createContext id context stored =>
    cases h with
    | contextCreated h =>
      obtain ⟨_, rfl⟩ := TrustedInvokers.of_create_eq_ok h
      simp [view, TrustedInvokers.get, Except.toOption]
  | subscribe subscriber s id =>
    cases h with
    | subscribed h =>
      obtain ⟨_, rfl⟩ := Subscriptions.of_subscribe_eq_ok h
      simp [view]

/-- Its names are plain, save that of a subscriber, which is not empty. -/
theorem Entity.names_of_madeBy {o : Occasion} {command : Command} {c d : Core} {a : command.Result}
    {x : Entity} {json : Json} (h : Effect o command c (.ok a) d) (ho : o.Plain) (hc : c.Plain)
    (hmade : MadeBy command a x json) :
    (∀ name ∈ x.names, Text.isPlain name = true) ∨
      ∃ subscriber id, x = .subscription subscriber id ∧ ∀ name ∈ x.names, name ≠ "" := by
  cases hmade with
  | registerProvider r domain =>
    refine .inl (List.forall_mem_singleton.mpr ?_)
    rw [h.id_of_registerProvider]
    exact DomainId.isPlain_generate (ho 0)
  | publish publisher description api =>
    obtain ⟨hid, rfl, hheld⟩ := h.ids_of_publish
    refine .inl (List.forall_mem_cons.mpr
      ⟨hc.functions _ hheld, List.forall_mem_singleton.mpr ?_⟩)
    rw [hid]
    exact ApiId.isPlain_generate (ho 0)
  | onboard e i =>
    refine .inl (List.forall_mem_singleton.mpr ?_)
    rw [h.id_of_onboard]
    exact InvokerId.isPlain_generate (ho 0)
  | createContext id context stored =>
    exact .inl (List.forall_mem_singleton.mpr (hc.invokers _ h.enrolled_of_createContext))
  | subscribe subscriber s id =>
    refine .inr ⟨subscriber, id, rfl, ?_⟩
    cases h with
    | subscribed h =>
      obtain ⟨rfl, _⟩ := Subscriptions.of_subscribe_eq_ok h
      obtain ⟨hblank, _⟩ := Outcome.andThen_eq_ok_iff.mp h
      have hsubscriber : subscriber ≠ "" := by
        rintro rfl
        cases hblank
      refine List.forall_mem_cons.mpr ⟨hsubscriber, List.forall_mem_singleton.mpr ?_⟩
      simp [SubscriptionId.forSubscriber, hsubscriber]

namespace Host

variable {σ : Type}

/-- A request creates a resource, which is there afterwards as it was made, and the response has
its location. -/
structure Creates (s : Host σ) (r : Request) (o : Occasion) (w : Flow.Surroundings (StateM σ))
    (x : Entity) (json : Json) : Prop where
  /-- The command that is ordered makes it. -/
  made : ∃ (e : Endpoint) (ids : List String) (command : Command)
    (form : command.Result → Response) (core : Core) (a : command.Result) (memory : σ),
      r.Calls e ids ∧ Orders s.settings.maxBody r e ids command form ∧
        (command.start o s.core).perform w s.memory = ((core, .ok a), memory) ∧
          Entity.MadeBy command a x json
  /-- The response has its location. -/
  location : (s.serveIn r o w).1.location = some x.location
  /-- It is there. -/
  view : x.view (s.serveIn r o w).2.core = some json

/-- Where a location leads. In every state that a run with plain suffixes reaches, a response with
the status of a creation has the location of what was created. From then on the request for that
location reaches the resource, in every state in which it is, exactly when its names stand for
themselves in a path; and all do, unless it is a subscription. -/
theorem location_leads_to_created {ms : List Move} {u : System}
    (hrun : System.fresh.run ms = some u) (hms : ∀ o ∈ ms.filterMap Move.occasion?, o.Plain)
    {s : Host σ} (hs : s.core = u.core) {o : Occasion} (ho : o.Plain)
    {w : Flow.Surroundings (StateM σ)} (hw : w.Undisturbed) {r : Request}
    (h : (s.serveIn r o w).1.status = 201) :
    ∃ x json, s.Creates r o w x json ∧
      (∀ {τ : Type} (t : Host τ) (p : Occasion) (v : Flow.Surroundings (StateM τ)) (k : Json),
        x.view t.core = some k → (x.ReachedIn t p v k ↔ x.isVerbatim = true)) ∧
      ((∀ subscriber id, x ≠ .subscription subscriber id) → x.isVerbatim = true) := by
  have hplain : s.core.Plain := hs ▸ System.plain_run hrun hms
  obtain ⟨e, ids, command, form, core, a, memory, hcalls, horders, hperform, hanswer⟩ :=
    performed_of_status (by rw [h]; decide) (by rw [h]; decide)
  have hcreated : (form a).status = 201 := by
    rw [hanswer] at h
    exact h
  obtain ⟨x, json, hmade, hlocation⟩ := horders.created hcreated
  have heffect := command.effect_of_undisturbed hw o s.core s.memory
  rw [hperform] at heffect
  have hcreates : s.Creates r o w x json := by
    refine ⟨⟨e, ids, command, form, core, a, memory, hcalls, horders, hperform, hmade⟩, ?_, ?_⟩
    · rw [hanswer]
      exact hlocation
    · rw [hanswer]
      exact Entity.view_of_madeBy heffect hmade
  refine ⟨x, json, hcreates, ?_⟩
  rcases Entity.names_of_madeBy heffect ho hplain hmade with
    hnames | ⟨subscriber, id, rfl, hnamed⟩
  · have hverbatim : x.isVerbatim = true :=
      List.all_eq_true.mpr fun name hname => Text.isVerbatim_of_isPlain (hnames name hname)
    refine ⟨fun t p v k hview => iff_of_true ?_ hverbatim, fun _ => hverbatim⟩
    exact Entity.reachedIn hverbatim
      (fun name hname => Text.ne_empty_of_isPlain (hnames name hname)) p v hview
  · refine ⟨fun t p v k hview => ⟨Entity.isVerbatim_of_reachedIn hview, fun hverbatim => ?_⟩,
      fun hother => absurd rfl (hother subscriber id)⟩
    exact Entity.reachedIn hverbatim hnamed p v hview

/-- A request for a subscription to what happens to invokers. -/
def sampleSubscribing (target : String) : Request where
  method := "POST"
  target
  contentType := some "application/json"
  body := sampleSpoiling.body

/-- The third subscription of the sample subscriber is reached by its location. -/
theorem location_leads_to_created_sample :
    ∃ (u : System) (s : Service), System.fresh.run System.sampleSubscribing = some u ∧
      (∀ o ∈ System.sampleSubscribing.filterMap Move.occasion?, o.Plain) ∧ s.core = u.core ∧
      (Occasion.lettered 'a' default).Plain ∧ (inProcess "secret").Undisturbed ∧
      (s.serveIn (sampleSubscribing "/capif-events/v1/sub/subscriptions") (.lettered 'a' default)
        (inProcess "secret")).1.status = 201 ∧
      ∃ x json, s.Creates (sampleSubscribing "/capif-events/v1/sub/subscriptions")
          (.lettered 'a' default) (inProcess "secret") x json ∧
        (∀ {τ : Type} (t : Host τ) (p : Occasion) (v : Flow.Surroundings (StateM τ)) (k : Json),
          x.view t.core = some k → (x.ReachedIn t p v k ↔ x.isVerbatim = true)) ∧
        ((∀ subscriber id, x ≠ .subscription subscriber id) → x.isVerbatim = true) := by
  have hstatus : (System.fresh.run System.sampleSubscribing).map (fun u =>
      (serveIn ⟨{}, u.core, .empty, default⟩
        (sampleSubscribing "/capif-events/v1/sub/subscriptions") (.lettered 'a' default)
        (inProcess "secret")).1.status) = some 201 := by decide +kernel
  have ho : (Occasion.lettered 'a' default).Plain := Occasion.plain_lettered (by decide) _
  have hms : ∀ o ∈ System.sampleSubscribing.filterMap Move.occasion?, o.Plain := by
    have hletters : System.sampleSubscribing.filterMap Move.occasion? =
        List.replicate 3 (.lettered 'a' default) := rfl
    intro o hmem
    rw [hletters] at hmem
    exact List.eq_of_mem_replicate hmem ▸ ho
  obtain ⟨u, hrun, h⟩ := Option.map_eq_some_iff.mp hstatus
  exact ⟨u, ⟨{}, u.core, .empty, default⟩, hrun, hms, rfl, ho, undisturbed_inProcess _, h,
    location_leads_to_created hrun hms rfl ho (undisturbed_inProcess _) h⟩

/-- The first subscription of a subscriber with a slash in its name. -/
def sampleSlashed : Entity := .subscription "a/b" ⟨"a/b1"⟩

/-- A service that has just been started creates it. -/
def sampleCreation : Response × Service :=
  (Service.start {} default).serve (sampleSubscribing "/capif-events/v1/a%2Fb/subscriptions")
    (.lettered 'a' default) "secret"

/-- The location that is told leads to nothing, and the subscription remains. -/
theorem location_leads_nowhere :
    sampleCreation.1.status = 201 ∧ sampleCreation.1.location = some sampleSlashed.location ∧
      (sampleSlashed.view sampleCreation.2.core).isSome = true ∧
      (sampleCreation.2.serve sampleSlashed.request (.lettered 'b' default) "secret").1.status =
        404 ∧
      (sampleSlashed.view (sampleCreation.2.serve sampleSlashed.request (.lettered 'b' default)
        "secret").2.core).isSome = true := by
  decide +kernel

end Host

end Http

end ApiExposure
