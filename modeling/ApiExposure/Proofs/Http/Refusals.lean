import ApiExposure.Proofs.Http.Plain
import ApiExposure.Proofs.Subscriptions.History

/-!
# What a response tells of the registries

A response that tells of no success should mean that nothing happened, and one that
does that the ordered command was performed. Both are so for every request but one: a
subscription is entered before its location is written into a header, and a subscriber
may have any name. A name that cannot stand in a header spoils the response to what
was done.
-/

namespace ApiExposure

namespace Http

/-- Surroundings within one process leave the registries alone. -/
theorem undisturbed_inProcess (secret : String) : (inProcess secret).Undisturbed where
  errand := by
    intro c e memory
    cases e <;> rfl
  register := by
    intro c id memory
    simp only [inProcess, bind, StateT.bind, get, getThe, MonadStateOf.get, StateT.get, pure]
    cases memory.register id secret <;> rfl
  announce := fun _ _ _ => rfl

/-- No route has an endpoint for questions about options. -/
theorem Route.endpoint?_options : ∀ route ∈ all, route.endpoint? "OPTIONS" = none := by decide

namespace Host

variable {σ : Type} {s : Host σ} {r : Request} {o : Occasion}
  {w : Flow.Surroundings (StateM σ)}

/-- A request that calls an endpoint is answered there. -/
theorem serveIn_of_calls {e : Endpoint} {ids : List String} (h : r.Calls e ids) :
    s.serveIn r o w = (s.deliver r (Visit.handle ⟨s, r, ids, o, w⟩ e).1,
      (Visit.handle ⟨s, r, ids, o, w⟩ e).2) := by
  obtain ⟨route, raw, hfind, hendpoint, hdecode⟩ := h
  have hoptions : ¬ (s.settings.allowOrigins = true ∧ r.method = "OPTIONS") := by
    rintro ⟨_, hmethod⟩
    rw [hmethod, Route.endpoint?_options route (Route.of_find?_eq_some hfind).1] at hendpoint
    cases hendpoint
  rw [serveIn_eq_deliver hoptions, dispatch, hfind]
  dsimp only
  rw [hendpoint]
  dsimp only
  rw [hdecode]

/-- A request for a sound subscription under a name that cannot stand in a header. -/
def Spoils (s : Host σ) (r : Request) : Prop :=
  ∃ (subscriber : String) (subscription : EventSubscription),
    r.Calls .subscribe [subscriber] ∧ r.read s.settings.maxBody = .ok subscription ∧
      Text.isBlank subscriber = false ∧ subscription.validate = .ok () ∧
        Response.fitsHeader subscriber = false

/-- Such a subscription is entered, and the response is that of a broken service. -/
theorem Spoils.serveIn (h : s.Spoils r) (o : Occasion) (w : Flow.Surroundings (StateM σ)) :
    (s.serveIn r o w).1.status = 500 ∧ (s.serveIn r o w).2.core ≠ s.core := by
  obtain ⟨subscriber, subscription, hcalls, hread, hblank, hvalid, hfits⟩ := h
  have hsubscribe : s.core.subscribe subscriber subscription =
      .ok (.forSubscriber subscriber (s.core.subscriptions.sequence + 1).toNat,
        { s.core with subscriptions :=
          ⟨s.core.subscriptions.table.insert
            (.forSubscriber subscriber (s.core.subscriptions.sequence + 1).toNat)
            ⟨subscriber, subscription⟩, s.core.subscriptions.sequence + 1⟩ }) := by
    simp [Core.subscribe, Subscriptions.subscribe, require, hblank, hvalid, bind, Except.bind]
  have hhandle : Visit.handle ⟨s, r, [subscriber], o, w⟩ .subscribe =
      (Visit.update ⟨s, r, [subscriber], o, w⟩ (s.core.subscribe subscriber subscription)
        (fun id => .created ("/capif-events/v1/" ++ subscriber ++ "/subscriptions/" ++ id.text)
          subscription.toJson)) := by
    rw [Visit.handle, Visit.withBody]
    dsimp only
    rw [hread]
    rfl
  rw [serveIn_of_calls hcalls, hhandle, hsubscribe, Visit.update_ok]
  constructor
  · have hspoiled : Response.fitsHeader ("/capif-events/v1/" ++ subscriber ++ "/subscriptions/" ++
        (SubscriptionId.forSubscriber subscriber
          (s.core.subscriptions.sequence + 1).toNat).text) = false := by
      simp only [Response.fitsHeader_append, hfits, Bool.and_false, Bool.false_and]
    rw [status_deliver, Response.created, hspoiled]
    rfl
  · intro hsame
    have hsequence : s.core.subscriptions.sequence + 1 = s.core.subscriptions.sequence :=
      congrArg (fun c : Core => c.subscriptions.sequence) hsame
    simp at hsequence

end Host

/-- The response to the success of a command tells of it, unless it is a subscription under a name
that cannot stand in a header. -/
theorem Orders.tells {limit : Nat} {r : Request} {e : Endpoint} {ids : List String}
    {command : Command} {form : command.Result → Response} {o : Occasion} {c d : Core}
    {a : command.Result} (ho : Orders limit r e ids command form)
    (h : Effect o command c (.ok a) d) (hplain : o.Plain) (hc : c.Plain) :
    (form a).isSuccess = true ∨
      ∃ (subscriber : String) (subscription : EventSubscription), e = .subscribe ∧
        ids = [subscriber] ∧ r.read limit = .ok subscription ∧
          Text.isBlank subscriber = false ∧ subscription.validate = .ok () ∧
            Response.fitsHeader subscriber = false := by
  have hcreated : ∀ (location : String) (value : Json), Response.fitsHeader location = true →
      (Response.created location value).isSuccess = true := by
    intro location value hfits
    rw [Response.created_of_fits hfits]
    rfl
  cases ho with
  | registerProvider hread =>
    refine .inl (hcreated _ _ ?_)
    rw [h.id_of_registerProvider, Response.fitsHeader_append,
      Response.fitsHeader_of_isPlain (DomainId.isPlain_generate (hplain 0))]
    decide
  | publish publisher hread =>
    refine .inl (hcreated _ _ ?_)
    obtain ⟨hid, hown, hheld⟩ := h.ids_of_publish
    rw [hid, hown, Response.fitsHeader_append, Response.fitsHeader_append,
      Response.fitsHeader_append, Response.fitsHeader_of_isPlain (hc.functions _ hheld),
      Response.fitsHeader_of_isPlain (ApiId.isPlain_generate (hplain 0))]
    decide
  | onboard hread =>
    refine .inl (hcreated _ _ ?_)
    rw [h.id_of_onboard, Response.fitsHeader_append,
      Response.fitsHeader_of_isPlain (InvokerId.isPlain_generate (hplain 0))]
    decide
  | createContext invoker hread =>
    refine .inl (hcreated _ _ ?_)
    have hinvoker := hc.invokers _ h.enrolled_of_createContext
    rw [Response.fitsHeader_append, Response.fitsHeader_of_isPlain hinvoker]
    decide
  | subscribe subscriber hread =>
    cases h with
    | subscribed h =>
      by_cases hfits : Response.fitsHeader subscriber = true
      · obtain ⟨rfl, _⟩ := Subscriptions.of_subscribe_eq_ok h
        refine .inl (hcreated _ _ ?_)
        rw [SubscriptionId.forSubscriber, Response.fitsHeader_append, Response.fitsHeader_append,
          Response.fitsHeader_append, Response.fitsHeader_append, hfits,
          Response.fitsHeader_toString]
        decide
      · obtain ⟨hblank, h⟩ := Outcome.andThen_eq_ok_iff.mp h
        obtain ⟨hvalid, _⟩ := Outcome.andThen_eq_ok_iff.mp h
        exact .inr ⟨subscriber, _, rfl, rfl, hread, by simpa using require_eq_ok_iff.mp hblank,
          hvalid, by simpa using hfits⟩
  | _ => exact .inl rfl

namespace Host

variable {σ : Type}

/-- An answer tells what happened to the registries. -/
structure Tells (s : Host σ) (r : Request) (o : Occasion) (w : Flow.Surroundings (StateM σ))
    (answer : Response × Host σ) : Prop where
  /-- Without success nothing happened, unless it answers a sound subscription under a name that
  cannot stand in a header. -/
  failure : answer.1.isSuccess = false → (answer.2.core = s.core ↔ ¬ s.Spoils r)
  /-- With success it is about the service itself, or it is the answer to the one command that the
  request orders, and the registries are those of its performance. -/
  success : answer.1.isSuccess = true →
    s.IsAside r ∧ answer.2 = s ∨
      ∃ (e : Endpoint) (ids : List String) (command : Command)
        (form : command.Result → Response) (core : Core) (a : command.Result) (memory : σ),
        r.Calls e ids ∧ Orders s.settings.maxBody r e ids command form ∧
          (command.start o s.core).perform w s.memory = ((core, .ok a), memory) ∧
            answer = (s.deliver r (form a), { s with core, memory })

/-- Every response tells what happened: in every state that a run with plain suffixes reaches,
whatever the request says and whatever the collaborators reply. -/
theorem response_tells_effect {ms : List Move} {u : System} (hrun : System.fresh.run ms = some u)
    (hms : ∀ o ∈ ms.filterMap Move.occasion?, o.Plain) {s : Host σ} (hs : s.core = u.core)
    {o : Occasion} (ho : o.Plain) {w : Flow.Surroundings (StateM σ)} (hw : w.Undisturbed)
    (r : Request) : s.Tells r o w (s.serveIn r o w) := by
  have hplain : s.core.Plain := hs ▸ System.plain_run hrun hms
  have hcomplete : s.core.invokers.Complete := hs ▸ (System.seen_run hrun).complete
  have hbroken : ∀ response : Response, 400 ≤ response.status → response.isSuccess = false := by
    intro response h
    simp only [Response.isSuccess, Bool.and_eq_false_iff, decide_eq_false_iff_not]
    omega
  have hspoils : (s.serveIn r o w).2.core = s.core → ¬ s.Spoils r :=
    fun hcore h => (h.serveIn o w).2 hcore
  have hserved := s.served r o w
  generalize s.serveIn r o w = answer at hserved hspoils ⊢
  cases hserved with
  | aside haside hok =>
    refine ⟨fun h => ?_, fun _ => .inl ⟨haside, rfl⟩⟩
    simp [Response.isSuccess, hok] at h
  | refused h =>
    refine ⟨fun _ => ⟨hspoils, fun _ => rfl⟩, fun hsuccess => ?_⟩
    simp [hbroken _ h] at hsuccess
  | @failed e ids command form core f memory p hcalls horders h =>
    refine ⟨fun _ => ⟨hspoils, fun _ => ?_⟩, fun hsuccess => ?_⟩
    · have heffect := command.effect_of_undisturbed hw o s.core s.memory
      rw [h] at heffect
      exact heffect.eq_of_error hcomplete
    · simp [hbroken (s.deliver r (.ofProblem p)) p.le_status] at hsuccess
  | @done e ids command form core a memory hcalls horders h =>
    have heffect := command.effect_of_undisturbed hw o s.core s.memory
    rw [h] at heffect
    refine ⟨fun hfailure => ⟨hspoils, fun hsound => absurd ?_ hsound⟩,
      fun _ => .inr ⟨e, ids, command, form, core, a, memory, hcalls, horders, h, rfl⟩⟩
    rcases horders.tells heffect ho hplain with htells | ⟨_, _, rfl, rfl, hspoiled⟩
    · have hsame : (s.deliver r (form a)).isSuccess = (form a).isSuccess := rfl
      rw [hsame, htells] at hfailure
      cases hfailure
    · exact ⟨_, _, hcalls, hspoiled⟩

/-- A request to withdraw the sample API. -/
def sampleWithdrawal : Request where
  method := "DELETE"
  target := "/published-apis/v1/APF_aa/service-apis/api_id_b"

/-- The withdrawal of the sample API is told as it happened. -/
theorem response_tells_effect_sample :
    ∃ (u : System) (s : Service), System.fresh.run System.sampleSchedule = some u ∧
      (∀ o ∈ System.sampleSchedule.filterMap Move.occasion?, o.Plain) ∧ s.core = u.core ∧
      (Occasion.lettered 'c' default).Plain ∧ (inProcess "secret").Undisturbed ∧
      (s.serveIn sampleWithdrawal (.lettered 'c' default) (inProcess "secret")).1.status = 204 ∧
      s.Tells sampleWithdrawal (.lettered 'c' default) (inProcess "secret")
        (s.serveIn sampleWithdrawal (.lettered 'c' default) (inProcess "secret")) := by
  have hstatus : (System.fresh.run System.sampleSchedule).map (fun u =>
      (serveIn ⟨{}, u.core, .empty, default⟩ sampleWithdrawal (.lettered 'c' default)
        (inProcess "secret")).1.status) = some 204 := by decide +kernel
  have hms : ∀ o ∈ System.sampleSchedule.filterMap Move.occasion?, o.Plain := by
    have hletters : System.sampleSchedule.filterMap Move.occasion? =
        [.lettered 'a' default, .lettered 'b' default] := rfl
    rw [hletters]
    exact List.forall_mem_cons.mpr ⟨Occasion.plain_lettered (by decide) _,
      List.forall_mem_singleton.mpr (Occasion.plain_lettered (by decide) _)⟩
  have ho : (Occasion.lettered 'c' default).Plain := Occasion.plain_lettered (by decide) _
  obtain ⟨u, hrun, h⟩ := Option.map_eq_some_iff.mp hstatus
  exact ⟨u, ⟨{}, u.core, .empty, default⟩, hrun, hms, rfl, ho, undisturbed_inProcess _, h,
    response_tells_effect hrun hms rfl ho (undisturbed_inProcess _) sampleWithdrawal⟩

/-- A request for a subscription under a name of two lines. -/
def sampleSpoiling : Request where
  method := "POST"
  target := "/capif-events/v1/a%0Ab/subscriptions"
  contentType := some "application/json"
  body := "\x7b\"events\":[\"API_INVOKER_ONBOARDED\"],\"notificationDestination\":\"http://a\"\x7d"

/-- A service that has just been started enters it and answers that it is broken. -/
theorem error_with_effect :
    ((Service.start {} default).serve sampleSpoiling (.lettered 'a' default) "secret").1.isSuccess =
        false ∧
      ((Service.start {} default).serve sampleSpoiling (.lettered 'a' default) "secret").2.core ≠
        (Service.start {} default).core := by
  refine ⟨by decide +kernel, fun hsame => ?_⟩
  have hentered : ((Service.start {} default).serve sampleSpoiling (.lettered 'a' default)
      "secret").2.core.subscriptions.size = 1 := by decide +kernel
  rw [hsame] at hentered
  cases hentered

end Host

end Http

end ApiExposure
