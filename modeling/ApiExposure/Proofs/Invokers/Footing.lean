import ApiExposure.Proofs.Discovery.Exact

/-!
# What the answers to an invoker rest on

What an invoker discovers and what is decided on its calls rest on little of the
core: its identity with its grants, the lines of the ledger for its own calls, the
stored APIs that its grants name, in their order, and the roles of the functions
that these rest on. Two well-formed states that agree in this give it the same
answers. Other APIs of the same name, lines of other invokers and the rest of the
index of functions have no influence.
-/

namespace ApiExposure.Core

/-- The grants of an invoker. One that is not onboarded has none. -/
def grantsOf (c : Core) (id : InvokerId) : List Grant :=
  ((c.invokers.table.get? id).map (·.grants)).getD []

/-- Whether a grant of the invoker names an API. -/
def isGranted (c : Core) (id : InvokerId) (api : ApiId) : Bool :=
  (c.grantsOf id).any (fun g => g.api == api)

/-- The stored APIs that grants of the invoker name, in the order of the store. -/
def grantedApis (c : Core) (id : InvokerId) : List PublishedApi :=
  c.store.apis.values.filter (fun a => c.isGranted id a.id)

/-- An API that the invoker is granted has the function as publisher or exposer. -/
def RestsOn (c : Core) (id : InvokerId) (f : FunctionId) : Prop :=
  ∃ a ∈ c.grantedApis id, f = a.publisher ∨ f ∈ a.description.exposers

/-- Two states agree in all that concerns an invoker. -/
structure AgreeFor (id : InvokerId) (c d : Core) : Prop where
  /-- Its identity and grants are the same. -/
  identity : d.invokers.table.get? id = c.invokers.table.get? id
  /-- The ledger has the same lines for its calls. -/
  ledger : ∀ call, call.invoker = id → d.ledger.entry? call = c.ledger.entry? call
  /-- The same APIs that it is granted are stored, in the same order. -/
  apis : d.grantedApis id = c.grantedApis id
  /-- The functions that these rest on have the same roles. -/
  roles : ∀ f, c.RestsOn id f → d.providers.roleOf f = c.providers.roleOf f

/-- Two states give an invoker the same answers. -/
structure SameAnswers (id : InvokerId) (c d : Core) : Prop where
  /-- It discovers the same by all criteria. -/
  discovery : ∀ criteria, d.discover id criteria = c.discover id criteria
  /-- The same is decided on each of its calls at every time. -/
  decisions : ∀ call, call.invoker = id → ∀ now, d.check call now = c.check call now

variable {id : InvokerId} {c d e : Core} {i : InvokerIdentity}

/-- The grants of an invoker are those of its identity. -/
theorem grantsOf_eq (hi : c.invokers.table.get? id = some i) : c.grantsOf id = i.grants := by
  rw [grantsOf, hi]
  rfl

/-- An API is granted when some grant is for it. -/
theorem isGranted_iff {api : ApiId} :
    c.isGranted id api = true ↔ ∃ g ∈ c.grantsOf id, g.api = api := by
  simp [isGranted]

/-- What is stored under an identifier that a grant names is among the granted APIs. -/
theorem mem_grantedApis_iff (hc : c.store.WellFormed) {a : PublishedApi} :
    a ∈ c.grantedApis id ↔
      c.store.apis.get? a.id = some a ∧ ∃ g ∈ c.grantsOf id, g.api = a.id := by
  rw [grantedApis, List.mem_filter, isGranted_iff, Table.mem_values_iff]
  constructor
  · rintro ⟨⟨key, ha⟩, hg⟩
    obtain rfl : a.id = key := (hc key a ha).own
    exact ⟨ha, hg⟩
  · rintro ⟨ha, hg⟩
    exact ⟨⟨a.id, ha⟩, hg⟩

namespace AgreeFor

theorem refl (id : InvokerId) (c : Core) : AgreeFor id c c :=
  ⟨rfl, fun _ _ => rfl, rfl, fun _ _ => rfl⟩

/-- An invoker rests on the same functions in both states. -/
theorem restsOn_iff (h : AgreeFor id c d) {f : FunctionId} : d.RestsOn id f ↔ c.RestsOn id f := by
  rw [RestsOn, RestsOn, h.apis]

theorem symm (h : AgreeFor id c d) : AgreeFor id d c :=
  ⟨h.identity.symm, fun call hcall => (h.ledger call hcall).symm, h.apis.symm,
    fun f hf => (h.roles f (h.restsOn_iff.mp hf)).symm⟩

theorem trans (h : AgreeFor id c d) (h' : AgreeFor id d e) : AgreeFor id c e :=
  ⟨h'.identity.trans h.identity,
    fun call hcall => (h'.ledger call hcall).trans (h.ledger call hcall),
    h'.apis.trans h.apis, fun f hf => (h'.roles f (h.restsOn_iff.mpr hf)).trans (h.roles f hf)⟩

/-- The grants are the same in both states. -/
theorem grantsOf_eq (h : AgreeFor id c d) : d.grantsOf id = c.grantsOf id := by
  rw [grantsOf, grantsOf, h.identity]

/-- An API that the invoker is granted looks the same to it in both states. -/
theorem view?_eq (h : AgreeFor id c d) {a : PublishedApi} (ha : a ∈ c.grantedApis id)
    (grants : List Grant) (criteria : Criteria) :
    d.view? grants criteria a = c.view? grants criteria a := by
  have hpublisher : d.providers.roleOf a.publisher = c.providers.roleOf a.publisher :=
    h.roles _ ⟨a, ha, .inl rfl⟩
  have hvisible : a.description.profiles.filter (d.isVisible grants criteria a) =
      a.description.profiles.filter (c.isVisible grants criteria a) := by
    refine List.filter_congr fun p hp => ?_
    have hexposer : p.exposer ∈ a.description.exposers :=
      ApiDescription.mem_exposers.mpr ⟨p, hp, rfl⟩
    rw [isVisible, isVisible, h.roles _ ⟨a, ha, .inr hexposer⟩]
  rw [view?, view?, hpublisher, hvisible]

/-- A grant of the invoker that is live for a call in one state is live in the other. -/
theorem liveFor (h : AgreeFor id c d) (hc : c.store.WellFormed) (hd : d.store.WellFormed)
    {call : Call} {g : Grant} (hg : g ∈ c.grantsOf id) {a : PublishedApi} {v : ApiVersion}
    (hlive : c.LiveFor call g a v) : d.LiveFor call g a v := by
  have hid : a.id = g.api := (hc g.api a hlive.stored).own
  have ha : a ∈ c.grantedApis id :=
    (mem_grantedApis_iff hc).mpr ⟨hid ▸ hlive.stored, g, hg, hid.symm⟩
  have hstored : d.store.apis.get? a.id = some a :=
    ((mem_grantedApis_iff hd).mp (h.apis ▸ ha)).1
  refine ⟨⟨hid ▸ hstored, hlive.name, hlive.exposed, hlive.listed, hlive.version, ?_, ?_⟩,
    hlive.covers⟩
  · exact (h.roles _ ⟨a, ha, .inl rfl⟩).trans hlive.publisher
  · exact (h.roles _ ⟨a, ha, .inr hlive.exposed⟩).trans hlive.exposer

/-- So both states find the same exposure for the calls of the invoker. -/
theorem granted?_eq (h : AgreeFor id c d) (hc : c.store.WellFormed) (hd : d.store.WellFormed)
    (call : Call) :
    granted? (c.grantsOf id) (d.liveExposures call) call =
      granted? (c.grantsOf id) (c.liveExposures call) call := by
  rw [granted?_eq_findSome?, granted?_eq_findSome?, ← List.head?_filterMap, ← List.head?_filterMap]
  refine congrArg List.head? (List.filterMap_congr fun g hg => Option.ext fun e => ?_)
  rw [liveExposure?_eq_some_iff hc, liveExposure?_eq_some_iff hd]
  constructor
  · rintro ⟨a, v, hlive, he⟩
    exact ⟨a, v, h.symm.liveFor hd hc (h.grantsOf_eq ▸ hg) hlive, he⟩
  · rintro ⟨a, v, hlive, he⟩
    exact ⟨a, v, h.liveFor hc hd hg hlive, he⟩

end AgreeFor

/-- An invoker finds nothing but APIs that it is granted. -/
theorem found_eq_of_grantedApis (hi : c.invokers.table.get? id = some i) (criteria : Criteria) :
    c.found i.grants criteria =
      ((c.grantedApis id).filter criteria.selects).filterMap (c.view? i.grants criteria) := by
  have hview : ∀ a, c.isGranted id a.id = false → c.view? i.grants criteria a = none := by
    intro a ha
    refine Option.eq_none_iff_forall_ne_some.mpr fun b hb => ?_
    obtain ⟨_, ⟨p, _, hshows⟩, _⟩ := view?_eq_some_iff.mp hb
    obtain ⟨g, hg, hid, _⟩ := hshows.granted
    rw [isGranted_iff.mpr ⟨g, (grantsOf_eq hi).symm ▸ hg, hid⟩] at ha
    cases ha
  rw [found, Publications.query, grantedApis, List.filter_comm,
    List.filterMap_filter (p := fun a : PublishedApi => c.isGranted id a.id)]
  refine List.filterMap_congr fun a _ => ?_
  cases ha : c.isGranted id a.id with
  | true => rfl
  | false => exact hview a ha

/-- States that agree for an invoker give it the same answers. -/
theorem AgreeFor.sameAnswers (h : AgreeFor id c d) (hc : c.store.WellFormed)
    (hd : d.store.WellFormed) : SameAnswers id c d where
  discovery criteria := by
    cases hi : c.invokers.table.get? id with
    | none =>
      rw [discover_eq_error_iff.mpr ⟨hi, rfl⟩]
      exact discover_eq_error_iff.mpr ⟨h.identity.trans hi, rfl⟩
    | some i =>
      have hi' : d.invokers.table.get? id = some i := h.identity.trans hi
      rw [discover_eq_found hi, discover_eq_found hi', found_eq_of_grantedApis hi,
        found_eq_of_grantedApis hi', h.apis]
      refine congrArg Except.ok (List.filterMap_congr fun a ha => ?_)
      exact h.view?_eq (List.mem_of_mem_filter ha) _ _
  decisions call hcall now := by
    subst hcall
    cases hb : call.hasBlank with
    | true => rw [check_of_hasBlank hb, check_of_hasBlank hb]
    | false =>
      have hrevoked : d.ledger.isRevoked call = c.ledger.isRevoked call := by
        rw [Ledger.isRevoked, Ledger.isRevoked, h.ledger call rfl]
      rw [check_of_not_hasBlank hb, check_of_not_hasBlank hb, h.identity, hrevoked]
      cases hi : c.invokers.table.get? call.invoker with
      | none => rfl
      | some i =>
        have hgranted := h.granted?_eq hc hd call
        rw [Core.grantsOf_eq hi] at hgranted
        dsimp only
        rw [hgranted]

end ApiExposure.Core
