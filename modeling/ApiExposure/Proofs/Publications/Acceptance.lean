import ApiExposure.Proofs.Collaborators.Outages
import ApiExposure.Proofs.Interleaving.Serial
import ApiExposure.Proofs.Publications.Names

/-!
# Which publications are accepted

A publication is checked before its endpoint is set up and once more when it is
recorded. The checks come in an order: the description on its own, then the
publisher, the exposers and the name. What the first check lets through the
second one lets through as well when nothing happens in between, because the
identifier is new. So a publication is either refused before any call, or its
endpoint is set up once and not taken down again.
-/

namespace ApiExposure

/-- A check with what comes after it fails by the check or by what comes after it. -/
theorem Outcome.andThen_eq_error_iff {β : Type} {x : Outcome Unit} {y : Outcome β} {f : Failure} :
    (x >>= fun _ => y) = .error f ↔ x = .error f ∨ x = .ok () ∧ y = .error f := by
  cases x <;> simp [bind, Except.bind]

/-- A required condition fails with its own fault. -/
theorem require_eq_error_iff {condition : Bool} {fault : Fault} {f : Failure} :
    require condition fault = .error f ↔ condition = false ∧ f = .invalid fault := by
  cases condition <;> simp [require, eq_comm]

/-- A list is checked one item after the other: no key may be blank, and none may be among those
seen before. -/
structure ChecksKeys {α κ : Type} [BEq κ] (check : List α → List κ → Outcome Unit) (key : α → κ)
    (blank : κ → Bool) (blankKey : Fault) (repeatedKey : κ → Fault) : Prop where
  /-- The empty list passes. -/
  nil : ∀ seen, check [] seen = .ok ()
  /-- The first item is looked at first, then it counts as seen. -/
  cons : ∀ x xs seen, check (x :: xs) seen = (do
    require (!blank (key x)) blankKey
    require (!seen.contains (key x)) (repeatedKey (key x))
    check xs (key x :: seen))

/-- Such a check fails because of a blank key or a key that comes more than once. -/
theorem ChecksKeys.error {α κ : Type} [BEq κ] [LawfulBEq κ]
    {check : List α → List κ → Outcome Unit} {key : α → κ} {blank : κ → Bool} {blankKey : Fault}
    {repeatedKey : κ → Fault} (hcheck : ChecksKeys check key blank blankKey repeatedKey)
    {xs : List α} {seen : List κ} {f : Failure} (h : check xs seen = .error f) :
    (f = .invalid blankKey ∧ ∃ x ∈ xs, blank (key x) = true) ∨
      ∃ k, f = .invalid (repeatedKey k) ∧ 1 < (seen ++ xs.map key).count k := by
  induction xs generalizing seen with
  | nil =>
    rw [hcheck.nil] at h
    cases h
  | cons x xs ih =>
    rw [hcheck.cons] at h
    simp only [Outcome.andThen_eq_error_iff, require_eq_error_iff, Bool.not_eq_false'] at h
    rcases h with ⟨hblank, rfl⟩ | ⟨-, ⟨hseen, rfl⟩ | ⟨-, h⟩⟩
    · exact .inl ⟨rfl, x, List.mem_cons_self, hblank⟩
    · refine .inr ⟨key x, rfl, ?_⟩
      have hcount : 0 < seen.count (key x) := List.count_pos_iff.mpr (by simpa using hseen)
      simp only [List.map_cons, List.count_append, List.count_cons_self]
      omega
    · rcases ih h with ⟨rfl, y, hy, hblank⟩ | ⟨k, rfl, hk⟩
      · exact .inl ⟨rfl, y, List.mem_cons_of_mem _ hy, hblank⟩
      · refine .inr ⟨k, rfl, ?_⟩
        simp only [List.map_cons, List.cons_append, List.count_append, List.count_cons] at hk ⊢
        omega

namespace ApiDescription

/-- What is wrong with a description, as a fault. -/
inductive Flawed (d : ApiDescription) : Fault → Prop
  /-- The name is blank. -/
  | blankName (h : Text.isBlank d.name = true) : Flawed d .blankApiName
  /-- There is no profile. -/
  | noProfile (h : d.profiles = []) : Flawed d .noProfile
  /-- An exposer is blank. -/
  | blankExposer {p : Profile} (hp : p ∈ d.profiles) (h : Text.isBlank p.exposer.text = true) :
      Flawed d .blankExposer
  /-- An exposer comes more than once. -/
  | repeatedExposer {e : FunctionId} (h : 1 < d.exposers.count e) : Flawed d (.repeatedExposer e)
  /-- The name of a version is blank. -/
  | blankVersion {v : ApiVersion} (hv : v ∈ d.versions) (h : Text.isBlank v.name = true) :
      Flawed d .blankVersion
  /-- The name of a version comes more than once. -/
  | repeatedVersion {name : String} (h : 1 < (d.versions.map (·.name)).count name) :
      Flawed d (.repeatedVersion name)

variable {d : ApiDescription}

/-- Profiles are checked by their exposers. -/
theorem checksKeys_checkExposers : ChecksKeys checkExposers (·.exposer)
    (fun e => Text.isBlank e.text) .blankExposer .repeatedExposer :=
  ⟨fun _ => rfl, fun _ _ _ => rfl⟩

/-- Versions are checked by their names. -/
theorem checksKeys_checkVersions :
    ChecksKeys checkVersions (·.name) Text.isBlank .blankVersion .repeatedVersion :=
  ⟨fun _ => rfl, fun _ _ _ => rfl⟩

/-- A description is refused for something that is wrong with it. -/
theorem flawed_of_validate_eq_error {f : Failure} (h : d.validate = .error f) :
    ∃ fault, f = .invalid fault ∧ d.Flawed fault := by
  simp only [validate, checkProfiles, Outcome.andThen_eq_error_iff, require_eq_error_iff,
    Bool.not_eq_false', List.isEmpty_iff] at h
  rcases h with ⟨hname, rfl⟩ | ⟨-, (⟨hprofiles, rfl⟩ | ⟨-, h⟩) | ⟨-, h⟩⟩
  · exact ⟨_, rfl, .blankName hname⟩
  · exact ⟨_, rfl, .noProfile hprofiles⟩
  · rcases checksKeys_checkExposers.error h with ⟨rfl, p, hp, hblank⟩ | ⟨e, rfl, he⟩
    · exact ⟨_, rfl, .blankExposer hp hblank⟩
    · exact ⟨_, rfl, .repeatedExposer he⟩
  · rcases checksKeys_checkVersions.error h with ⟨rfl, v, hv, hblank⟩ | ⟨name, rfl, hname⟩
    · exact ⟨_, rfl, .blankVersion hv hblank⟩
    · exact ⟨_, rfl, .repeatedVersion hname⟩

/-- Nothing is wrong with a sound description. -/
theorem Sound.not_flawed (hd : d.Sound) (fault : Fault) : ¬ d.Flawed fault := by
  intro h
  cases h with
  | blankName h => cases h.symm.trans hd.named
  | noProfile h => exact hd.profiles.nonempty h
  | blankExposer hp h => cases h.symm.trans (hd.profiles.named _ hp)
  | repeatedExposer h =>
    exact Nat.not_lt.mpr (List.nodup_iff_count_le_one.mp hd.profiles.distinct _) h
  | blankVersion hv h => cases h.symm.trans (hd.versions.named _ hv)
  | repeatedVersion h =>
    exact Nat.not_lt.mpr (List.nodup_iff_count_le_one.mp hd.versions.distinct _) h

end ApiDescription

namespace Providers

variable {p : Providers} {id : FunctionId} {f : Failure}

/-- A function does not pass as a publisher because it is not there or does something else. -/
theorem requirePublisher_eq_error_iff :
    p.requirePublisher id = .error f ↔
      (p.roleOf id = none ∧ f = .notFound (.publisher id)) ∨
        ∃ role, p.roleOf id = some role ∧ role ≠ .publisher ∧
          f = .invalid (.notPublisher id role) := by
  unfold requirePublisher
  cases p.roleOf id with
  | none => simp [eq_comm]
  | some role => cases role <;> simp [eq_comm]

/-- Functions do not pass as exposers because one of them is none. -/
theorem exists_of_requireExposers_eq_error {ids : List FunctionId}
    (h : p.requireExposers ids = .error f) :
    ∃ id ∈ ids, p.roleOf id ≠ some .exposer ∧ f = .invalid (.notExposer id) := by
  induction ids with
  | nil => cases h
  | cons id ids ih =>
    simp only [requireExposers, List.forM_eq_forM, List.forM_cons, Outcome.andThen_eq_error_iff,
      require_eq_error_iff, beq_eq_false_iff_ne] at h
    rcases h with ⟨hrole, rfl⟩ | ⟨-, h⟩
    · exact ⟨id, List.mem_cons_self, hrole, rfl⟩
    · obtain ⟨e, he, hrole⟩ := ih h
      exact ⟨e, List.mem_cons_of_mem _ he, hrole⟩

end Providers

namespace Core

/-- Why a publication is refused, as a failure. -/
inductive RefusesPublication (c : Core) (publisher : FunctionId) (d : ApiDescription) :
    Failure → Prop
  /-- Something is wrong with the description. -/
  | flawed {fault : Fault} (h : d.Flawed fault) :
      RefusesPublication c publisher d (.invalid fault)
  /-- The publisher is not registered. -/
  | unknownPublisher (hd : ∀ fault, ¬ d.Flawed fault) (h : c.providers.roleOf publisher = none) :
      RefusesPublication c publisher d (.notFound (.publisher publisher))
  /-- It is registered, but not as a publisher. -/
  | notPublisher {role : Role} (hd : ∀ fault, ¬ d.Flawed fault)
      (h : c.providers.roleOf publisher = some role) (hrole : role ≠ .publisher) :
      RefusesPublication c publisher d (.invalid (.notPublisher publisher role))
  /-- An exposer is not registered as one. -/
  | notExposer {e : FunctionId} (hd : ∀ fault, ¬ d.Flawed fault)
      (hp : c.providers.roleOf publisher = some .publisher) (he : e ∈ d.exposers)
      (h : c.providers.roleOf e ≠ some .exposer) :
      RefusesPublication c publisher d (.invalid (.notExposer e))
  /-- The publisher has a stored API of the name. -/
  | nameTaken {id : ApiId} {a : PublishedApi} (hd : ∀ fault, ¬ d.Flawed fault)
      (hp : c.providers.roleOf publisher = some .publisher)
      (he : ∀ e ∈ d.exposers, c.providers.roleOf e = some .exposer)
      (ha : c.store.apis.get? id = some a) (hpublisher : a.publisher = publisher)
      (hname : a.name = d.name) :
      RefusesPublication c publisher d (.conflict (.nameTaken d.name publisher))

/-- What an accepted publication comes to: the API, and the state that is left. -/
structure Accepts (c : Core) (id : ApiId) (publisher : FunctionId) (d : ApiDescription)
    (now : Instant) (a : PublishedApi) (after : Core) : Prop where
  /-- The API has the identifier, the publisher and the description as it was given. -/
  api : a = ⟨id, publisher, d, now, now⟩
  /-- Nothing was stored under the identifier. -/
  free : c.store.apis.get? id = none
  /-- The API is the last one; those before it are as they were. -/
  apis : after.store.apis.entries = c.store.apis.entries ++ [(id, a)]
  /-- Its name is taken from now on. -/
  names : ∀ key, after.store.names.get? key =
    if key = (publisher, d.name) then some id else c.store.names.get? key
  /-- Nothing else is changed. -/
  rest : after = { c with store := after.store }

variable {c : Core} {publisher : FunctionId} {d : ApiDescription} {f : Failure}

/-- The check of a publication fails for a reason. -/
theorem refusesPublication_of_validate_eq_error (hs : c.store.Indexed)
    (h : c.store.validate c.providers publisher d = .error f) :
    c.RefusesPublication publisher d f := by
  simp only [Publications.validate, Outcome.andThen_eq_error_iff,
    ApiDescription.validate_eq_ok_iff, Providers.requirePublisher_eq_ok_iff,
    Providers.requireExposers_eq_ok_iff, Providers.requirePublisher_eq_error_iff] at h
  rcases h with h | ⟨hd, (⟨hnone, rfl⟩ | ⟨role, hrole, hne, rfl⟩) | ⟨hp, h | ⟨he, h⟩⟩⟩
  · obtain ⟨fault, rfl, hflawed⟩ := ApiDescription.flawed_of_validate_eq_error h
    exact .flawed hflawed
  · exact .unknownPublisher hd.not_flawed hnone
  · exact .notPublisher hd.not_flawed hrole hne
  · obtain ⟨e, he, hrole, rfl⟩ := Providers.exists_of_requireExposers_eq_error h
    exact .notExposer hd.not_flawed hp he hrole
  · unfold Publications.requireFree at h
    split at h
    · next htaken =>
      cases h
      obtain ⟨id, hid⟩ := Option.isSome_iff_exists.mp htaken
      obtain ⟨a, ha, hpublisher, hname⟩ := (hs.names publisher d.name id).mp hid
      exact .nameTaken hd.not_flawed hp he ha hpublisher hname
    · cases h

/-- What there is a reason to refuse does not pass. -/
theorem RefusesPublication.validate_ne_ok (hs : c.store.Indexed)
    (h : c.RefusesPublication publisher d f) :
    c.store.validate c.providers publisher d ≠ .ok () := by
  intro hok
  obtain ⟨hd, hp, he, hfree⟩ := Publications.validate_eq_ok_iff.mp hok
  cases h with
  | flawed h => exact hd.not_flawed _ h
  | unknownPublisher _ h => cases h.symm.trans hp
  | notPublisher _ h hrole => exact hrole (Option.some.inj (h.symm.trans hp))
  | notExposer _ _ hmem h => exact h (he _ hmem)
  | nameTaken _ _ _ ha hpublisher hname =>
    exact hs.contains_eq_false_iff.mp hfree _ _ ha hpublisher hname

/-- What passes is recorded under an identifier that is not in use. -/
theorem accepts_add {id : ApiId} (hfree : c.store.apis.get? id = none) (now : Instant) :
    c.Accepts id publisher d now ⟨id, publisher, d, now, now⟩
      { c with store := c.store.add ⟨id, publisher, d, now, now⟩ } where
  api := rfl
  free := hfree
  apis := Table.entries_insert_of_not_contains (Table.contains_eq_false_iff.mpr hfree)
  names := by
    intro key
    split
    · next hkey =>
      rw [hkey]
      exact Table.get?_insert_self _ _ _
    · next hkey => exact Table.get?_insert_of_ne _ _ hkey
  rest := rfl

end Core

namespace Flow

variable {α : Type} (p : Script) (log : Contacts) (c : Core)

/-- An errand is sent, and others move before its reply is taken. -/
theorem perform_errand (e : Errand) (next : Except Outage Unit → Core → Flow α) :
    (errand c e next).perform (.scripted p) log =
      (next (p.errand log.length e) (p.others log.length c)).perform (.scripted p)
        (log ++ [(.errand e, Outage.of? (p.errand log.length e))]) := rfl

/-- An announcement is sent, and others move before the flow goes on. -/
theorem perform_announce (change : Change) (next : Core → Flow α) :
    (announce c change next).perform (.scripted p) log =
      (next (p.others log.length c)).perform (.scripted p)
        (log ++ [(.notice change, Outage.of? (p.notice log.length change))]) := rfl

theorem perform_done (r : Outcome α) :
    (done c r).perform (.scripted p) log = ((c, r), log) := rfl

end Flow

namespace Command

open ApiExposure.Flow

variable {c : Core} {publisher : FunctionId} {d : ApiDescription} {o : Occasion} {p : Script}

/-- A publication that does not pass ends before any call. -/
theorem scripted_publish_of_refused {f : Failure}
    (h : c.store.validate c.providers publisher d = .error f) :
    (publish publisher d).scripted o c p = ((c, .error f), []) := by
  simp only [scripted, start, Core.publish, h, perform_done]

/-- One that passes has its endpoint set up; an outage ends it. -/
theorem scripted_publish_of_outage {outage : Outage}
    (h : c.store.validate c.providers publisher d = .ok ())
    (hcall : p.errand 0 (.provision (.generate (o.suffix 0)) publisher d) = .error outage) :
    (publish publisher d).scripted o c p =
      ((p.others 0 c, .error (.unavailable outage)),
        [(.errand (.provision (.generate (o.suffix 0)) publisher d), some outage)]) := by
  simp only [scripted, start, Core.publish, h, perform_errand, List.length_nil, hcall,
    perform_done, List.nil_append, Outage.of?]

/-- When the endpoint is set up and the API can be recorded, it is recorded and made known, and
that is all. -/
theorem scripted_publish_of_recorded {a : PublishedApi} {store : Publications}
    (h : c.store.validate c.providers publisher d = .ok ())
    (hcall : p.errand 0 (.provision (.generate (o.suffix 0)) publisher d) = .ok ())
    (hrecord : (p.others 0 c).store.publishAs (p.others 0 c).providers (.generate (o.suffix 0))
      publisher d o.now = .ok (a, store)) :
    (publish publisher d).scripted o c p =
      ((p.others 1 { p.others 0 c with store }, .ok a),
        [(.errand (.provision (.generate (o.suffix 0)) publisher d), none),
          (.notice (.ofApi .apiAvailable a),
            Outage.of? (p.notice 1 (.ofApi .apiAvailable a)))]) := by
  simp only [scripted, start, Core.publish, h, perform_errand, List.length_nil, hcall, hrecord,
    perform_announce, perform_done, List.nil_append, List.length_singleton, Outage.of?,
    List.singleton_append]

end Command

namespace System

open Command

variable {s : System}

/-- A start that is admitted brings an identifier that no command before it has generated. -/
theorem Admits.not_spent {t : Ticket} {command : Command} {o : Occasion}
    (h : s.Admits (.start t command o)) : ¬ s.Spent (.generate (o.suffix 0)) := by
  rintro ⟨k, j, hj, _, hid⟩
  exact (h o rfl).2 k j hj 0 0 (ApiId.generate_injective hid).symm

/-- Publications are accepted exactly. In every state that fresh identifiers lead to, a publication
that there is a reason to refuse fails for such a reason, without any call and without a change. If
there is none, and nothing else happens while the endpoint is set up, the endpoint is set up once.
If that fails, the publication fails with the outage and changes nothing. If it succeeds, the
publication succeeds: the API is added under an identifier of its own and made known, and the
endpoint is not taken down. -/
theorem publication_exact (hs : fresh.Precedes s) {t : Ticket} {publisher : FunctionId}
    {d : ApiDescription} {o : Occasion} (hfresh : s.Admits (.start t (.publish publisher d) o))
    {p : Script} (hquiet : ∀ c, p.others 0 c = c) :
    ((∃ f, s.core.RefusesPublication publisher d f) →
      ∃ f, s.core.RefusesPublication publisher d f ∧
        (publish publisher d).scripted o s.core p = ((s.core, .error f), [])) ∧
    ((¬ ∃ f, s.core.RefusesPublication publisher d f) →
      let provision := Errand.provision (.generate (o.suffix 0)) publisher d
      (∀ outage, p.errand 0 provision = .error outage →
        (publish publisher d).scripted o s.core p =
          ((s.core, .error (.unavailable outage)), [(.errand provision, some outage)])) ∧
      (p.errand 0 provision = .ok () → ¬ s.Spent (.generate (o.suffix 0)) ∧
        ∃ a after, s.core.Accepts (.generate (o.suffix 0)) publisher d o.now a after ∧
          (publish publisher d).scripted o s.core p = ((p.others 1 after, .ok a),
            [(.errand provision, none), (.notice (.ofApi .apiAvailable a),
              Outage.of? (p.notice 1 (.ofApi .apiAvailable a)))]))) := by
  have hindexed : s.core.store.Indexed := (hs.seen .fresh).reachable.indexed
  cases hcheck : s.core.store.validate s.core.providers publisher d with
  | error f =>
    have hrefused := Core.refusesPublication_of_validate_eq_error hindexed hcheck
    exact ⟨fun _ => ⟨f, hrefused, scripted_publish_of_refused hcheck⟩,
      fun hnone => absurd ⟨f, hrefused⟩ hnone⟩
  | ok u =>
    refine ⟨fun ⟨f, hf⟩ => absurd hcheck (hf.validate_ne_ok hindexed), fun _ => ⟨?_, ?_⟩⟩
    · intro outage hcall
      rw [scripted_publish_of_outage hcheck hcall, hquiet]
    · intro hcall
      have hspent := hfresh.not_spent
      have hfree : s.core.store.apis.get? (.generate (o.suffix 0)) = none :=
        Option.eq_none_iff_forall_ne_some.mpr fun a ha => hspent (hs.storeSpent _ a ha)
      have hrecord := Publications.publishAs_eq_ok_iff.mpr
        ⟨hcheck, hfree, rfl, (rfl : s.core.store.add ⟨_, publisher, d, o.now, o.now⟩ = _)⟩
      refine ⟨hspent, _, _, Core.accepts_add hfree o.now, ?_⟩
      rw [scripted_publish_of_recorded hcheck hcall (by rw [hquiet]; exact hrecord), hquiet]

/-- The sample API without a profile. -/
def bareApi : ApiDescription := { sampleApi with profiles := [] }

/-- The sample API is accepted after the registration of the sample domain, and it is refused
without a profile. -/
theorem publication_exact_sample :
    ∃ s a after, fresh.Precedes s ∧
      s.Admits (.start 1 (.publish samplePublisher sampleApi) (.lettered 'b' default)) ∧
      s.Admits (.start 1 (.publish samplePublisher bareApi) (.lettered 'b' default)) ∧
      (∀ c, sampleService.others 0 c = c) ∧
      s.core.Accepts (.generate "b") samplePublisher sampleApi default a after ∧
      (publish samplePublisher sampleApi).scripted (.lettered 'b' default) s.core sampleService =
        ((after, .ok a),
          [(.errand (.provision (.generate "b") samplePublisher sampleApi), none),
            (.notice (.ofApi .apiAvailable a), none)]) ∧
      s.core.RefusesPublication samplePublisher bareApi (.invalid .noProfile) ∧
      (publish samplePublisher bareApi).scripted (.lettered 'b' default) s.core sampleService =
        ((s.core, .error (.invalid .noProfile)), []) := by
  have hf (command : Command) :
      FreshIds (sampleRegistration ++ [.start 1 command (.lettered 'b' default)]) :=
    .of_letters ['a', 'b'] (by decide) rfl
  have hrun : (fresh.run sampleRegistration).map (fun s =>
      (((publish samplePublisher sampleApi).scripted (.lettered 'b' default) s.core
          sampleService).1.2.map (·.id),
        ((publish samplePublisher bareApi).scripted (.lettered 'b' default) s.core
          sampleService).1.2.map (·.id))) =
      some (.ok (.generate "b"), .error (.invalid .noProfile)) := rfl
  obtain ⟨s, hs, hresults⟩ := Option.map_eq_some_iff.mp hrun
  obtain ⟨hsound, hbare⟩ := Prod.mk.inj hresults
  have hstart : fresh.Precedes s := precedes_of_fresh_run (hf sampleRemoval).left hs
  have hadmits := admits_of_freshIds (hf (publish samplePublisher sampleApi)) hs
  have hadmitsBare := admits_of_freshIds (hf (publish samplePublisher bareApi)) hs
  obtain ⟨hrefused, haccepted⟩ :=
    publication_exact hstart hadmits (p := sampleService) (fun _ => rfl)
  obtain ⟨hrefusedBare, hacceptedBare⟩ :=
    publication_exact hstart hadmitsBare (p := sampleService) (fun _ => rfl)
  have hnone : ¬ ∃ f, s.core.RefusesPublication samplePublisher sampleApi f := by
    intro h
    obtain ⟨f, _, hfailed⟩ := hrefused h
    rw [hfailed] at hsound
    cases hsound
  obtain ⟨-, a, after, haccepts, hscripted⟩ := (haccepted hnone).2 rfl
  obtain ⟨f, hreason, hfailed⟩ := hrefusedBare ⟨_, .flawed (.noProfile rfl)⟩
  rw [hfailed] at hbare
  obtain rfl : f = .invalid .noProfile := Except.error.inj hbare
  exact ⟨s, a, after, hstart, hadmits, hadmitsBare, fun _ => rfl, haccepts, hscripted, hreason,
    hfailed⟩

end System

end ApiExposure
