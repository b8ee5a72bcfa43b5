import Mathlib.Data.List.Permutation
import ApiExposure.Proofs.WriteBack.Held

/-!
# Reading and writing back

A client that reads a resource and writes back what it read, with all the members that it does not
understand, changes nothing but the time of the last change. This holds in every state that a run
with fresh identifiers reaches, for what it writes back is read as the patch that repeats the
resource, and all that the registries hold passes the checks that such a patch has to pass.

What a text is decoded to is needed for the APIs only: a location holds whatever JSON was in the
text, and an expiry is the instant that was written there.
-/

namespace ApiExposure

/-- A form is read as one patch, from its value and from its text, and the command with this patch
takes effect at once: it leaves a state, and it succeeds with a result. -/
def WrittenBack {π α : Type} (decode : Decoder π) (form : Json) (start : π → Flow α)
    (after : Core) (result : α) : Prop :=
  ∃ p, Decoder.ofJson decode form = .ok p ∧ Decoder.ofText decode form.compact = .ok p ∧
    (start p).state = after ∧ (start p).Settled (.ok result)

/-- A form that can be read back from its text is written back alike from the value and from the
text. -/
theorem WrittenBack.of_textual {π α : Type} {decode : Decoder π} {form : Json}
    {start : π → Flow α} {after : Core} {result : α} {p : π} (hform : form.Textual Json.deepest)
    (hp : Decoder.ofJson decode form = .ok p)
    (hstart : (start p).state = after ∧ (start p).Settled (.ok result)) :
    WrittenBack decode form start after result :=
  ⟨p, hp, (hform.ofText_compact decode).trans hp, hstart⟩

namespace System

variable {ms : List Move} {s : System}

/-- An API goes back as it was. -/
theorem api_written_back (hf : FreshIds ms) (h : fresh.run ms = some s)
    (hms : ∀ command ∈ ms.filterMap Move.command?, command.Decoded) (o : Occasion)
    {publisher : FunctionId} {id : ApiId} {a : PublishedApi}
    (ha : s.core.store.getFor publisher id = .ok a) :
    WrittenBack ApiPatch.decode a.toJson (fun p => (Command.updateApi publisher id p).start o s.core)
      (s.core.touchApi id o.now) { a with updatedAt := o.now } := by
  have hstored := (Publications.getFor_eq_ok_iff.mp ha).1
  have hread := (inOrder_run h hms).apis id a hstored
  have hupdate := Publications.updateFor_asPatch o.now ha (wellFormed_run h id a hstored)
    ((integral_run hf h).backed id a hstored).exposers
  refine .of_textual (PublishedApi.textual (n := 121) hread.listsKeep fun p hp =>
    (hread.profiles p hp).integral) (PublishedApi.decode_asPatch hread.listsKeep) ?_
  simp only [Command.start, Core.updateApi, hupdate]
  exact ⟨rfl, fun _ => ⟨rfl, rfl⟩⟩

/-- So does a domain. -/
theorem provider_written_back (hf : FreshIds ms) (h : fresh.run ms = some s)
    (hms : ∀ command ∈ ms.filterMap Move.command?, command.Decoded) (o : Occasion)
    {id : DomainId} {d : ProviderDomain} (hd : s.core.providers.get id = .ok d) :
    WrittenBack DomainPatch.decode d.toJson (fun p => (Command.updateProvider id p).start o s.core)
      (s.core.touchProvider id o.now) { d with updatedAt := o.now } := by
  have hheld := Providers.get_eq_ok_iff.mp hd
  have hprecedes : fresh.Precedes s := precedes_of_fresh_run hf h
  have hregistered := hprecedes.registered .fresh orderly_fresh registered_fresh
  have hupdate := Providers.update_asPatch o hd (hregistered.agrees.distinct hheld)
    ((inOrder_run h hms).domains id d hheld)
  refine .of_textual (ProviderDomain.textual (n := 123) d) d.decode_asPatch ?_
  simp only [Command.start, Core.updateProvider, hupdate, bind, Except.bind, Flow.ofOutcome]
  exact ⟨rfl, rfl⟩

/-- So does an invoker. -/
theorem invoker_written_back (h : fresh.run ms = some s)
    (hms : ∀ command ∈ ms.filterMap Move.command?, command.Decoded) (o : Occasion)
    {id : InvokerId} {i : InvokerIdentity} (hi : s.core.invokers.get id = .ok i) :
    WrittenBack InvokerPatch.decode i.toJson (fun p => (Command.updateInvoker id p).start o s.core)
      (s.core.touchInvoker id o.now) { i with updatedAt := o.now } := by
  have hupdate := Invokers.update_asPatch o.now hi
    ((inOrder_run h hms).invokers id i (Invokers.get_eq_ok_iff.mp hi))
  refine .of_textual (InvokerIdentity.textual (n := 124) i) i.decode_asPatch ?_
  simp only [Command.start, Core.updateInvoker, hupdate]
  exact ⟨rfl, fun _ => ⟨rfl, rfl⟩⟩

/-- In every state that a run with fresh identifiers and decoded commands reaches, what is read of
an API, a domain or an invoker can be written back as a patch. It is accepted, and all registries
stay as they are but for the time of the last change of what was written. -/
theorem write_back_unchanged (hf : FreshIds ms) (h : fresh.run ms = some s)
    (hms : ∀ command ∈ ms.filterMap Move.command?, command.Decoded) (o : Occasion) :
    (∀ publisher id a, s.core.store.getFor publisher id = .ok a →
      WrittenBack ApiPatch.decode a.toJson
        (fun p => (Command.updateApi publisher id p).start o s.core)
        (s.core.touchApi id o.now) { a with updatedAt := o.now }) ∧
    (∀ id d, s.core.providers.get id = .ok d →
      WrittenBack DomainPatch.decode d.toJson
        (fun p => (Command.updateProvider id p).start o s.core)
        (s.core.touchProvider id o.now) { d with updatedAt := o.now }) ∧
    ∀ id i, s.core.invokers.get id = .ok i →
      WrittenBack InvokerPatch.decode i.toJson
        (fun p => (Command.updateInvoker id p).start o s.core)
        (s.core.touchInvoker id o.now) { i with updatedAt := o.now } :=
  ⟨fun _ _ _ ha => api_written_back hf h hms o ha,
    fun _ _ hd => provider_written_back hf h hms o hd,
    fun _ _ hi => invoker_written_back h hms o hi⟩

/-- The description of an API with an address, as a publisher may write it. -/
def sampleDescriptionText : String :=
  "\x7b\"apiName\":\"maps\",\"aefProfiles\":[\x7b\"aefId\":\"AEF_aaa\",\"aefLocation\":
  \x7b\"civicAddr\":\x7b\"floor\":3\x7d\x7d\x7d],\"versions\":[\x7b\"apiVersion\":\"v1\"\x7d]\x7d"

/-- That text as read. -/
def sampleDescriptionDraft : Draft :=
  .obj [
    (some "apiName", .str "maps"),
    (some "aefProfiles", .arr [.obj [
      (some "aefId", .str "AEF_aaa"),
      (some "aefLocation", .obj [
        (some "civicAddr", .obj [(some "floor", .int 3)] true)] true)] true] true),
    (some "versions", .arr [.obj [(some "apiVersion", .str "v1")] true] true)] true

/-- That text as decoded. -/
def sampleDescription : ApiDescription where
  name := "maps"
  profiles := [{
    exposer := .generate .exposer "aaa"
    location := some { civicAddress := some (.obj [("floor", .int 3)]) } }]
  versions := [{ name := "v1" }]

set_option maxRecDepth 100000 in
/-- The text of the sample description is a draft as a whole. -/
theorem read_sampleDescriptionText :
    Json.Text.read sampleDescriptionText = ⟨sampleDescriptionDraft, true⟩ := by cbv

/-- The sample description is one that was decoded. -/
theorem decoded_sampleDescription : sampleDescription.Decoded := by
  constructor
  · refine ⟨sampleDescriptionText, ?_⟩
    rw [Decoder.ofText, read_sampleDescriptionText]
    rfl
  · intro p hp l hl
    cases List.mem_singleton.mp hp
    cases hl
    refine ⟨fun v hv => ?_, fun v hv => ?_⟩
    · cases hv
      cbv
    · cases hv

/-- A domain is registered, the API is published, and an invoker is onboarded. -/
def samplePopulation : List Move := [
  .start 0 (.registerProvider sampleDomain) (.lettered 'a' default),
  .start 1 (.publish samplePublisher sampleDescription) (.lettered 'b' default),
  .resume 1 (.errand (.ok ())),
  .start 2 (.onboard { onboarding := { publicKey := "key" }, requested := [.generate "b"] })
    (.lettered 'c' default),
  .resume 2 (.client (.ok ⟨"client", "secret"⟩))]

/-- What is read of the API, the domain and the invoker can be written back later. -/
theorem write_back_unchanged_sample :
    FreshIds samplePopulation ∧
      (∀ command ∈ samplePopulation.filterMap Move.command?, command.Decoded) ∧
      ∃ (s : System) (a : PublishedApi) (d : ProviderDomain) (i : InvokerIdentity),
        fresh.run samplePopulation = some s ∧
        s.core.store.getFor samplePublisher (.generate "b") = .ok a ∧
        s.core.providers.get (.generate "a") = .ok d ∧
        s.core.invokers.get (.generate "c") = .ok i ∧
        ∀ o : Occasion,
          WrittenBack ApiPatch.decode a.toJson
            (fun p => (Command.updateApi samplePublisher (.generate "b") p).start o s.core)
            (s.core.touchApi (.generate "b") o.now) { a with updatedAt := o.now } ∧
          WrittenBack DomainPatch.decode d.toJson
            (fun p => (Command.updateProvider (.generate "a") p).start o s.core)
            (s.core.touchProvider (.generate "a") o.now) { d with updatedAt := o.now } ∧
          WrittenBack InvokerPatch.decode i.toJson
            (fun p => (Command.updateInvoker (.generate "c") p).start o s.core)
            (s.core.touchInvoker (.generate "c") o.now) { i with updatedAt := o.now } := by
  have hfresh : FreshIds samplePopulation := .of_letters ['a', 'b', 'c'] (by decide) rfl
  have hdecoded : ∀ command ∈ samplePopulation.filterMap Move.command?, command.Decoded :=
    List.forall_mem_cons.mpr ⟨trivial, List.forall_mem_cons.mpr ⟨decoded_sampleDescription,
      List.forall_mem_singleton.mpr trivial⟩⟩
  have hheld : (fresh.run samplePopulation).map (fun s =>
      ((s.core.store.getFor samplePublisher (.generate "b")).isOk,
        (s.core.providers.get (.generate "a")).isOk,
        (s.core.invokers.get (.generate "c")).isOk)) = some (true, true, true) := by
    decide +kernel
  obtain ⟨s, hs, hheld⟩ := Option.map_eq_some_iff.mp hheld
  simp only [Prod.mk.injEq] at hheld
  obtain ⟨hapi, hdomain, hinvoker⟩ := hheld
  have hex {α : Type} {x : Outcome α} (h : x.isOk = true) : ∃ v, x = .ok v := by
    cases x with
    | error _ => cases h
    | ok v => exact ⟨v, rfl⟩
  obtain ⟨a, ha⟩ := hex hapi
  obtain ⟨d, hd⟩ := hex hdomain
  obtain ⟨i, hi⟩ := hex hinvoker
  refine ⟨hfresh, hdecoded, s, a, d, i, hs, ha, hd, hi, fun o => ?_⟩
  obtain ⟨hapis, hdomains, hinvokers⟩ := write_back_unchanged hfresh hs hdecoded o
  exact ⟨hapis _ _ a ha, hdomains _ d hd, hinvokers _ i hi⟩

end System

end ApiExposure
