import ApiExposure.Proofs.Authorization.Decision
import ApiExposure.Proofs.Revocation.Ledger

/-!
# Failures are atomic

A command that fails leaves every registry as it found it and makes nothing
known, however many steps it had taken and whatever its collaborators replied.
Most commands decide before they change anything. A bulk revocation does not: it
revokes grant by grant and could stop on its way, and it never does because the
grants in the registry have no blank field. So the grants are followed through
every state that may be seen.
-/

namespace ApiExposure

/-- Collaborators that reply at will, out of a memory of their own. -/
structure Collaborators (σ : Type) where
  /-- The outcome of an errand. -/
  errand : Errand → σ → Except Outage Unit × σ
  /-- The credentials of a new client. -/
  client : InvokerId → σ → Except Outage ClientCredentials × σ

namespace Flow

variable {α σ : Type}

/-- Surroundings in which nothing else happens: every call finds the state as it was left, and
each change that is made known goes on record. -/
def Surroundings.recording (k : Collaborators σ) : Surroundings (StateM (σ × List Change)) where
  errand c e := fun (memory, record) =>
    (((k.errand e memory).1, c), ((k.errand e memory).2, record))
  register c id := fun (memory, record) =>
    (((k.client id memory).1, c), ((k.client id memory).2, record))
  announce c change := fun (memory, record) => (c, (memory, record ++ [change]))

/-- Whatever the collaborators reply, a flow that fails ends in the given state and has made
nothing known. -/
def Atomic (c : Core) (f : Flow α) : Prop :=
  ∀ {σ : Type} (k : Collaborators σ) (memory : σ) (record : List Change) {d : Core} {e : Failure}
    {memory' : σ} {record' : List Change},
    f.perform (.recording k) (memory, record) = ((d, .error e), (memory', record')) →
      d = c ∧ record' = record

variable {c : Core}

/-- A flow that ends where it stands has neither changed nor announced anything. -/
theorem atomic_done (r : Outcome α) : (done c r).Atomic c := by
  intro _ _ _ _ _ _ _ _ h
  obtain ⟨hend, hscene⟩ := Prod.mk.inj h
  exact ⟨(Prod.mk.inj hend).1.symm, (Prod.mk.inj hscene).2.symm⟩

theorem atomic_ok (d : Core) (a : α) : (done d (.ok a)).Atomic c := by
  intro _ _ _ _ _ _ _ _ h
  cases h

/-- An operation without collaborators either succeeds or does nothing. -/
theorem atomic_ofOutcome (x : Outcome (α × Core)) : (ofOutcome c x).Atomic c := by
  cases x with
  | error e => exact atomic_done _
  | ok r => exact atomic_ok r.2 r.1

/-- A flow that waits for an errand is atomic when it goes on so after every reply. -/
theorem atomic_errand {d : Core} {e : Errand} {next : Except Outage Unit → Core → Flow α}
    (h : ∀ reply, (next reply d).Atomic c) : (errand d e next).Atomic c :=
  fun k memory record => h (k.errand e memory).1 k (k.errand e memory).2 record

/-- A flow that waits for a client is atomic when it is so with every reply. -/
theorem atomic_register {d : Core} {id : InvokerId}
    {next : Except Outage ClientCredentials → Core → Flow α}
    (h : ∀ reply, (next reply d).Atomic c) : (register d id next).Atomic c :=
  fun k memory record => h (k.client id memory).1 k (k.client id memory).2 record

/-- A settled flow ends in the state that it has reached and gives its result, whatever the
collaborators reply and whatever it still makes known. -/
theorem Settled.perform_recording {f : Flow α} {r : Outcome α} (h : f.Settled r)
    (k : Collaborators σ) (memory : σ) (record : List Change) :
    ∃ scene, f.perform (.recording k) (memory, record) = ((f.state, r), scene) := by
  induction f generalizing memory record with
  | done s result => exact ⟨_, congrArg (fun r => ((s, r), (memory, record))) h⟩
  | errand s e next ih =>
    obtain ⟨hstate, hr⟩ := h (k.errand e memory).1 s
    obtain ⟨scene, hscene⟩ := ih (k.errand e memory).1 s hr (k.errand e memory).2 record
    exact ⟨scene, hscene.trans (by rw [hstate]; rfl)⟩
  | register s id next ih =>
    obtain ⟨hstate, hr⟩ := h (k.client id memory).1 s
    obtain ⟨scene, hscene⟩ := ih (k.client id memory).1 s hr (k.client id memory).2 record
    exact ⟨scene, hscene.trans (by rw [hstate]; rfl)⟩
  | announce s change next ih =>
    obtain ⟨hstate, hr⟩ := h s
    obtain ⟨scene, hscene⟩ := ih s hr memory (record ++ [change])
    exact ⟨scene, hscene.trans (by rw [hstate]; rfl)⟩

/-- So a flow whose success is decided does not fail. -/
theorem Settled.atomic {f : Flow α} {a : α} (h : f.Settled (.ok a)) : f.Atomic c := by
  intro _ k memory record _ _ _ _ hp
  obtain ⟨scene, hscene⟩ := h.perform_recording k memory record
  cases hscene.symm.trans hp

/-- A change is made known only when all is done. -/
theorem atomic_announce (d : Core) (change : Change) (a : α) :
    (announce d change (fun s => done s (.ok a))).Atomic c :=
  have h : (announce d change (fun s => done s (.ok a))).Settled (.ok a) := fun _ => ⟨rfl, rfl⟩
  h.atomic

end Flow

namespace Command

variable {o : Occasion} {c : Core}

/-- A provider is found first, and from there on nothing fails. -/
theorem deregisterProvider_atomic (id : DomainId) :
    ((deregisterProvider id).start o c).Atomic c := by
  simp only [start, Core.deregisterProvider]
  cases c.providers.deregister id with
  | error f => exact Flow.atomic_done _
  | ok r => exact (settled_withdrawAll r.1 _ _ _).2.atomic

/-- A publication enters the API last, after the last reply that can spoil it. -/
theorem publish_atomic (publisher : FunctionId) (d : ApiDescription) :
    ((publish publisher d).start o c).Atomic c := by
  simp only [start, Core.publish]
  cases c.store.validate c.providers publisher d with
  | error f => exact Flow.atomic_done _
  | ok u =>
    refine Flow.atomic_errand fun reply => ?_
    cases reply with
    | error outage => exact Flow.atomic_done _
    | ok u =>
      dsimp only
      cases c.store.publishAs c.providers (.generate (o.suffix 0)) publisher d o.now with
      | error f => exact Flow.atomic_errand fun _ => Flow.atomic_done _
      | ok r => exact Flow.atomic_announce _ _ _

/-- A patch of an API is announced when it can no longer fail. -/
theorem updateApi_atomic (publisher : FunctionId) (id : ApiId) (p : ApiPatch) :
    ((updateApi publisher id p).start o c).Atomic c := by
  simp only [start, Core.updateApi]
  cases c.store.updateFor c.providers publisher id p o.now with
  | error f => exact Flow.atomic_done _
  | ok r => exact Flow.atomic_announce _ _ _

/-- A withdrawal takes the API out last, after the reply about its endpoint. -/
theorem unpublish_atomic (publisher : FunctionId) (id : ApiId) :
    ((unpublish publisher id).start o c).Atomic c := by
  simp only [start, Core.unpublish]
  cases c.store.getFor publisher id with
  | error f => exact Flow.atomic_done _
  | ok a =>
    refine Flow.atomic_errand fun reply => ?_
    cases reply with
    | error outage => exact Flow.atomic_done _
    | ok u =>
      dsimp only
      cases c.store.unpublish id with
      | error f => exact Flow.atomic_done _
      | ok r => exact Flow.atomic_announce _ _ _

/-- An onboarding that fails behind the client takes the client back and leaves the invokers alone.
-/
theorem onboard_atomic (e : Enrolment) : ((onboard e).start o c).Atomic c := by
  simp only [start, Core.onboard]
  cases e.validate with
  | error f => exact Flow.atomic_done _
  | ok u =>
    refine Flow.atomic_register fun reply => ?_
    cases reply with
    | error outage => exact Flow.atomic_done _
    | ok credentials =>
      dsimp only
      cases c.invokers.onboardAs (.generate (o.suffix 0)) e (c.store.grantable e.requested)
          o.now with
      | error f => exact Flow.atomic_errand fun _ => Flow.atomic_done _
      | ok r => exact Flow.atomic_announce _ _ _

/-- A patch of an invoker is announced when it can no longer fail. -/
theorem updateInvoker_atomic (id : InvokerId) (p : InvokerPatch) :
    ((updateInvoker id p).start o c).Atomic c := by
  simp only [start, Core.updateInvoker]
  cases c.invokers.update id p o.now with
  | error f => exact Flow.atomic_done _
  | ok r => exact Flow.atomic_announce _ _ _

/-- An offboarding takes the invoker out last, after the reply about its client. -/
theorem offboard_atomic (id : InvokerId) : ((offboard id).start o c).Atomic c := by
  simp only [start, Core.offboard]
  cases c.invokers.contains id with
  | false => exact Flow.atomic_done _
  | true =>
    refine Flow.atomic_errand fun reply => ?_
    cases reply with
    | error outage => exact Flow.atomic_done _
    | ok u =>
      dsimp only
      cases c.invokers.deregister id with
      | error f => exact Flow.atomic_done _
      | ok r => exact Flow.atomic_announce _ _ _

/-- A revocation is announced when it can no longer fail. -/
theorem revoke_atomic (call : Call) : ((revoke call).start o c).Atomic c := by
  simp only [start, Core.revoke]
  cases call.validate with
  | error f => exact Flow.atomic_done _
  | ok u => exact Flow.atomic_announce _ _ _

/-- A bulk revocation goes through to its end when the grants are complete. -/
theorem revokeAccess_atomic (hc : c.invokers.Complete) (id : InvokerId)
    (scope : RevocationScope) : ((revokeAccess id scope).start o c).Atomic c := by
  simp only [start, Core.revokeAccess]
  cases scope.isEmpty with
  | true => exact Flow.atomic_done _
  | false =>
    cases hg : c.invokers.grantsMatching id scope with
    | error f => exact Flow.atomic_done _
    | ok grants =>
      simp only [hc.revokeEach hg, Bool.false_eq_true, if_false]
      split
      · exact Flow.atomic_ok _ _
      · exact Flow.atomic_announce _ _ _

/-- Where all grants are complete every command is atomic. -/
theorem atomic_start (hc : c.invokers.Complete) (command : Command) (o : Occasion) :
    (command.start o c).Atomic c := by
  cases command with
  | registerProvider r => exact Flow.atomic_ofOutcome _
  | updateProvider id p => exact Flow.atomic_ofOutcome _
  | deregisterProvider id => exact deregisterProvider_atomic id
  | publish publisher d => exact publish_atomic publisher d
  | updateApi publisher id p => exact updateApi_atomic publisher id p
  | unpublish publisher id => exact unpublish_atomic publisher id
  | onboard e => exact onboard_atomic e
  | updateInvoker id p => exact updateInvoker_atomic id p
  | offboard id => exact offboard_atomic id
  | grant id g => exact Flow.atomic_ofOutcome _
  | removeGrant id g => exact Flow.atomic_ofOutcome _
  | revoke call => exact revoke_atomic call
  | revokeAccess id scope => exact revokeAccess_atomic hc id scope
  | createContext id context => exact Flow.atomic_ofOutcome _
  | updateContext id context => exact Flow.atomic_ofOutcome _
  | subscribe subscriber s => exact Flow.atomic_ofOutcome _
  | unsubscribe subscriber id => exact Flow.atomic_ofOutcome _
  | ask q => exact Flow.atomic_done _

end Command

namespace System

/-- In every state that may be seen the grants are complete. -/
theorem Seen.complete {s : System} (hs : s.Seen) : s.core.invokers.Complete :=
  hs.core_invariant (P := fun c => c.invokers.Complete) Invokers.complete_empty
    (fun hwell hc he => he.complete hwell hc) (fun _ hc => hc) fun _ _ hc => hc

/-- Failures are atomic: in every state that may be seen, a command that is performed with nothing
else happening and that fails leaves all registries exactly as they were and makes nothing known,
whatever its collaborators replied. -/
theorem failure_atomic {s : System} (hs : s.Seen) (command : Command) (o : Occasion) {σ : Type}
    (k : Collaborators σ) {memory memory' : σ} {record record' : List Change} {d : Core}
    {e : Failure}
    (h : (command.start o s.core).perform (.recording k) (memory, record) =
      ((d, .error e), (memory', record'))) :
    d = s.core ∧ record' = record :=
  command.atomic_start hs.complete o k memory record h

/-- Collaborators of which the first that is asked is out of order. -/
def sampleOutage : Collaborators Nat where
  errand _ asked :=
    (if asked = 0 then .error ⟨.deploymentAutomation, "down"⟩ else .ok (), asked + 1)
  client id asked := (.ok ⟨id.text, "secret"⟩, asked + 1)

/-- The withdrawal of the sample API. -/
def sampleWithdrawal : Command := .unpublish samplePublisher (.generate "b")

/-- The sample API stays in every respect when its endpoint cannot be taken down. -/
theorem failure_atomic_sample :
    ∃ (s : System) (d : Core) (record : List Change), s.Seen ∧
      (sampleWithdrawal.start (.lettered 'd' default) s.core).perform (.recording sampleOutage)
        (0, []) = ((d, .error (.unavailable ⟨.deploymentAutomation, "down"⟩)), (1, record)) ∧
      d = s.core ∧ record = [] := by
  let withdraw (s : System) := (sampleWithdrawal.start (.lettered 'd' default) s.core).perform
    (.recording sampleOutage) (0, [])
  have hresult : (fresh.run sampleGranting).map (fun s => ((withdraw s).1.2, (withdraw s).2.1)) =
      some (.error (.unavailable ⟨.deploymentAutomation, "down"⟩), 1) := rfl
  obtain ⟨s, hs, hend⟩ := Option.map_eq_some_iff.mp hresult
  obtain ⟨hfailed, hasked⟩ := Prod.mk.inj hend
  have hperform : withdraw s = (((withdraw s).1.1,
      .error (.unavailable ⟨.deploymentAutomation, "down"⟩)), (1, (withdraw s).2.2)) :=
    Prod.ext (Prod.ext rfl hfailed) (Prod.ext hasked rfl)
  have hseen : s.Seen := seen_run hs
  exact ⟨s, _, _, hseen, hperform, failure_atomic hseen sampleWithdrawal _ sampleOutage hperform⟩

end System

end ApiExposure
