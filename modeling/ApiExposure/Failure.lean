import ApiExposure.Identifier
import ApiExposure.Net.Url

/-!
# Failures

Why an operation did not happen: a fault of the request, something that is not
there, a conflict with something that is, a denial, or a collaborator that
could not be reached. Only the last is worth a retry, and it never stands for a
decision about access.
-/

namespace ApiExposure

/-- Why access is denied. -/
inductive DenyReason where
  /-- The invoker is not onboarded. -/
  | unknownInvoker
  /-- No live grant covers the call. -/
  | notGranted
  /-- The call was revoked. -/
  | revoked
  /-- The version of the API has expired. -/
  | expired
  deriving DecidableEq, Repr, Inhabited

namespace DenyReason

/-- Every reason. -/
def all : List DenyReason := [unknownInvoker, notGranted, revoked, expired]

/-- The machine-readable name. -/
def code : DenyReason → String
  | unknownInvoker => "unknown_invoker"
  | notGranted => "not_granted"
  | revoked => "revoked"
  | expired => "expired"

/-- Reads a reason from JSON. -/
def decode : Decoder DenyReason := Decoder.named all code

/-- The JSON form. -/
def toJson (r : DenyReason) : Json := .str r.code

instance : JsonForm DenyReason := ⟨decode, toJson⟩

/-- A reason is read back from its word. -/
theorem decode_toJson (r : DenyReason) : decode (Draft.ofJson r.toJson) = .ok r := by
  cases r <;> rfl

end DenyReason

/-- Parties outside the registries. -/
inductive Collaborator where
  /-- Holds one client per invoker. -/
  | identityProvider
  /-- Provisions endpoints. -/
  | deploymentAutomation
  /-- Takes events. -/
  | eventNotification
  deriving DecidableEq, Repr, Inhabited

namespace Collaborator

/-- Every collaborator. -/
def all : List Collaborator := [identityProvider, deploymentAutomation, eventNotification]

/-- The machine-readable name. -/
def code : Collaborator → String
  | identityProvider => "identity_provider"
  | deploymentAutomation => "deployment_automation"
  | eventNotification => "event_notification"

/-- The name in messages. -/
def word : Collaborator → String
  | identityProvider => "identity provider"
  | deploymentAutomation => "deployment automation"
  | eventNotification => "event notification"

/-- Reads a collaborator from JSON. -/
def decode : Decoder Collaborator := Decoder.named all code

/-- The JSON form. -/
def toJson (c : Collaborator) : Json := .str c.code

instance : JsonForm Collaborator := ⟨decode, toJson⟩

/-- A collaborator is read back from its word. -/
theorem decode_toJson (c : Collaborator) : decode (Draft.ofJson c.toJson) = .ok c := by
  cases c <;> rfl

end Collaborator

/-- A call to a collaborator that failed. -/
structure Outage where
  /-- The party that was called. -/
  collaborator : Collaborator
  /-- Its account of the failure. -/
  message : String
  deriving DecidableEq, Repr, Inhabited

/-- Faults of a request. -/
inductive Fault where
  /-- A function registers without public key. -/
  | missingFunctionKey
  /-- A new function has no role. -/
  | missingRole
  /-- A new function has no registration. -/
  | missingRegistration
  /-- A domain registers without credential. -/
  | missingCredential
  /-- A patch blanks the credential of a domain. -/
  | blankCredential
  /-- A patch changes the role of a function. -/
  | roleChange (function : FunctionId) (held wanted : Role)
  /-- An API has a blank name. -/
  | blankApiName
  /-- An API has no profile. -/
  | noProfile
  /-- A profile names no exposer. -/
  | blankExposer
  /-- Two profiles name one exposer. -/
  | repeatedExposer (function : FunctionId)
  /-- A version has a blank name. -/
  | blankVersion
  /-- Two versions have one name. -/
  | repeatedVersion (version : String)
  /-- A patch renames an API. -/
  | rename (api : ApiId) (held wanted : String)
  /-- An invoker has no public key. -/
  | missingInvokerKey
  /-- A destination is no URL. -/
  | badDestination (destination : String) (error : UrlError)
  /-- A grant has a blank field. -/
  | incompleteGrant
  /-- A call has a blank field. -/
  | incompleteCall
  /-- A security entry prefers no method. -/
  | noPreference
  /-- A security entry has neither an interface nor an API. -/
  | noTarget
  /-- No method is on offer. -/
  | noCommonMethod (api : Option ApiId)
  /-- A security context has no destination. -/
  | missingDestination
  /-- A security context has no entry. -/
  | noSecurityEntry
  /-- A subscription names no kind of event. -/
  | noEventKind
  /-- A subscriber is blank. -/
  | blankSubscriber
  /-- A function is registered but does not publish. -/
  | notPublisher (function : FunctionId) (role : Role)
  /-- A function is not registered as an exposer. -/
  | notExposer (function : FunctionId)
  /-- A grant differs from the API that it names. -/
  | grantMismatch (api : ApiId)
  /-- A revocation scope selects nothing. -/
  | emptyScope
  /-- An invoker is needed that is not onboarded. -/
  | notOnboarded (invoker : InvokerId)
  /-- A fault in the words of the caller. -/
  | stated (message : String)
  deriving DecidableEq, Repr

/-- Things that were looked for and are not there. -/
inductive Absence where
  /-- A provider domain. -/
  | domain (id : DomainId)
  /-- A function of any domain. -/
  | function (id : FunctionId)
  /-- A publishing function. -/
  | publisher (id : FunctionId)
  /-- A function of one domain. -/
  | functionOf (id : FunctionId) (domain : DomainId)
  /-- A published API. -/
  | api (id : ApiId)
  /-- An invoker. -/
  | invoker (id : InvokerId)
  /-- A grant of an invoker. -/
  | grant (api : ApiId) (exposer : FunctionId) (invoker : InvokerId)
  /-- A security context. -/
  | trustedInvoker (id : InvokerId)
  /-- A subscription of a subscriber. -/
  | subscription (id : SubscriptionId) (subscriber : String)
  /-- Something in the words of the caller. -/
  | stated (message : String)
  deriving DecidableEq, Repr

/-- Things that are there and stand in the way. -/
inductive Clash where
  /-- The publisher has an API of that name. -/
  | nameTaken (name : String) (publisher : FunctionId)
  /-- The identifier names another API. -/
  | apiIdTaken (id : ApiId)
  /-- The identifier names an onboarded invoker. -/
  | alreadyOnboarded (id : InvokerId)
  /-- Something in the words of the caller. -/
  | stated (message : String)
  deriving DecidableEq, Repr

/-- Why an operation did not happen. -/
inductive Failure where
  /-- The request is faulty. -/
  | invalid (fault : Fault)
  /-- Something is not there. -/
  | notFound (absence : Absence)
  /-- Something stands in the way. -/
  | conflict (clash : Clash)
  /-- Access is denied. -/
  | denied (reason : DenyReason)
  /-- A collaborator failed. -/
  | unavailable (outage : Outage)
  deriving DecidableEq, Repr

/-- The outcome of an operation that may fail. -/
abbrev Outcome (α : Type) := Except Failure α

/-- Two steps succeed exactly when the first does and the second does with its value. -/
theorem Outcome.bind_eq_ok_iff {α β : Type} {x : Outcome α} {f : α → Outcome β} {b : β} :
    (x >>= f) = .ok b ↔ ∃ a, x = .ok a ∧ f a = .ok b := by
  cases x with
  | error e => simp [bind, Except.bind]
  | ok a => simp [bind, Except.bind]

/-- A check with what comes after it succeeds exactly when both do. -/
theorem Outcome.andThen_eq_ok_iff {β : Type} {x : Outcome Unit} {y : Outcome β} {b : β} :
    (x >>= fun _ => y) = .ok b ↔ x = .ok () ∧ y = .ok b := by
  rw [bind_eq_ok_iff]
  exact ⟨fun ⟨_, hx, hy⟩ => ⟨hx, hy⟩, fun ⟨hx, hy⟩ => ⟨(), hx, hy⟩⟩

namespace Outage

/-- The wording of an outage. -/
def text (o : Outage) : String := o.collaborator.word ++ " unavailable: " ++ o.message

end Outage

namespace Fault

/-- The wording of a fault. -/
def text : Fault → String
  | missingFunctionKey => "registration info is missing the provider public key"
  | missingRole => "provider function is missing a role"
  | missingRegistration => "provider function is missing registration info"
  | missingCredential => "provider domain is missing the registration security credential"
  | blankCredential => "registration security credential must not be blank"
  | roleChange function held wanted =>
    "function " ++ function.text ++ " cannot change role from " ++ held.word ++ " to "
      ++ wanted.word
  | blankApiName => "apiName must not be blank"
  | noProfile => "a published API needs at least one AEF profile"
  | blankExposer => "aefId must not be blank"
  | repeatedExposer function => "AEF " ++ function.text ++ " is listed more than once"
  | blankVersion => "apiVersion must not be blank"
  | repeatedVersion version => "version " ++ version ++ " is listed more than once"
  | rename api held wanted =>
    "apiName of " ++ api.text ++ " is " ++ held ++ " and cannot be changed to " ++ wanted
  | missingInvokerKey => "onboarding information is missing the invoker public key"
  | badDestination destination error =>
    "invalid notification destination '" ++ destination ++ "': " ++ error.message
  | incompleteGrant => "grant needs apiId, aefId, apiName and apiVersion"
  | incompleteCall => "apiInvokerId, aefId, apiName and apiVersion are all required"
  | noPreference => "security information is missing prefSecurityMethods"
  | noTarget => "security information needs either interfaceDetails or an apiId"
  | noCommonMethod api =>
    "no compatible security method for API " ++ (api.map ApiId.text).getD "<unspecified>"
  | missingDestination => "service security is missing notificationDestination"
  | noSecurityEntry => "service security is missing securityInfo"
  | noEventKind => "subscription must name at least one event"
  | blankSubscriber => "subscriber id must not be blank"
  | notPublisher function role =>
    "function " ++ function.text ++ " is a " ++ role.word ++ ", not a publisher"
  | notExposer function => "AEF " ++ function.text ++ " is not a registered exposer function"
  | grantMismatch api => "grant does not match service API " ++ api.text
  | emptyScope => "revocation scope needs an aefId or apiIds"
  | notOnboarded invoker => "invoker " ++ invoker.text ++ " is not onboarded"
  | stated message => message

end Fault

namespace Absence

/-- The wording of an absence. -/
def text : Absence → String
  | domain id => "provider domain " ++ id.text
  | function id => "provider function " ++ id.text
  | publisher id => "publisher function " ++ id.text
  | functionOf id owner => "function " ++ id.text ++ " in domain " ++ owner.text
  | api id => "service API " ++ id.text
  | invoker id => "invoker " ++ id.text
  | grant id exposer holder =>
    "grant of " ++ id.text ++ " on " ++ exposer.text ++ " for invoker " ++ holder.text
  | trustedInvoker id => "trusted invoker " ++ id.text
  | subscription id subscriber => "subscription " ++ id.text ++ " of " ++ subscriber
  | stated message => message

end Absence

namespace Clash

/-- The wording of a clash. -/
def text : Clash → String
  | nameTaken name publisher =>
    "API " ++ name ++ " is already published by " ++ publisher.text
  | apiIdTaken id => "API id " ++ id.text ++ " is taken"
  | alreadyOnboarded id => "invoker " ++ id.text ++ " is already onboarded"
  | stated message => message

end Clash

namespace Failure

/-- The wording of a failure. -/
def text : Failure → String
  | invalid fault => "Validation failed: " ++ fault.text
  | notFound absence => "Not found: " ++ absence.text
  | conflict clash => "Conflict: " ++ clash.text
  | denied reason => "Access denied: " ++ reason.code
  | unavailable outage => outage.text

/-- Only an outage is worth a retry. -/
def isRetryable : Failure → Bool
  | unavailable _ => true
  | _ => false

/-- Only outages are worth another try. -/
theorem isRetryable_iff {f : Failure} : f.isRetryable = true ↔ ∃ o, f = .unavailable o := by
  cases f <;> simp [isRetryable]

end Failure

/-- Succeeds when the condition holds, and fails with the fault otherwise. -/
def require (condition : Bool) (fault : Fault) : Outcome Unit :=
  if condition then .ok () else .error (.invalid fault)

/-- A required condition passes when it holds. -/
theorem require_eq_ok_iff {condition : Bool} {fault : Fault} :
    require condition fault = .ok () ↔ condition = true := by
  cases condition <;> simp [require]

/-- Checks that a destination is a URL. -/
def requireUrl (destination : String) : Outcome Unit :=
  match Url.check destination with
  | .ok _ => .ok ()
  | .error e => .error (.invalid (.badDestination destination e))

end ApiExposure
