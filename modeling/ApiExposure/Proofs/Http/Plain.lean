import ApiExposure.Proofs.Http.Orders
import ApiExposure.Proofs.Invokers.Offboarding
import ApiExposure.Proofs.Providers.Lifetime

/-!
# Plain identifiers

A generated identifier is a word with a suffix behind it. Where all suffixes are made
of letters and digits, the identifiers have nothing in them that a path or a header
could take amiss. Functions and invokers never have any others, so this holds of all
that a path has to name, in every state that a run reaches. The subscriber of an event
subscription is the one name that comes from outside.
-/

namespace ApiExposure

namespace Text

/-- A character of a generated identifier. -/
def isPlainChar (c : Char) : Bool :=
  '0' ≤ c && c ≤ '9' || 'A' ≤ c && c ≤ 'Z' || 'a' ≤ c && c ≤ 'z' || c == '_'

/-- Whether a text has at least one character and only those of generated identifiers. -/
def isPlain (text : String) : Bool := !text.toList.isEmpty && text.toList.all isPlainChar

/-- Plain texts one after the other are plain. -/
theorem isPlain_append {s t : String} (hs : isPlain s = true) (ht : isPlain t = true) :
    isPlain (s ++ t) = true := by
  simp only [isPlain, String.toList_append, Bool.and_eq_true, List.all_append] at hs ht ⊢
  refine ⟨?_, hs.2, ht.2⟩
  cases h : s.toList with
  | nil => simp [h] at hs
  | cons c cs => rfl

/-- A plain character is a visible one, and it separates nothing. -/
theorem of_isPlainChar {c : Char} (h : isPlainChar c = true) :
    32 ≤ c.toNat ∧ c.toNat < 127 ∧ c ≠ '/' ∧ c ≠ '?' ∧ c ≠ '#' ∧ c ≠ '%' := by
  have hcode : 48 ≤ c.toNat ∧ c.toNat ≤ 57 ∨ 65 ≤ c.toNat ∧ c.toNat ≤ 90 ∨
      97 ≤ c.toNat ∧ c.toNat ≤ 122 ∨ c.toNat = 95 := by
    simp only [isPlainChar, Bool.or_eq_true, Bool.and_eq_true, decide_eq_true_eq, beq_iff_eq,
      Char.le_def, UInt32.le_iff_toNat_le] at h
    rcases h with ((h | h) | h) | rfl
    · exact .inl h
    · exact .inr (.inl h)
    · exact .inr (.inr (.inl h))
    · exact .inr (.inr (.inr rfl))
  refine ⟨by omega, by omega, ?_, ?_, ?_, ?_⟩ <;> rintro rfl <;> revert hcode <;> decide

end Text

open Text

/-- An occasion whose suffixes are plain. -/
def Occasion.Plain (o : Occasion) : Prop := ∀ n, isPlain (o.suffix n) = true

/-- So are those that repeat a letter. -/
theorem Occasion.plain_lettered {letter : Char} (h : isPlainChar letter = true) (now : Instant) :
    (lettered letter now).Plain := by
  intro n
  simp [isPlain, lettered, h]

/-- With a plain suffix the identifier of a function is plain. -/
theorem FunctionId.isPlain_generate (role : Role) {suffix : Suffix} (h : isPlain suffix = true) :
    isPlain (generate role suffix).text = true := by
  have hword : isPlain (role.code ++ "_") = true := by cases role <;> decide
  exact isPlain_append hword h

theorem DomainId.isPlain_generate {suffix : Suffix} (h : isPlain suffix = true) :
    isPlain (generate suffix).text = true :=
  isPlain_append (by decide) h

theorem ApiId.isPlain_generate {suffix : Suffix} (h : isPlain suffix = true) :
    isPlain (generate suffix).text = true :=
  isPlain_append (by decide) h

theorem InvokerId.isPlain_generate {suffix : Suffix} (h : isPlain suffix = true) :
    isPlain (generate suffix).text = true :=
  isPlain_append (by decide) h

/-- All functions and invokers have plain identifiers. -/
structure Core.Plain (c : Core) : Prop where
  /-- Functions. -/
  functions : ∀ id, c.providers.functions.get? id ≠ none → isPlain id.text = true
  /-- Invokers. -/
  invokers : ∀ id, c.invokers.table.get? id ≠ none → isPlain id.text = true

theorem Core.plain_fresh : Core.fresh.Plain :=
  ⟨fun _ h => absurd rfl h, fun _ h => absurd rfl h⟩

/-- What a command enters on an occasion with plain suffixes has a plain identifier. -/
theorem Effect.plain {o : Occasion} {command : Command} {c d : Core} {r : Outcome command.Result}
    (h : Effect o command c r d) (ho : o.Plain) (hc : c.Plain) : d.Plain where
  functions := by
    have hissued : ∀ {q : Providers}, Providers.OnlyIssued o c.providers q →
        ∀ id, q.functions.get? id ≠ none → isPlain id.text = true := by
      intro q hq id hid
      by_cases hissues : o.Issues id
      · obtain ⟨role, n, rfl⟩ := hissues
        exact FunctionId.isPlain_generate role (ho n)
      · rw [hq id hissues] at hid
        exact hc.functions id hid
    intro id hid
    rcases h.providers_cases with hsame | ⟨_, ⟨_, _, hregister⟩ | ⟨_, _, _, hupdate⟩⟩ |
      ⟨_, _, hderegister⟩
    · rw [hsame] at hid
      exact hc.functions id hid
    · exact hissued (Providers.onlyIssued_register hregister) id hid
    · exact hissued (Providers.onlyIssued_update hupdate) id hid
    · rw [Providers.get?_deregister hderegister] at hid
      split at hid
      · exact absurd rfl hid
      · exact hc.functions id hid
  invokers := by
    intro id hid
    rcases h.enrolled_cases hid with hheld | rfl
    · exact hc.invokers id hheld
    · exact InvokerId.isPlain_generate (ho 0)

section Created

variable {o : Occasion} {c d : Core}

/-- A domain that is entered is named by the first suffix. -/
theorem Effect.id_of_registerProvider {g : DomainRegistration} {domain : ProviderDomain}
    (h : Effect o (.registerProvider g) c (.ok domain) d) :
    domain.id = .generate (o.suffix 0) := by
  cases h with
  | registered h =>
    obtain ⟨_, h⟩ := Outcome.andThen_eq_ok_iff.mp h
    obtain ⟨_, _, h⟩ := Outcome.bind_eq_ok_iff.mp h
    cases h
    rfl

/-- So is an API, and its publisher is a function. -/
theorem Effect.ids_of_publish {publisher : FunctionId} {description : ApiDescription}
    {a : PublishedApi} (h : Effect o (.publish publisher description) c (.ok a) d) :
    a.id = .generate (o.suffix 0) ∧ a.publisher = publisher ∧
      c.providers.functions.get? publisher ≠ none := by
  cases h with
  | published h =>
    obtain ⟨hvalid, _, rfl, _⟩ := Publications.publishAs_eq_ok_iff.mp h
    obtain ⟨_, hrole, _⟩ := Publications.validate_eq_ok_iff.mp hvalid
    refine ⟨rfl, rfl, fun hnone => ?_⟩
    rw [Providers.roleOf, hnone] at hrole
    cases hrole

/-- A context is stored under the identifier of an invoker. -/
theorem Effect.enrolled_of_createContext {id : InvokerId} {context stored : SecurityContext}
    (h : Effect o (.createContext id context) c (.ok stored) d) :
    c.invokers.table.get? id ≠ none := by
  cases h with
  | contextCreated h => exact (TrustedInvokers.of_create_eq_ok h).1

end Created

namespace System

/-- Along a run whose suffixes are plain, functions and invokers have plain identifiers. -/
theorem plain_run {ms : List Move} {s : System} (h : fresh.run ms = some s)
    (hms : ∀ o ∈ ms.filterMap Move.occasion?, o.Plain) : s.core.Plain := by
  refine core_induction_of_starts Core.plain_fresh h fun hstart hc he => he.plain ?_ hc
  exact hms _ (List.mem_filterMap.mpr ⟨_, hstart, rfl⟩)

end System

namespace Http

namespace Response

/-- Whether a response tells of success. -/
def isSuccess (response : Response) : Bool := 200 ≤ response.status && response.status < 300

/-- Two texts fit a header together when each does. -/
theorem fitsHeader_append (s t : String) :
    fitsHeader (s ++ t) = (fitsHeader s && fitsHeader t) := by
  simp only [fitsHeader, String.toList_append, List.all_append]

/-- Plain identifiers can stand in a header. -/
theorem fitsHeader_of_isPlain {text : String} (h : isPlain text = true) :
    fitsHeader text = true := by
  simp only [isPlain, Bool.and_eq_true] at h
  refine List.all_eq_true.mpr fun c hc => ?_
  obtain ⟨hlow, hhigh, _⟩ := of_isPlainChar (List.all_eq_true.mp h.2 c hc)
  simp only [Bool.or_eq_true, Bool.and_eq_true, decide_eq_true_eq, bne_iff_ne]
  exact .inr ⟨hlow, by omega⟩

/-- So can running numbers. -/
theorem fitsHeader_toString (n : Nat) : fitsHeader (toString n) = true := by
  refine fitsHeader_of_isPlain ?_
  simp only [isPlain, Nat.toString_eq_repr, Nat.toList_repr, Bool.and_eq_true,
    List.all_eq_true, Bool.not_eq_true', List.isEmpty_eq_false_iff]
  refine ⟨Nat.toDigits_ne_nil, fun c hc => ?_⟩
  have hdigit : '0' ≤ c ∧ c ≤ '9' := by
    simpa [Char.isDigit, Char.le_def] using Nat.isDigit_of_mem_toDigits (by decide) (by decide) hc
  simp [isPlainChar, hdigit]

/-- A location that fits is answered with what was created. -/
theorem created_of_fits {location : String} (h : fitsHeader location = true) (value : Json) :
    created location value =
      { status := 201, location := some location, body := .json value } := by
  rw [created, if_pos h]

end Response

end Http

end ApiExposure
