import ApiExposure.Identifier

/-!
# When two subscriptions have one name

A subscription is named by its subscriber with its running number behind it, and
nothing stands between the two. So the name does not tell where the number
begins: two names are the same when the leading digits of the later number stand
at the end of the earlier subscriber. Names are told apart as long as this does
not happen, for instance when no subscriber continues another by digits.
-/

namespace ApiExposure

/-- Digits behind a greater number make a greater number. -/
theorem ofDigitChars_le_ofDigitChars (digits : List Char) {a b : Nat} (h : a ≤ b) :
    Nat.ofDigitChars 10 digits a ≤ Nat.ofDigitChars 10 digits b := by
  induction digits generalizing a b with
  | nil => exact h
  | cons c digits ih =>
    rw [Nat.ofDigitChars_cons, Nat.ofDigitChars_cons]
    exact ih (by omega)

/-- A number whose digits end in those of another is no smaller. -/
theorem le_of_toString_eq_append {m n : Nat} {lead : String}
    (h : toString n = lead ++ toString m) : m ≤ n := by
  have hdigits : Nat.toDigits 10 n = lead.toList ++ Nat.toDigits 10 m := by
    simpa only [Nat.toString_eq_repr, String.toList_append, Nat.toList_repr] using
      congrArg String.toList h
  calc m = Nat.ofDigitChars 10 (Nat.toDigits 10 m) 0 :=
        (Nat.ofDigitChars_toDigits (by decide) (by decide)).symm
    _ ≤ Nat.ofDigitChars 10 (Nat.toDigits 10 m) (Nat.ofDigitChars 10 lead.toList 0) :=
        ofDigitChars_le_ofDigitChars _ (Nat.zero_le _)
    _ = Nat.ofDigitChars 10 (Nat.toDigits 10 n) 0 := by
        rw [hdigits, Nat.ofDigitChars_append]
    _ = n := Nat.ofDigitChars_toDigits (by decide) (by decide)

/-- Only digits stand in front of the digits of a number within those of another. -/
theorem isDigit_of_toString_eq_append {m n : Nat} {lead : String}
    (h : toString n = lead ++ toString m) {c : Char} (hc : c ∈ lead.toList) :
    c.isDigit = true := by
  have hmem : c ∈ Nat.toDigits 10 n := by
    rw [← Nat.toList_repr, ← Nat.toString_eq_repr, h, String.toList_append]
    exact List.mem_append_left _ hc
  exact Nat.isDigit_of_mem_toDigits (by decide) (by decide) hmem

namespace SubscriptionId

/-- A later subscription is named as an earlier one exactly when the earlier subscriber is the
later one followed by the leading digits of the later number, and the other digits are the
earlier number. -/
theorem forSubscriber_eq_iff {s t : String} {m n : Nat} (h : m < n) :
    forSubscriber s m = forSubscriber t n ↔
      ∃ lead, s = t ++ lead ∧ toString n = lead ++ toString m := by
  constructor
  · intro he
    have htext : s.toList ++ (toString m).toList = t.toList ++ (toString n).toList := by
      simpa only [forSubscriber, SubscriptionId.mk.injEq, ← String.toList_inj,
        String.toList_append] using he
    rcases List.append_eq_append_iff.mp htext with ⟨lead, ht, hm⟩ | ⟨lead, hs, hn⟩
    · have hm' : toString m = String.ofList lead ++ toString n := by
        simpa only [← String.toList_inj, String.toList_append, String.toList_ofList] using hm
      exact absurd (le_of_toString_eq_append hm') (Nat.not_le.mpr h)
    · refine ⟨String.ofList lead, ?_, ?_⟩
      · simpa only [← String.toList_inj, String.toList_append, String.toList_ofList] using hs
      · simpa only [← String.toList_inj, String.toList_append, String.toList_ofList] using hn
  · rintro ⟨lead, rfl, hn⟩
    rw [forSubscriber, forSubscriber, hn, String.append_assoc]

/-- Subscribers in the order of their subscriptions, of which no earlier one is a later one
followed by leading digits of the later number, with the earlier number behind them. -/
def ToldApart (subscribers : List String) : Prop :=
  ∀ (i j : Nat) (hi : i < subscribers.length) (hj : j < subscribers.length), i < j →
    ∀ lead, subscribers[i] = subscribers[j] ++ lead →
      toString (j + 1) ≠ lead ++ toString (i + 1)

/-- Subscriptions numbered from one have different names exactly when their subscribers are told
apart. -/
theorem nodup_iff_toldApart {subscribers : List String} :
    (subscribers.mapIdx (fun i s => forSubscriber s (i + 1))).Nodup ↔ ToldApart subscribers := by
  simp only [List.Nodup, List.pairwise_iff_getElem, List.length_mapIdx, List.getElem_mapIdx]
  constructor
  · intro h i j hi hj hij lead hs hn
    exact h i j hi hj hij ((forSubscriber_eq_iff (Nat.succ_lt_succ hij)).mpr ⟨lead, hs, hn⟩)
  · intro h i j hi hj hij he
    obtain ⟨lead, hs, hn⟩ := (forSubscriber_eq_iff (Nat.succ_lt_succ hij)).mp he
    exact h i j hi hj hij lead hs hn

/-- Subscribers of whom none continues another by digits are told apart. -/
theorem toldApart_of_no_digits {subscribers : List String}
    (h : ∀ s ∈ subscribers, ∀ t ∈ subscribers, ∀ lead : String, s = t ++ lead →
      (∀ c ∈ lead.toList, c.isDigit = true) → lead = "") :
    ToldApart subscribers := by
  intro i j hi hj hij lead hs hn
  have hlead : lead = "" := h _ (List.getElem_mem hi) _ (List.getElem_mem hj) lead hs
    fun c hc => isDigit_of_toString_eq_append hn hc
  subst hlead
  have hback : toString (i + 1) = "" ++ toString (j + 1) := by
    rw [hn, String.empty_append, String.empty_append]
  have hle := le_of_toString_eq_append hback
  omega

end SubscriptionId

end ApiExposure
