import VAuth.Dbus.Histories

/-!
# Secrets reach only their prompt

The buffer for a secret lies outside of the record of the pending request and is emptied by
some of the transitions only: a secret may be left over while the request goes on. It is never
handed out then, since a request that has left a prompt has no prompt until the next one, and
the next prompt empties the buffer.

What was submitted and what was delivered are compared as lists. The secret in the buffer, as
long as its prompt is open, is the one submission that is still due (`outstanding`).
-/

namespace VAuth.Dbus

def submissions (trace : List Occurrence) : List PromptSecret :=
  trace.filterMap fun
    | .submitted secret => some secret
    | _ => none

def deliveries (trace : List Occurrence) : List PromptSecret :=
  trace.filterMap fun
    | .delivered secret => some secret
    | _ => none

/-- Both are for the same prompt of the same request of the same user. -/
def PromptSecret.samePrompt (s t : PromptSecret) : Bool :=
  t.user == s.user && t.requestId == s.requestId && t.promptId == s.promptId

/-- The request has come to another state, or its worker tried to bring it there. -/
def Occurrence.moves (requestId : UInt64) : Occurrence → Bool
  | .published id _ _ => id == requestId
  | .suppressed id => id == requestId
  | _ => false

/-- A delivered secret was submitted after its prompt was published, and the request has not
moved since. -/
def Justified (past : List Occurrence) : Occurrence → Prop
  | .delivered secret => ∃ before since,
      past = before ++ .published secret.requestId secret.promptId .secretRequired :: since ∧
      .submitted secret ∈ since ∧ ∀ o ∈ since, o.moves secret.requestId = false
  | _ => True

/-- What a history says about secrets. -/
structure SecretsKept (trace : List Occurrence) : Prop where
  justified : Proc.AtEach Justified trace
  submittedOnce : ∀ secret, .delivered secret ∈ trace →
    (submissions trace).filter secret.samePrompt = [secret]
  deliveredOnce : ∀ secret, .delivered secret ∈ trace →
    (deliveries trace).filter secret.samePrompt = [secret]
  handedOut : (deliveries trace).Sublist (submissions trace)

variable {secret : PromptSecret} {trace : List Occurrence}

theorem filter_samePrompt {l : List PromptSecret}
    (h : l.Pairwise fun s t => s.promptId ≠ t.promptId) (hMem : secret ∈ l) :
    l.filter secret.samePrompt = [secret] := by
  induction l with
  | nil => exact absurd hMem List.not_mem_nil
  | cons s l ih =>
    obtain ⟨hHead, hTail⟩ := List.pairwise_cons.mp h
    rcases List.mem_cons.mp hMem with rfl | hMem
    · have hNone : l.filter secret.samePrompt = [] := by
        refine List.filter_eq_nil_iff.mpr fun t ht hSame => ?_
        simp only [PromptSecret.samePrompt, Bool.and_eq_true, beq_iff_eq] at hSame
        exact hHead t ht hSame.2.symm
      rw [List.filter_cons_of_pos (by simp [PromptSecret.samePrompt]), hNone]
    · have hOther : ¬ secret.samePrompt s = true := by
        intro hSame
        simp only [PromptSecret.samePrompt, Bool.and_eq_true, beq_iff_eq] at hSame
        exact hHead secret hMem hSame.2
      rw [List.filter_cons_of_neg hOther]
      exact ih hTail hMem

theorem mem_submissions (h : .submitted secret ∈ trace) : secret ∈ submissions trace :=
  List.mem_filterMap.mpr ⟨_, h, rfl⟩

theorem mem_deliveries (h : .delivered secret ∈ trace) : secret ∈ deliveries trace :=
  List.mem_filterMap.mpr ⟨_, h, rfl⟩

namespace InteractionRegistry

/-- The submission that the open prompt has not handed out. -/
def outstanding (r : InteractionRegistry) : List PromptSecret :=
  match r.current, r.secretResponse with
  | some p, some secret =>
    if p.promptId = 0 then [] else [⟨p.user, p.requestId, p.promptId, secret⟩]
  | _, _ => []

/-- No prompt has two submissions, and what is handed out or due was submitted. -/
structure Counted (past : List Occurrence) (r : InteractionRegistry) : Prop where
  unique : (submissions past).Pairwise fun s t => s.promptId ≠ t.promptId
  below : ∀ s ∈ submissions past, s.promptId < r.nextPromptId
  handedOut : (deliveries past ++ r.outstanding).Sublist (submissions past)
  awaited : ∀ p, r.current = some p → p.promptId ≠ 0 → p.promptId < r.nextPromptId ∧
    (p.secretSubmitted = false → r.secretResponse = none ∧
      ∀ s ∈ submissions past, s.promptId ≠ p.promptId)

/-- An open prompt was published, the request has not moved since, and a secret in the buffer
was submitted for it. -/
structure Placed (past : List Occurrence) (r : InteractionRegistry) : Prop where
  justified : Proc.AtEach Justified past
  opened : ∀ p, r.current = some p → p.promptId ≠ 0 → p.cancelRequested = false →
    ∃ before since, past = before ++ .published p.requestId p.promptId .secretRequired :: since ∧
      (∀ o ∈ since, o.moves p.requestId = false) ∧
      ∀ secret, r.secretResponse = some secret →
        .submitted ⟨p.user, p.requestId, p.promptId, secret⟩ ∈ since

section

variable {past : List Occurrence} {r r' : InteractionRegistry} {p : PendingInteraction}
  {past' : List Occurrence}

/-! ## Counting -/

theorem Counted.keeps (h : Counted past r) (hPrompts : r'.nextPromptId = r.nextPromptId)
    (hSubmissions : submissions past' = submissions past)
    (hDeliveries : deliveries past' = deliveries past)
    (hCurrent : ∀ p', r'.current = some p' → p'.promptId ≠ 0 → ∃ p, r.current = some p ∧
      p'.promptId = p.promptId ∧ p'.requestId = p.requestId ∧ p'.user = p.user ∧
      p'.secretSubmitted = p.secretSubmitted ∧ r'.secretResponse = r.secretResponse) :
    Counted past' r' := by
  refine ⟨?_, ?_, ?_, ?_⟩
  · rw [hSubmissions]
    exact h.unique
  · rw [hSubmissions, hPrompts]
    exact h.below
  · rw [hSubmissions, hDeliveries]
    refine List.Sublist.trans ?_ h.handedOut
    refine List.Sublist.append_left ?_ _
    unfold outstanding
    split
    · rename_i p' secret hp' hSecret
      by_cases hPrompt : p'.promptId = 0
      · rw [if_pos hPrompt]
        exact List.nil_sublist _
      · obtain ⟨p, hp, hId, hRequest, hUser, _, hBuffer⟩ := hCurrent p' hp' hPrompt
        rw [hp, ← hBuffer, hSecret, hId, hRequest, hUser]
    · exact List.nil_sublist _
  · intro p' hp' hPrompt
    obtain ⟨p, hp, hId, _, _, hSubmitted, hBuffer⟩ := hCurrent p' hp' hPrompt
    rw [hId, hSubmitted, hBuffer, hPrompts, hSubmissions]
    rw [hId] at hPrompt
    exact h.awaited p hp hPrompt

theorem Counted.prompted (h : Counted past r) (hFresh : exhausted r.nextPromptId = false)
    (hSubmissions : submissions past' = submissions past)
    (hDeliveries : deliveries past' = deliveries past) (hPrompt : p.promptId = r.nextPromptId)
    (hCurrent : r'.current = some p) (hSecret : r'.secretResponse = none)
    (hNext : r'.nextPromptId = r.nextPromptId + 1) : Counted past' r' := by
  have hLt := lt_of_not_exhausted hFresh
  refine ⟨?_, ?_, ?_, ?_⟩
  · rw [hSubmissions]
    exact h.unique
  · rw [hSubmissions, hNext]
    exact fun s hs => UInt64.lt_trans (h.below s hs) hLt
  · rw [hSubmissions, hDeliveries]
    unfold outstanding
    rw [hCurrent, hSecret, List.append_nil]
    exact (List.sublist_append_left _ _).trans h.handedOut
  · intro p' hp' _
    obtain rfl : p = p' := Option.some.inj (hCurrent.symm.trans hp')
    rw [hPrompt, hNext, hSecret, hSubmissions]
    refine ⟨hLt, fun _ => ⟨rfl, fun s hs hEq => ?_⟩⟩
    have hBelow := h.below s hs
    rw [hEq] at hBelow
    exact UInt64.lt_irrefl _ hBelow

theorem Counted.submitted (h : Counted past r) (hCurrent : r.current = some p)
    (hPrompt : p.promptId ≠ 0) (hFirst : p.secretSubmitted = false) (secret : Bytes) :
    Counted (past ++ [.submitted ⟨p.user, p.requestId, p.promptId, secret⟩]) { r with
      current := some { p with secretSubmitted := true }, secretResponse := some secret } := by
  obtain ⟨hLt, hFree⟩ := h.awaited p hCurrent hPrompt
  obtain ⟨hEmpty, hNew⟩ := hFree hFirst
  have hSubmissions : ∀ s, submissions (past ++ [.submitted s]) = submissions past ++ [s] := by
    intro s
    simp [submissions]
  have hDeliveries : ∀ s, deliveries (past ++ [.submitted s]) = deliveries past := by
    intro s
    simp [deliveries]
  refine ⟨?_, ?_, ?_, ?_⟩
  · rw [hSubmissions]
    refine List.pairwise_append.mpr ⟨h.unique, List.pairwise_singleton _ _, fun s hs t ht => ?_⟩
    rw [List.mem_singleton.mp ht]
    exact hNew s hs
  · intro s hs
    rw [hSubmissions] at hs
    rcases List.mem_append.mp hs with hs | hs
    · exact h.below s hs
    · rw [List.mem_singleton.mp hs]
      exact hLt
  · rw [hSubmissions, hDeliveries]
    have hDue : outstanding { r with
        current := some { p with secretSubmitted := true }, secretResponse := some secret } =
        [⟨p.user, p.requestId, p.promptId, secret⟩] := if_neg hPrompt
    rw [hDue]
    exact ((List.sublist_append_left _ _).trans h.handedOut).append_right _
  · rintro p' ⟨⟩ _
    exact ⟨hLt, fun hSubmitted => Bool.noConfusion hSubmitted⟩

theorem Counted.delivered (h : Counted past r) (hCurrent : r.current = some p)
    (hPrompt : p.promptId ≠ 0) {secret : Bytes} (hSecret : r.secretResponse = some secret) :
    Counted (past ++ [.delivered ⟨p.user, p.requestId, p.promptId, secret⟩])
      { r with secretResponse := none } := by
  have hSubmissions : ∀ s, submissions (past ++ [.delivered s]) = submissions past := by
    intro s
    simp [submissions]
  have hDeliveries : ∀ s, deliveries (past ++ [.delivered s]) = deliveries past ++ [s] := by
    intro s
    simp [deliveries]
  have hDue : r.outstanding = [⟨p.user, p.requestId, p.promptId, secret⟩] := by
    unfold outstanding
    rw [hCurrent, hSecret]
    exact if_neg hPrompt
  have hEmptied : outstanding { r with secretResponse := none } = [] := by
    unfold outstanding
    rw [hCurrent]
  refine ⟨?_, ?_, ?_, ?_⟩
  · rw [hSubmissions]
    exact h.unique
  · rw [hSubmissions]
    exact h.below
  · rw [hSubmissions, hDeliveries, hEmptied, List.append_nil, ← hDue]
    exact h.handedOut
  · intro p' hp' hPrompt'
    obtain ⟨hLt, hFree⟩ := h.awaited p' hp' hPrompt'
    rw [hSubmissions]
    exact ⟨hLt, fun hFirst => ⟨rfl, (hFree hFirst).2⟩⟩

theorem counted_init : Counted [] {} := by
  refine ⟨.nil, fun _ hs => absurd hs List.not_mem_nil, .slnil, fun p hCurrent => ?_⟩
  cases hCurrent

variable {o : Option Occurrence}

theorem Counted.step (h : Counted past r) (hEffect : Effect r o r') :
    Counted (past ++ o.toList) r' := by
  cases hEffect with
  | begun hNone hFresh =>
    refine h.keeps rfl (by simp [submissions]) (by simp [deliveries]) ?_
    rintro p' ⟨⟩ hPrompt
    exact absurd rfl hPrompt
  | @published p state message hCurrent hValid hFresh hOpen =>
    have hSubmissions : ∀ promptId,
        submissions (past ++ [.published p.requestId promptId state]) = submissions past := by
      intro promptId
      simp [submissions]
    have hDeliveries : ∀ promptId,
        deliveries (past ++ [.published p.requestId promptId state]) = deliveries past := by
      intro promptId
      simp [deliveries]
    by_cases hSecret : state = .secretRequired
    · subst hSecret
      rw [enter_prompt]
      exact h.prompted (hFresh rfl) (hSubmissions _) (hDeliveries _) rfl rfl rfl rfl
    · by_cases hTerminal : isTerminal state = true
      · rw [enter_terminal hTerminal]
        refine h.keeps rfl (hSubmissions _) (hDeliveries _) fun p' hp' => ?_
        cases hp'
      · rw [enter_progress hSecret (eq_false_of_ne_true hTerminal)]
        refine h.keeps rfl (hSubmissions _) (hDeliveries _) ?_
        rintro p' ⟨⟩ hPrompt
        exact absurd rfl hPrompt
  | suppressed hCurrent hCancel =>
    exact h.keeps rfl (by simp [submissions]) (by simp [deliveries])
      fun p' hp' _ => ⟨p', hp', rfl, rfl, rfl, rfl, rfl⟩
  | @answered p approved hCurrent hOpen =>
    refine h.keeps rfl (by simp [submissions]) (by simp [deliveries]) ?_
    rintro p' ⟨⟩ _
    exact ⟨p, hCurrent, rfl, rfl, rfl, rfl, rfl⟩
  | submitted hCurrent hPrompt hState hFirst hOpen =>
    exact h.submitted hCurrent hPrompt hFirst _
  | @cancelled p hCurrent hState hOpen =>
    refine h.keeps rfl (by simp [submissions]) (by simp [deliveries]) ?_
    rintro p' ⟨⟩ _
    exact ⟨p, hCurrent, rfl, rfl, rfl, rfl, rfl⟩
  | delivered hCurrent hPrompt hOpen hSecret => exact h.delivered hCurrent hPrompt hSecret
  | @abandoned p hCurrent =>
    refine h.keeps rfl (by simp [submissions]) (by simp [deliveries]) ?_
    rintro p' ⟨⟩ _
    exact ⟨p, hCurrent, rfl, rfl, rfl, rfl, rfl⟩
  | dropped =>
    refine h.keeps rfl (by simp) (by simp) fun p' hp' => ?_
    cases hp'
  | unchanged =>
    exact h.keeps rfl (by simp) (by simp) fun p' hp' _ => ⟨p', hp', rfl, rfl, rfl, rfl, rfl⟩

/-! ## The place of a submission -/

theorem Placed.stays (h : Placed past r) (hCurrent : r.current = some p) {o : Occurrence}
    (hJustified : Justified past o) (hStill : o.moves p.requestId = false)
    (hAfter : ∀ p', r'.current = some p' → p'.promptId = p.promptId ∧
      p'.requestId = p.requestId ∧ p'.user = p.user ∧ p'.cancelRequested = p.cancelRequested)
    (hBuffer : ∀ secret, r'.secretResponse = some secret → r.secretResponse = some secret ∨
      o = .submitted ⟨p.user, p.requestId, p.promptId, secret⟩) : Placed (past ++ [o]) r' := by
  refine ⟨h.justified.snoc hJustified, fun p' hp' hPrompt hOpen => ?_⟩
  obtain ⟨hId, hRequest, hUser, hCancel⟩ := hAfter p' hp'
  rw [hId] at hPrompt
  rw [hCancel] at hOpen
  rw [hId, hRequest, hUser]
  obtain ⟨before, since, hPast, hSince, hSubmitted⟩ := h.opened p hCurrent hPrompt hOpen
  refine ⟨before, since ++ [o], ?_, ?_, fun secret hSecret => ?_⟩
  · rw [hPast, List.append_assoc, List.cons_append]
  · intro o' ho'
    rcases List.mem_append.mp ho' with ho' | ho'
    · exact hSince o' ho'
    · rw [List.mem_singleton.mp ho']
      exact hStill
  · rcases hBuffer secret hSecret with hOld | hNew
    · exact List.mem_append_left _ (hSubmitted secret hOld)
    · rw [← hNew]
      exact List.mem_append_right _ List.mem_cons_self

theorem Placed.shuts (h : Placed past r) {o : Occurrence} (hJustified : Justified past o)
    (hShut : ∀ p', r'.current = some p' → p'.promptId ≠ 0 → p'.cancelRequested = true) :
    Placed (past ++ [o]) r' := by
  refine ⟨h.justified.snoc hJustified, fun p' hp' hPrompt hOpen => ?_⟩
  rw [hShut p' hp' hPrompt] at hOpen
  cases hOpen

theorem placed_init : Placed [] {} := by
  refine ⟨Proc.atEach_nil, fun p hCurrent => ?_⟩
  cases hCurrent

theorem Placed.step (h : Placed past r) (hEffect : Effect r o r') :
    Placed (past ++ o.toList) r' := by
  cases hEffect with
  | begun hNone hFresh =>
    refine h.shuts trivial ?_
    rintro p' ⟨⟩ hPrompt
    exact absurd rfl hPrompt
  | @published p state message hCurrent hValid hFresh hOpen =>
    by_cases hSecret : state = .secretRequired
    · subst hSecret
      rw [enter_prompt]
      refine ⟨h.justified.snoc trivial, ?_⟩
      rintro p' ⟨⟩ _ _
      refine ⟨past, [], rfl, fun o ho => absurd ho List.not_mem_nil, fun secret hSecret => ?_⟩
      cases hSecret
    · by_cases hTerminal : isTerminal state = true
      · rw [enter_terminal hTerminal]
        refine h.shuts trivial fun p' hp' => ?_
        cases hp'
      · rw [enter_progress hSecret (eq_false_of_ne_true hTerminal)]
        refine h.shuts trivial ?_
        rintro p' ⟨⟩ hPrompt
        exact absurd rfl hPrompt
  | @suppressed p hCurrent hCancel =>
    refine h.shuts trivial fun p' hp' _ => ?_
    rw [← Option.some.inj (hCurrent.symm.trans hp')]
    exact hCancel
  | @answered p approved hCurrent hOpen =>
    refine h.stays hCurrent trivial rfl ?_ fun _ hSecret => .inl hSecret
    rintro p' ⟨⟩
    exact ⟨rfl, rfl, rfl, rfl⟩
  | @submitted p secret hCurrent hPrompt hState hFirst hOpen =>
    refine h.stays hCurrent trivial rfl ?_ ?_
    · rintro p' ⟨⟩
      exact ⟨rfl, rfl, rfl, rfl⟩
    · rintro _ ⟨⟩
      exact .inr rfl
  | @cancelled p hCurrent hState hOpen =>
    refine h.shuts trivial ?_
    rintro p' ⟨⟩ _
    rfl
  | @delivered p secret hCurrent hPrompt hOpen hSecret =>
    obtain ⟨before, since, hPast, hSince, hSubmitted⟩ := h.opened p hCurrent hPrompt hOpen
    refine h.stays hCurrent ⟨before, since, hPast, hSubmitted secret hSecret, hSince⟩ rfl ?_ ?_
    · intro p' hp'
      rw [← Option.some.inj (hCurrent.symm.trans hp')]
      exact ⟨rfl, rfl, rfl, rfl⟩
    · intro _ hEmpty
      cases hEmpty
  | @abandoned p hCurrent =>
    refine h.stays hCurrent trivial rfl ?_ fun _ hSecret => .inl hSecret
    rintro p' ⟨⟩
    exact ⟨rfl, rfl, rfl, rfl⟩
  | dropped =>
    rw [Option.toList_none, List.append_nil]
    refine ⟨h.justified, fun p' hp' => ?_⟩
    cases hp'
  | unchanged =>
    rw [Option.toList_none, List.append_nil]
    exact h

end

end InteractionRegistry

/-- **Secrets reach only their prompt, once.** Whatever is called on a registry, in any order
and with any arguments. -/
theorem secrets_reach_only_their_prompt (calls : List RegistryCall) :
    SecretsKept (occurrences calls) := by
  have hCounted := InteractionRegistry.occurrences_invariant InteractionRegistry.counted_init
    (fun _ _ _ _ h hEffect => h.step hEffect) calls
  have hPlaced := InteractionRegistry.occurrences_invariant InteractionRegistry.placed_init
    (fun _ _ _ _ h hEffect => h.step hEffect) calls
  have hHanded : (deliveries (occurrences calls)).Sublist (submissions (occurrences calls)) :=
    (List.sublist_append_left _ _).trans hCounted.handedOut
  refine ⟨hPlaced.justified, fun secret hMem => ?_, fun secret hMem => ?_, hHanded⟩
  · exact filter_samePrompt hCounted.unique (hHanded.subset (mem_deliveries hMem))
  · exact filter_samePrompt (hCounted.unique.sublist hHanded) (mem_deliveries hMem)

end VAuth.Dbus
