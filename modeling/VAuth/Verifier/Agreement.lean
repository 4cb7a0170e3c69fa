import Mathlib.Data.List.Basic
import VAuth.Verifier.Authenticity

/-!
# Honest endpoints never refuse each other

The daemon's client, the broker and the worker, all running this code, with cancellations,
stops, timeouts, failures of system calls and deaths at any moment: no party refuses a packet
that it takes off a wire. Each end only hears what the other end has said; where the order
matters, on the broker's end of the outer link, the prompts and the answers are counted.
-/

namespace VAuth.Verifier

open Proc

/-! ## The worker -/

def VerifierMessage.sender : VerifierMessage → VerifierMessageSender
  | .start _ => .daemon
  | .secretResponse _ => .daemon
  | .cancel => .daemon
  | .status _ => .pamVerifier
  | .secretRequired _ => .pamVerifier
  | .complete _ => .pamVerifier

theorem Advances.sender_eq {c next : VerifierConversationState} {sender : VerifierMessageSender}
    {message : VerifierMessage} (h : Advances c sender message next) : message.sender = sender := by
  cases h <;> rfl

/-- The worker waits for its start packet and for the answers to its prompts. -/
def WorkerListens (c : VerifierConversationState) : Prop := c = .awaitingStart ∨ c = .awaitingSecret

/-- How the worker talks. It may send on when its conversation is over, and it may be left
waiting for an answer when a `receive` has failed. -/
inductive WorkerTalk : History → VerifierConversationState → Prop
  | nil : WorkerTalk [] .awaitingStart
  | hears {t : History} {c next : VerifierConversationState} {message : VerifierMessage}
      {packet : Bytes} (h : WorkerTalk t c) (hListens : WorkerListens c)
      (hPacket : encodeVerifierMessage message = .ok packet)
      (hNext : advanceVerifierConversation c .daemon message = .ok next) :
      WorkerTalk (t ++ [.received .inner .daemon packet]) next
  | refuses {t : History} {c : VerifierConversationState} {packet : Bytes} (h : WorkerTalk t c)
      (hListens : WorkerListens c) (hUnfit : Unfit c .daemon packet) :
      WorkerTalk (t ++ [.refused .inner .daemon packet]) c
  | tells {t : History} {c next : VerifierConversationState} {message : VerifierMessage}
      {packet : Bytes} (h : WorkerTalk t c) (hPacket : encodeVerifierMessage message = .ok packet)
      (hSender : message.sender = .pamVerifier)
      (hNext : advanceVerifierConversation c .pamVerifier message = .ok next ∨ next = c) :
      WorkerTalk (t ++ [.sent .inner .pamVerifier packet]) next

section Worker

abbrev workerSetting : Setting System Input :=
  partySetting .worker fun v => WorkerTalk v.1 v.2

def WorkerTalks (s : System) : Prop := WorkerTalk (s.view .worker).1 (s.view .worker).2

variable {s : System} {message : VerifierMessage}

theorem wp_sendToBroker (h : WorkerTalks s) (hSender : message.sender = .pamVerifier) :
    wp workerSetting (fun _ s' => WorkerTalks s' ∧
        advanceVerifierConversation (s.view .worker).2 .pamVerifier message =
          .ok (s'.view .worker).2)
      (fun _ => WorkerTalks) (sendToBroker message) s := by
  refine wp_mono (wp_sendAsVerifier rfl rfl h ?_ ?_) ?_ (fun _ _ hJ => hJ)
  · exact fun packet next hPacket hNext => h.tells hPacket hSender (.inl hNext)
  · exact fun packet e hPacket _ => h.tells hPacket hSender (.inr rfl)
  · rintro _ s' ⟨packet, next, hPacket, hNext, hs'⟩
    unfold WorkerTalks
    rw [hs']
    exact ⟨h.tells hPacket hSender (.inl hNext), hNext⟩

theorem wp_receiveFromBroker (rounds : Nat) (h : WorkerTalks s)
    (hListens : WorkerListens (s.view .worker).2) :
    wp workerSetting (fun _ => WorkerTalks) (fun _ => WorkerTalks)
      (receiveAsVerifier rounds .inner) s := by
  refine wp_mono (wp_receiveAsVerifier rounds rfl rfl h ?_ ?_) ?_ (fun _ _ hJ => hJ)
  · exact fun message packet next hPacket hNext => h.hears hListens hPacket hNext
  · exact fun packet hUnfit => h.refuses hListens hUnfit
  · rintro message s' ⟨packet, next, hPacket, hNext, hs'⟩
    unfold WorkerTalks
    rw [hs']
    exact h.hears hListens hPacket hNext

theorem maintains_sendToBroker (hSender : message.sender = .pamVerifier) :
    Maintains workerSetting WorkerTalks (sendToBroker message) :=
  fun _ h => wp_mono (wp_sendToBroker h hSender) (fun _ _ h => h.1) (fun _ _ h => h)

theorem maintains_workerObserve {α : Type} (f : Input → System → Except Exn α) :
    Maintains workerSetting WorkerTalks (Proc.observe f) :=
  fun s h => wp_party_observe (v := s.view .worker) rfl h fun s' _ hs' => by
    have h' : WorkerTalks s' := by
      unfold WorkerTalks
      rw [hs']
      exact h
    exact ⟨fun _ _ => h', fun _ _ => h'⟩

theorem maintains_readSecretResponse (rounds : Nat) (prompt : Bytes) :
    Maintains workerSetting WorkerTalks (readSecretResponse rounds prompt) := by
  intro s h
  unfold readSecretResponse
  refine wp_seq (wp_sendToBroker h rfl) ?_ (fun _ _ h => h)
  rintro _ s₁ ⟨h₁, hNext⟩
  -- A prompt that was sent leaves the worker waiting for its answer.
  have hWaits : (s₁.view .worker).2 = .awaitingSecret := by
    generalize (s₁.view .worker).2 = next at hNext ⊢
    generalize (s.view .worker).2 = c at hNext
    cases advances_of_ok hNext
    rfl
  refine wp_seq (wp_receiveFromBroker rounds h₁ (.inr hWaits)) ?_ (fun _ _ h => h)
  intro message s₂ h₂
  cases message with
  | secretResponse secret =>
    refine maintains_bind (maintains_workerObserve _) (fun failed => ?_) s₂ h₂
    by_cases hFailed : failed = true
    · rw [if_pos hFailed]
      exact maintains_done _
    · rw [if_neg hFailed]
      exact maintains_done _
  | _ => exact h₂

theorem maintains_converseMessage (rounds : Nat) (m : PamMessage) :
    Maintains workerSetting WorkerTalks (converseMessage rounds m) := by
  unfold converseMessage
  cases m.style with
  | promptEchoOff => exact maintains_readSecretResponse rounds m.text
  | promptEchoOn => exact maintains_done _
  | textInfo =>
    exact maintains_bind (maintains_sendToBroker rfl) fun _ => maintains_done _
  | errorMsg =>
    exact maintains_bind (maintains_sendToBroker rfl) fun _ => maintains_done _
  | other => exact maintains_done _

theorem maintains_converseAll (rounds : Nat) (messages : List (Option PamMessage)) :
    Maintains workerSetting WorkerTalks (converseAll rounds messages) := by
  induction messages with
  | nil => exact maintains_done _
  | cons m rest ih =>
    cases m with
    | none => exact maintains_done _
    | some m =>
      refine maintains_bind (maintains_converseMessage rounds m) fun rc => ?_
      by_cases hRc : rc ≠ .success
      · rw [if_pos hRc]
        exact maintains_done _
      · rw [if_neg hRc]
        exact ih

theorem maintains_conversation (rounds : Nat) (messages : List (Option PamMessage)) :
    Maintains workerSetting WorkerTalks (conversation rounds messages) := by
  unfold conversation
  by_cases hCount : messages.isEmpty ∨ messages.length > pamMaxNumMsg
  · rw [if_pos hCount]
    exact maintains_done _
  rw [if_neg hCount]
  refine maintains_bind (maintains_workerObserve _) fun failed => ?_
  by_cases hFailed : failed = true
  · rw [if_pos hFailed]
    exact maintains_done _
  · rw [if_neg hFailed]
    exact maintains_tryCatch (maintains_converseAll rounds messages) fun _ => maintains_done _

theorem maintains_pamCall (rounds : Nat) :
    Maintains workerSetting WorkerTalks (pamCall rounds) := by
  refine maintains_loop trivial (fun _ => ?_) rounds ()
  refine maintains_bind (maintains_workerObserve _) fun step => ?_
  cases step with
  | converse messages =>
    exact maintains_bind (maintains_conversation rounds messages) fun _ => maintains_done _
  | returned status => exact maintains_done _

theorem maintains_pamCallAfter (rounds : Nat) (rc : PamStatus) :
    Maintains workerSetting WorkerTalks (pamCallAfter rounds rc) := by
  unfold pamCallAfter
  by_cases hRc : rc = .success
  · rw [if_pos hRc]
    exact maintains_pamCall rounds
  · rw [if_neg hRc]
    exact maintains_done rc

theorem maintains_authenticate (rounds : Nat) :
    Maintains workerSetting WorkerTalks (authenticate rounds) := by
  refine maintains_bind (maintains_pamCall rounds) fun rc₁ => ?_
  refine maintains_bind (maintains_pamCallAfter rounds rc₁) fun rc₂ => ?_
  refine maintains_bind (maintains_pamCallAfter rounds rc₂) fun rc₃ => ?_
  refine maintains_bind (maintains_pamCall rounds) fun endRc => ?_
  by_cases hRc : rc₃ = .success ∧ endRc ≠ .success
  · rw [if_pos hRc]
    exact maintains_done _
  · rw [if_neg hRc]
    exact maintains_done _

/-- **The worker says only what a verifier may say**, and listens only for its start packet and
its answers. -/
theorem wp_runVauthAuthHandler (rounds : Nat) (hs : s.view .worker = ([], .awaitingStart)) :
    wp workerSetting (fun _ _ => True) (fun _ _ => True) (runVauthAuthHandler rounds) s := by
  have h : WorkerTalks s := by
    unfold WorkerTalks
    rw [hs]
    exact .nil
  refine wp_mono (Q := fun _ => WorkerTalks) (E := fun _ => WorkerTalks) ?_
    (fun _ _ _ => trivial) (fun _ _ _ => trivial)
  refine wp_tryCatch.mpr (wp_bind.mpr (wp_party_observe rfl h fun s₁ i hs₁ => ?_))
  have h₁ : WorkerTalks s₁ := by
    unfold WorkerTalks
    rw [hs₁]
    exact h
  refine ⟨fun _ _ => ?_, fun _ _ => h₁⟩
  have hWaits : WorkerListens (s₁.view .worker).2 := .inl (by rw [hs₁, hs])
  refine wp_seq (wp_receiveFromBroker rounds h₁ hWaits) ?_ (fun _ _ h => h)
  intro _ s₂ h₂
  refine wp_mono (maintains_bind (maintains_authenticate rounds) (fun result => ?_) s₂ h₂)
    (fun _ _ h => h) (fun _ _ h => h)
  exact maintains_bind (maintains_sendToBroker rfl) fun _ => maintains_done _

end Worker

/-! ## What was said on a wire -/

/-- A packet that went over a wire and was followed, seen from either end. -/
def Happening.saidOn? (link : Link) (sender : VerifierMessageSender) : Happening → Option Bytes
  | .sent l s packet => if l = link ∧ s = sender then some packet else none
  | .received l s packet => if l = link ∧ s = sender then some packet else none
  | _ => none

def History.saidOn (t : History) (link : Link) (sender : VerifierMessageSender) : List Bytes :=
  t.filterMap (Happening.saidOn? link sender)

section Said

variable {link : Link} {sender : VerifierMessageSender} {t : History} {packet : Bytes}

theorem source_ne_target (link : Link) (sender : VerifierMessageSender) :
    link.source sender ≠ link.target sender := by
  cases link <;> cases sender <;> nofun

theorem saidOn_eq_sentOn (hOwner : ∀ e ∈ t, e.owner = some (link.source sender)) :
    t.saidOn link sender = t.sentOn link sender := by
  refine List.filterMap_congr fun e he => ?_
  cases e with
  | received l sd p =>
    have hTarget := hOwner _ he
    simp only [Happening.saidOn?, Happening.sentOn?]
    refine if_neg ?_
    rintro ⟨rfl, rfl⟩
    exact source_ne_target l sd (Option.some.inj hTarget).symm
  | _ => rfl

theorem saidOn_eq_takenOn (hOwner : ∀ e ∈ t, e.owner = some (link.target sender))
    (hUnrefused : ∀ packet, .refused link sender packet ∉ t) :
    t.saidOn link sender = t.takenOn link sender := by
  refine List.filterMap_congr fun e he => ?_
  cases e with
  | sent l sd p =>
    have hSource := hOwner _ he
    simp only [Happening.saidOn?, Happening.takenOn?]
    refine if_neg ?_
    rintro ⟨rfl, rfl⟩
    exact source_ne_target l sd (Option.some.inj hSource)
  | refused l sd p =>
    simp only [Happening.saidOn?, Happening.takenOn?]
    refine (if_neg ?_).symm
    rintro ⟨rfl, rfl⟩
    exact hUnrefused p he
  | _ => rfl

theorem saidOn_snoc_of_silent {e : Happening} (h : e.onLink link = false) :
    History.saidOn (t ++ [e]) link sender = t.saidOn link sender := by
  have hNone : e.saidOn? link sender = none := by
    cases e with
    | sent l sd p => exact if_neg fun hWire => by simp [Happening.onLink, hWire.1] at h
    | received l sd p => exact if_neg fun hWire => by simp [Happening.onLink, hWire.1] at h
    | _ => rfl
  simp [History.saidOn, List.filterMap_append, hNone]

theorem saidOn_snoc_sent (other : VerifierMessageSender) :
    History.saidOn (t ++ [.sent link sender packet]) link other =
      t.saidOn link other ++ if sender = other then [packet] else [] := by
  by_cases hSender : sender = other <;>
    simp [History.saidOn, List.filterMap_append, Happening.saidOn?, hSender]

theorem saidOn_snoc_received (other : VerifierMessageSender) :
    History.saidOn (t ++ [.received link sender packet]) link other =
      t.saidOn link other ++ if sender = other then [packet] else [] := by
  by_cases hSender : sender = other <;>
    simp [History.saidOn, List.filterMap_append, Happening.saidOn?, hSender]

theorem saidOn_snoc_refused (other : VerifierMessageSender) :
    History.saidOn (t ++ [.refused link sender packet]) link other = t.saidOn link other := by
  simp [History.saidOn, List.filterMap_append, Happening.saidOn?]

end Said

/-! ## What a conversation allows -/

section Conversation

variable {link : Link} {sender : VerifierMessageSender} {t : History} {packet : Bytes}
  {c next : VerifierConversationState} {o : Option VerifierConversationState}
  {message : VerifierMessage}

theorem Conversation.of_sent (h : Conversation link t o) (hSent : .sent link sender packet ∈ t) :
    ∃ message, encodeVerifierMessage message = .ok packet ∧ message.sender = sender := by
  induction h with
  | nil => cases hSent
  | @sent t₁ c₁ next₁ sender₁ message₁ packet₁ _ hPacket hNext ih =>
    rcases List.mem_append.mp hSent with hSent | hSent
    · exact ih hSent
    · cases List.mem_singleton.mp hSent
      exact ⟨message₁, hPacket, (advances_of_ok hNext).sender_eq⟩
  | received _ _ _ ih =>
    rcases List.mem_append.mp hSent with hSent | hSent
    · exact ih hSent
    · cases List.mem_singleton.mp hSent
  | refused _ _ _ ih =>
    rcases List.mem_append.mp hSent with hSent | hSent
    · exact ih hSent
    · cases List.mem_singleton.mp hSent
  | @silent t₁ o₁ e _ hSilent ih =>
    rcases List.mem_append.mp hSent with hSent | hSent
    · exact ih hSent
    · cases List.mem_singleton.mp hSent
      simp [Happening.onLink] at hSilent

theorem Conversation.split_refused (h : Conversation link t o)
    (hRefused : .refused link sender packet ∈ t) :
    o = none ∧ ∃ t₁ t₂ c, t = t₁ ++ .refused link sender packet :: t₂ ∧
      Conversation link t₁ (some c) ∧ Listens sender c ∧ Unfit c sender packet ∧
      ∀ e ∈ t₂, e.onLink link = false := by
  induction h with
  | nil => cases hRefused
  | sent _ _ _ ih =>
    rcases List.mem_append.mp hRefused with hRefused | hRefused
    · cases (ih hRefused).1
    · cases List.mem_singleton.mp hRefused
  | received _ _ _ ih =>
    rcases List.mem_append.mp hRefused with hRefused | hRefused
    · cases (ih hRefused).1
    · cases List.mem_singleton.mp hRefused
  | @refused t₁ c₁ sender₁ packet₁ hTalk hListens hUnfit ih =>
    rcases List.mem_append.mp hRefused with hRefused | hRefused
    · cases (ih hRefused).1
    · cases List.mem_singleton.mp hRefused
      exact ⟨rfl, t₁, [], c₁, rfl, hTalk, hListens, hUnfit, nofun⟩
  | @silent t₁ o₁ e _ hSilent ih =>
    rcases List.mem_append.mp hRefused with hRefused | hRefused
    · obtain ⟨hNone, t₂, t₃, c, rfl, hTalk, hListens, hUnfit, hAfter⟩ := ih hRefused
      refine ⟨hNone, t₂, t₃ ++ [e], c, by simp, hTalk, hListens, hUnfit, ?_⟩
      intro e' he'
      rcases List.mem_append.mp he' with he' | he'
      · exact hAfter e' he'
      · rw [List.mem_singleton.mp he']
        exact hSilent
    · cases List.mem_singleton.mp hRefused
      simp [Happening.onLink] at hSilent

theorem Conversation.unrefused (h : Conversation link t (some c)) (sender : VerifierMessageSender)
    (packet : Bytes) : .refused link sender packet ∉ t := by
  intro hRefused
  cases (h.split_refused hRefused).1

theorem not_unfit (hPacket : encodeVerifierMessage message = .ok packet)
    (hNext : advanceVerifierConversation c sender message = .ok next) : ¬ Unfit c sender packet :=
  fun hUnfit => hUnfit _ (receiveAndAdvance_eq_ok.mpr ⟨receive_of_encode hPacket, hNext⟩)

/-- While it is verifying, the daemon's side follows everything that a verifier may say. -/
theorem fit_of_verifier (hPacket : encodeVerifierMessage message = .ok packet)
    (hSender : message.sender = .pamVerifier) : ¬ Unfit .verifying .pamVerifier packet := by
  cases message with
  | status status => exact not_unfit hPacket rfl
  | secretRequired required => exact not_unfit hPacket rfl
  | complete result => exact not_unfit hPacket rfl
  | start start => cases hSender
  | secretResponse secret => cases hSender
  | cancel => cases hSender

/-- What the daemon's side says: a start packet first, then answers and cancellations. -/
def Started (packets : List Bytes) : Prop :=
  ∀ n packet, packets[n]? = some packet → ∃ message,
    encodeVerifierMessage message = .ok packet ∧ if n = 0 then ∃ start, message = .start start
      else message = .cancel ∨ ∃ secret, message = .secretResponse secret

theorem started_nil : Started [] := nofun

theorem Started.snoc {packets : List Bytes} (h : Started packets)
    (hPacket : encodeVerifierMessage message = .ok packet)
    (hMessage : if packets.length = 0 then ∃ start, message = .start start
      else message = .cancel ∨ ∃ secret, message = .secretResponse secret) :
    Started (packets ++ [packet]) := by
  intro n packet' hAt
  rcases Nat.lt_trichotomy n packets.length with hLess | rfl | hMore
  · rw [List.getElem?_append_left hLess] at hAt
    exact h n packet' hAt
  · rw [List.getElem?_append_right (Nat.le_refl _), Nat.sub_self] at hAt
    cases hAt
    exact ⟨message, hPacket, hMessage⟩
  · rw [List.getElem?_eq_none (by simp; omega)] at hAt
    cases hAt

theorem Advances.ne_awaitingStart (h : Advances c sender message next) : next ≠ .awaitingStart := by
  cases h <;> nofun

/-- One more packet that the automaton follows. -/
theorem started_of_advances {packets : List Bytes} (hStarted : Started packets)
    (hState : c = .awaitingStart ↔ packets = [])
    (hPacket : encodeVerifierMessage message = .ok packet) (h : Advances c sender message next) :
    Started (packets ++ if sender = .daemon then [packet] else []) ∧
      (next = .awaitingStart ↔ (packets ++ if sender = .daemon then [packet] else []) = []) := by
  have hNext := h.ne_awaitingStart
  have hMore : c ≠ .awaitingStart → packets.length ≠ 0 := by
    intro hc hNone
    exact hc (hState.mpr (List.length_eq_zero_iff.mp hNone))
  cases h with
  | start start =>
    have hNone := hState.mp rfl
    subst hNone
    exact ⟨hStarted.snoc hPacket ⟨start, rfl⟩, by simp⟩
  | cancel =>
    refine ⟨hStarted.snoc hPacket ?_, by simp⟩
    rw [if_neg (hMore nofun)]
    exact .inl rfl
  | answer secret =>
    refine ⟨hStarted.snoc hPacket ?_, by simp⟩
    rw [if_neg (hMore nofun)]
    exact .inr ⟨secret, rfl⟩
  | cancelPrompt =>
    refine ⟨hStarted.snoc hPacket ?_, by simp⟩
    rw [if_neg (hMore nofun)]
    exact .inl rfl
  | status | prompt | complete | giveUp =>
    have hSome : packets ≠ [] := fun hNone => hMore nofun (List.length_eq_zero_iff.mpr hNone)
    simp [hStarted, hSome]

theorem Conversation.started (h : Conversation link t o) : Started (t.saidOn link .daemon) ∧
    ∀ c, o = some c → (c = .awaitingStart ↔ t.saidOn link .daemon = []) := by
  induction h with
  | nil =>
    refine ⟨started_nil, ?_⟩
    rintro c ⟨⟩
    exact ⟨fun _ => rfl, fun _ => rfl⟩
  | sent _ hPacket hNext ih =>
    have hStep := started_of_advances ih.1 (ih.2 _ rfl) hPacket (advances_of_ok hNext)
    rw [saidOn_snoc_sent]
    refine ⟨hStep.1, ?_⟩
    rintro c ⟨⟩
    exact hStep.2
  | received _ hPacket hNext ih =>
    have hStep := started_of_advances ih.1 (ih.2 _ rfl) hPacket (advances_of_ok hNext)
    rw [saidOn_snoc_received]
    refine ⟨hStep.1, ?_⟩
    rintro c ⟨⟩
    exact hStep.2
  | refused _ _ _ ih =>
    rw [saidOn_snoc_refused]
    exact ⟨ih.1, nofun⟩
  | silent _ hSilent ih =>
    rw [saidOn_snoc_of_silent hSilent]
    exact ih

/-! ## Prompts and answers are balanced -/

def VerifierMessage.isPrompt : VerifierMessage → Bool
  | .secretRequired _ => true
  | _ => false

def VerifierMessage.isAnswer : VerifierMessage → Bool
  | .secretResponse _ => true
  | _ => false

theorem isPrompt_of_encode (h : encodeVerifierMessage message = .ok packet) :
    Verifier.isPrompt packet = message.isPrompt := by
  unfold Verifier.isPrompt
  rw [encode_iff_decode.mp h]
  cases message <;> rfl

theorem isAnswer_of_encode (h : encodeVerifierMessage message = .ok packet) :
    Verifier.isAnswer packet = message.isAnswer := by
  unfold Verifier.isAnswer
  rw [encode_iff_decode.mp h]
  cases message <;> rfl

/-- How many prompts were made and answered in each state. -/
def Balanced (prompts answers : Nat) : Option VerifierConversationState → Prop
  | some .awaitingStart => prompts = 0 ∧ answers = 0
  | some .verifying => prompts = answers
  | some .awaitingSecret => prompts = answers + 1
  | _ => answers ≤ prompts

theorem Balanced.le {prompts answers : Nat} (h : Balanced prompts answers o) : answers ≤ prompts := by
  match o, h with
  | some .awaitingStart, h => exact h.2 ▸ Nat.zero_le _
  | some .verifying, h => exact Nat.le_of_eq h.symm
  | some .awaitingSecret, h => exact h ▸ Nat.le_succ _
  | some (.completed _), h => exact h
  | some .cancelled, h => exact h
  | none, h => exact h

theorem countP_snoc_if (p : Bytes → Bool) (packets : List Bytes) (packet : Bytes) (cond : Prop)
    [Decidable cond] : (packets ++ if cond then [packet] else []).countP p =
      packets.countP p + if cond ∧ p packet = true then 1 else 0 := by
  by_cases hCond : cond
  · simp [hCond, List.countP_append, List.countP_cons]
  · simp [hCond]

/-- One more packet that the automaton follows. -/
theorem balanced_of_advances {fromVerifier fromDaemon : List Bytes}
    (hBalanced : Balanced (fromVerifier.countP isPrompt) (fromDaemon.countP isAnswer) (some c))
    (hPacket : encodeVerifierMessage message = .ok packet) (h : Advances c sender message next) :
    Balanced ((fromVerifier ++ if sender = .pamVerifier then [packet] else []).countP isPrompt)
      ((fromDaemon ++ if sender = .daemon then [packet] else []).countP isAnswer) (some next) := by
  have hLe := hBalanced.le
  rw [countP_snoc_if, countP_snoc_if, isPrompt_of_encode hPacket, isAnswer_of_encode hPacket]
  generalize fromVerifier.countP isPrompt = prompts at hBalanced hLe ⊢
  generalize fromDaemon.countP isAnswer = answers at hBalanced hLe ⊢
  cases h with
  | start start => exact hBalanced.1.trans hBalanced.2.symm
  | cancel => exact hLe
  | status status => exact hBalanced
  | prompt required => exact congrArg (· + 1) hBalanced
  | complete result => exact hLe
  | answer secret => exact hBalanced
  | cancelPrompt => exact hLe
  | giveUp => exact hLe

theorem Conversation.balanced (h : Conversation link t o) :
    Balanced ((t.saidOn link .pamVerifier).countP isPrompt)
      ((t.saidOn link .daemon).countP isAnswer) o := by
  induction h with
  | nil => exact ⟨rfl, rfl⟩
  | sent _ hPacket hNext ih =>
    rw [saidOn_snoc_sent, saidOn_snoc_sent]
    exact balanced_of_advances ih hPacket (advances_of_ok hNext)
  | received _ hPacket hNext ih =>
    rw [saidOn_snoc_received, saidOn_snoc_received]
    exact balanced_of_advances ih hPacket (advances_of_ok hNext)
  | refused _ _ _ ih =>
    rw [saidOn_snoc_refused, saidOn_snoc_refused]
    exact ih.le
  | silent _ hSilent ih =>
    rw [saidOn_snoc_of_silent hSilent, saidOn_snoc_of_silent hSilent]
    exact ih

end Conversation

/-! ## The worker refuses nothing -/

section WorkerTalk

variable {t : History} {c : VerifierConversationState} {packet : Bytes}

theorem WorkerTalk.of_sent (h : WorkerTalk t c) (hSent : .sent .inner .pamVerifier packet ∈ t) :
    ∃ message, encodeVerifierMessage message = .ok packet ∧ message.sender = .pamVerifier := by
  induction h with
  | nil => cases hSent
  | hears _ _ _ _ ih =>
    rcases List.mem_append.mp hSent with hSent | hSent
    · exact ih hSent
    · cases List.mem_singleton.mp hSent
  | refuses _ _ _ ih =>
    rcases List.mem_append.mp hSent with hSent | hSent
    · exact ih hSent
    · cases List.mem_singleton.mp hSent
  | @tells t₁ c₁ next message packet₁ _ hPacket hSender _ ih =>
    rcases List.mem_append.mp hSent with hSent | hSent
    · exact ih hSent
    · cases List.mem_singleton.mp hSent
      exact ⟨message, hPacket, hSender⟩

variable {packets : List Bytes}

/-- What the next packet of a daemon's side holds. -/
theorem message_of_started {taken : List Bytes} (hStarted : Started packets)
    (hTaken : taken ++ [packet] <+: packets) : ∃ message,
      encodeVerifierMessage message = .ok packet ∧ if taken = [] then ∃ start, message = .start start
        else message = .cancel ∨ ∃ secret, message = .secretResponse secret := by
  have hAt : packets[taken.length]? = some packet := by
    obtain ⟨more, rfl⟩ := hTaken
    simp
  obtain ⟨message, hPacket, hMessage⟩ := hStarted _ _ hAt
  simp only [List.length_eq_zero_iff] at hMessage
  exact ⟨message, hPacket, hMessage⟩

theorem fit_of_started {taken : List Bytes} (hStarted : Started packets)
    (hTaken : taken ++ [packet] <+: packets) (hListens : WorkerListens c)
    (hState : c = .awaitingStart ↔ taken = []) : ¬ Unfit c .daemon packet := by
  obtain ⟨message, hPacket, hMessage⟩ := message_of_started hStarted hTaken
  rcases hListens with rfl | rfl
  · rw [if_pos (hState.mp rfl)] at hMessage
    obtain ⟨start, rfl⟩ := hMessage
    exact not_unfit hPacket rfl
  · rw [if_neg fun hNone => nomatch hState.mpr hNone] at hMessage
    rcases hMessage with rfl | ⟨secret, rfl⟩
    · exact not_unfit hPacket rfl
    · exact not_unfit hPacket rfl

theorem WorkerTalk.unrefused (h : WorkerTalk t c) (hStarted : Started packets)
    (hTaken : t.takenOn .inner .daemon <+: packets) :
    (∀ packet, .refused .inner .daemon packet ∉ t) ∧
      (c = .awaitingStart ↔ t.takenOn .inner .daemon = []) := by
  induction h with
  | nil => exact ⟨fun _ => List.not_mem_nil, fun _ => rfl, fun _ => rfl⟩
  | @hears t₁ c₁ next message packet₁ _ _ _ hNext ih =>
    rw [History.takenOn_append] at hTaken ⊢
    obtain ⟨hNone, -⟩ := ih ((List.prefix_append _ _).trans hTaken)
    have hMore := (advances_of_ok hNext).ne_awaitingStart
    refine ⟨?_, fun hStart => absurd hStart hMore, fun hEmpty => ?_⟩
    · intro packet hMem
      rcases List.mem_append.mp hMem with hMem | hMem
      · exact hNone packet hMem
      · cases List.mem_singleton.mp hMem
    · cases (List.append_eq_nil_iff.mp hEmpty).2
  | @refuses t₁ c₁ packet₁ _ hListens hUnfit ih =>
    rw [History.takenOn_append] at hTaken
    obtain ⟨-, hState⟩ := ih ((List.prefix_append _ _).trans hTaken)
    exact absurd hUnfit (fit_of_started hStarted hTaken hListens hState)
  | @tells t₁ c₁ next message packet₁ _ _ _ hNext ih =>
    rw [History.takenOn_append, show History.takenOn [.sent .inner .pamVerifier packet₁] .inner
      .daemon = [] from rfl, List.append_nil] at hTaken ⊢
    obtain ⟨hNone, hState⟩ := ih hTaken
    constructor
    · intro packet hMem
      rcases List.mem_append.mp hMem with hMem | hMem
      · exact hNone packet hMem
      · cases List.mem_singleton.mp hMem
    · rcases hNext with hNext | rfl
      · have hMore := (advances_of_ok hNext).ne_awaitingStart
        have hBefore : c₁ ≠ .awaitingStart := by
          cases advances_of_ok hNext <;> nofun
        exact ⟨fun hStart => absurd hStart hMore, fun hEmpty => absurd (hState.mpr hEmpty) hBefore⟩
      · exact hState

end WorkerTalk

/-! ## The three parties -/

def parties (rounds : Nat) (start : StartVerification) (daemonUid : UInt32) :
    Proc.Team System Input Exn Outcome
  | .daemon => runVerifierService rounds start
  | .broker => runPamVerifierConnection rounds daemonUid
  | .worker => runVauthAuthHandler rounds

/-- Sockets are closed and the worker exits, at any time. -/
def Deaths (s s' : System) : Prop := ∃ e : Happening, e.owner = none ∧ s' = s.log e

def HonestConduct (start : StartVerification) (daemonUid : UInt32) : Party → View → Prop
  | .daemon => DaemonTalk start
  | .broker => BrokerTalk daemonUid
  | .worker => fun v => WorkerTalk v.1 v.2

section Honest

variable {rounds : Nat} {start : StartVerification} {daemonUid : UInt32} {h : History}
  {ps : Proc.Team System Input Exn Outcome} {s : System} {packet : Bytes}

theorem honest_conduct (hRun : Proc.Team.Steps Deaths (fun _ _ _ => True)
      (parties rounds start daemonUid, {}) (ps, s)) :
    s.history.Fifo ∧ s.rejections = [] ∧ ∀ p, HonestConduct start daemonUid p (s.view p) := by
  have hAll := conduct_of_steps (J := HonestConduct start daemonUid) (R := fun _ _ _ => True)
    Function.injective_id ?_ ?_ ?_ hRun
  · exact ⟨hAll.1, hAll.2.1, hAll.2.2.1⟩
  · intro p
    cases p with
    | daemon =>
      exact wp_mono (wp_runVerifierService_talk rounds rfl) (fun _ _ _ => trivial) (fun _ _ h => h)
    | broker => exact wp_runPamVerifierConnection rounds rfl
    | worker => exact wp_runVauthAuthHandler rounds rfl
  · intro s s' hStep
    have hAny : AnyWorker s s' := .inr hStep
    refine ⟨fun p => ?_, hAny.fifo, hAny.rejections⟩
    obtain ⟨e, hOwner, rfl⟩ := hStep
    exact view_log_of_nobody hOwner p
  · refine ⟨fun _ _ => List.prefix_refl _, rfl, fun p => ?_⟩
    cases p with
    | daemon => exact .inl rfl
    | broker => exact ⟨⟨_, .nil⟩, ⟨_, .nil⟩, fun h => absurd h List.not_mem_nil⟩
    | worker => exact .nil

variable {link : Link} {sender : VerifierMessageSender}

theorem takenOn_of_refused (hMem : .refused link sender packet ∈ h) :
    packet ∈ h.takenOn link sender :=
  List.mem_filterMap.mpr ⟨_, hMem, by simp [Happening.takenOn?]⟩

theorem mem_transcript_of_refused (hMem : .refused link sender packet ∈ h) :
    .refused link sender packet ∈ h.transcript (link.target sender) :=
  List.mem_filter.mpr ⟨hMem, by simp [Happening.owner]⟩

theorem unrefused_by_daemonSide (hFifo : h.Fifo)
    (hListener : ∃ o, Conversation link (h.transcript (link.target .pamVerifier)) o)
    (hSpeaker : ∀ packet, .sent link .pamVerifier packet ∈ h.transcript (link.source .pamVerifier) →
      ∃ message, encodeVerifierMessage message = .ok packet ∧ message.sender = .pamVerifier) :
    .refused link .pamVerifier packet ∉ h := by
  intro hRefused
  obtain ⟨o, hTalk⟩ := hListener
  obtain ⟨-, t₁, t₂, c, -, -, hListens, hUnfit, -⟩ :=
    hTalk.split_refused (mem_transcript_of_refused hRefused)
  obtain rfl : c = .verifying := hListens
  obtain ⟨message, hPacket, hSender⟩ :=
    hSpeaker packet (sent_of_taken hFifo (takenOn_of_refused hRefused))
  exact fit_of_verifier hPacket hSender hUnfit

theorem DaemonTalk.conversation {v : View} (hTalk : DaemonTalk start v) :
    ∃ o, Conversation .outer v.1 o := by
  rcases hTalk with hNone | ⟨-, o, hTalk⟩
  · rw [hNone]
    exact ⟨_, .nil⟩
  · exact ⟨o, hTalk⟩

theorem prefix_of_fifo (hFifo : h.Fifo) (link : Link) (sender : VerifierMessageSender) :
    (h.transcript (link.target sender)).takenOn link sender <+:
      (h.transcript (link.source sender)).sentOn link sender := by
  rw [History.takenOn_transcript, History.sentOn_transcript]
  exact hFifo link sender

theorem started_of_conversation (link : Link) {o : Option VerifierConversationState}
    (hTalk : Conversation link (h.transcript (link.source .daemon)) o) :
    Started ((h.transcript (link.source .daemon)).sentOn link .daemon) := by
  rw [← saidOn_eq_sentOn fun e he => owner_of_mem_transcript he]
  exact hTalk.started.1

theorem unrefused_by_worker (hFifo : h.Fifo)
    (hBroker : ∃ o, Conversation .inner (h.transcript .broker) o) {c : VerifierConversationState}
    (hWorker : WorkerTalk (h.transcript .worker) c) : .refused .inner .daemon packet ∉ h := by
  intro hRefused
  obtain ⟨o, hTalk⟩ := hBroker
  have hStarted := started_of_conversation .inner hTalk
  have hPrefix := prefix_of_fifo hFifo .inner .daemon
  exact (hWorker.unrefused hStarted hPrefix).1 packet (mem_transcript_of_refused hRefused)

theorem sentOn_of_silent {t : History} (sender : VerifierMessageSender)
    (hSilent : ∀ e ∈ t, e.onLink link = false) : t.sentOn link sender = [] := by
  refine List.filterMap_eq_nil_iff.mpr fun e he => ?_
  have hOff := hSilent e he
  cases e with
  | sent l sd p => exact if_neg fun hWire => by simp [Happening.onLink, hWire.1] at hOff
  | _ => rfl

theorem answers_le_prompts (hFifo : h.Fifo)
    (hDaemon : ∃ o, Conversation .outer (h.transcript .daemon) o)
    (hUnrefused : ∀ packet, .refused .outer .pamVerifier packet ∉ h) :
    ((h.transcript .daemon).sentOn .outer .daemon).countP isAnswer ≤
      ((h.transcript .broker).sentOn .outer .pamVerifier).countP isPrompt := by
  obtain ⟨o, hTalk⟩ := hDaemon
  have hOwner : ∀ e ∈ h.transcript .daemon, e.owner = some .daemon :=
    fun e he => owner_of_mem_transcript he
  have hSent : (h.transcript .daemon).saidOn .outer .daemon =
      (h.transcript .daemon).sentOn .outer .daemon := saidOn_eq_sentOn hOwner
  have hTaken : (h.transcript .daemon).saidOn .outer .pamVerifier =
      (h.transcript .daemon).takenOn .outer .pamVerifier :=
    saidOn_eq_takenOn hOwner fun packet hMem => hUnrefused packet (List.mem_filter.mp hMem).1
  have hLe := hTalk.balanced.le
  rw [hSent, hTaken] at hLe
  exact Nat.le_trans hLe (prefix_of_fifo hFifo .outer .pamVerifier).sublist.countP_le

/-- The broker waits for a packet of the daemon at any time, so the order matters: while it is
verifying, every prompt it has made is answered, and no further answer can come. -/
theorem unrefused_by_broker (hFifo : h.Fifo)
    (hDaemon : ∃ o, Conversation .outer (h.transcript .daemon) o)
    (hBroker : ∃ o, Conversation .outer (h.transcript .broker) o)
    (hUnrefused : ∀ packet, .refused .outer .pamVerifier packet ∉ h) :
    .refused .outer .daemon packet ∉ h := by
  intro hRefused
  obtain ⟨o, hTalk⟩ := hBroker
  obtain ⟨-, t₁, t₂, c, hSplit, hBefore, hListens, hUnfit, hAfter⟩ :=
    hTalk.split_refused (mem_transcript_of_refused hRefused)
  have hOwner : ∀ e ∈ t₁, e.owner = some .broker := by
    intro e he
    refine owner_of_mem_transcript (h := h) ?_
    rw [hSplit]
    exact List.mem_append_left _ he
  have hHeard : t₁.saidOn .outer .daemon = t₁.takenOn .outer .daemon :=
    saidOn_eq_takenOn hOwner fun packet => hBefore.unrefused .daemon packet
  have hTold : t₁.saidOn .outer .pamVerifier = t₁.sentOn .outer .pamVerifier :=
    saidOn_eq_sentOn hOwner
  have hPrompts : (h.transcript .broker).sentOn .outer .pamVerifier =
      t₁.saidOn .outer .pamVerifier := by
    rw [hSplit, History.sentOn_append, hTold, ← List.singleton_append, History.sentOn_append,
      sentOn_of_silent .pamVerifier hAfter]
    exact List.append_nil _
  have hNext : t₁.saidOn .outer .daemon ++ [packet] <+:
      (h.transcript .daemon).sentOn .outer .daemon := by
    have hPrefix := prefix_of_fifo hFifo .outer .daemon
    change (h.transcript .broker).takenOn .outer .daemon <+: _ at hPrefix
    rw [hSplit, History.takenOn_append, ← hHeard] at hPrefix
    refine List.IsPrefix.trans ?_ hPrefix
    exact ⟨History.takenOn t₂ .outer .daemon, by simp [History.takenOn, Happening.takenOn?]⟩
  have hStarted : Started ((h.transcript .daemon).sentOn .outer .daemon) := by
    obtain ⟨o', hDaemonTalk⟩ := hDaemon
    exact started_of_conversation .outer hDaemonTalk
  have hState := hBefore.started.2 c rfl
  cases c with
  | awaitingStart => exact fit_of_started hStarted hNext (.inl rfl) hState hUnfit
  | awaitingSecret => exact fit_of_started hStarted hNext (.inr rfl) hState hUnfit
  | verifying =>
    obtain ⟨message, hPacket, hMessage⟩ := message_of_started hStarted hNext
    rw [if_neg fun hNone => by cases hState.mpr hNone] at hMessage
    rcases hMessage with rfl | ⟨secret, rfl⟩
    · exact not_unfit hPacket rfl hUnfit
    · have hAnswer : isAnswer packet = true := isAnswer_of_encode hPacket
      have hBalanced : (t₁.saidOn .outer .pamVerifier).countP isPrompt =
          (t₁.saidOn .outer .daemon).countP isAnswer := hBefore.balanced
      have hMore := hNext.sublist.countP_le (p := isAnswer)
      rw [List.countP_append, List.countP_cons_of_pos hAnswer, List.countP_nil] at hMore
      have hLess := answers_le_prompts hFifo hDaemon hUnrefused
      rw [hPrompts] at hLess
      omega
  | completed result => cases hListens
  | cancelled => cases hListens

/-- **Honest endpoints never refuse each other.** In every interleaving of the three processes,
with failures, stops, cancellations and timeouts in any step and with deaths at any time, no
packet is refused by the party that takes it off a wire, nor rejected after the conversation has
followed it. -/
theorem honest_never_refused (hRun : Proc.Team.Steps Deaths (fun _ _ _ => True)
      (parties rounds start daemonUid, {}) (ps, s)) :
    (∀ link sender packet, .refused link sender packet ∉ s.history) ∧ s.rejections = [] := by
  obtain ⟨hFifo, hNone, hTalks⟩ := honest_conduct hRun
  refine ⟨fun link sender packet => ?_, hNone⟩
  have hDaemon : ∃ o, Conversation .outer (s.history.transcript .daemon) o :=
    DaemonTalk.conversation (hTalks .daemon)
  have hBroker : BrokerTalk daemonUid (s.view .broker) := hTalks .broker
  have hWorker : WorkerTalk (s.history.transcript .worker) (s.stateOf .worker) := hTalks .worker
  have hOuter : ∀ packet, .refused .outer .pamVerifier packet ∉ s.history := by
    intro packet
    obtain ⟨o, hTalk⟩ := hBroker.outer
    exact unrefused_by_daemonSide hFifo hDaemon fun packet hSent => hTalk.of_sent hSent
  cases link with
  | outer =>
    cases sender with
    | daemon => exact unrefused_by_broker hFifo hDaemon hBroker.outer hOuter
    | pamVerifier => exact hOuter packet
  | inner =>
    cases sender with
    | daemon => exact unrefused_by_worker hFifo hBroker.inner hWorker
    | pamVerifier =>
      exact unrefused_by_daemonSide hFifo hBroker.inner fun packet hSent => hWorker.of_sent hSent

end Honest

/-! ## A cancellation that crosses a message -/

def partySteps (p : Party) (n : Nat) (i : Input) : List ((Party × Input) ⊕ Happening) :=
  List.replicate n (.inl (p, i))

/-- PAM has something to tell. -/
def telling : Input :=
  { ready with pam := .converse [some { style := .textInfo, msg := some [72] }] }

/-- The daemon's deadline passes while the message is on its way, and the broker takes the
cancellation. -/
def crossingScript : List ((Party × Input) ⊕ Happening) :=
  partySteps .daemon 4 ready ++ partySteps .broker 9 ready ++ partySteps .worker 2 ready ++
  partySteps .worker 3 telling ++ partySteps .broker 3 ready ++
  partySteps .daemon 4 { ready with expired := true } ++ partySteps .broker 6 ready

def followParties (script : List ((Party × Input) ⊕ Happening)) :=
  Proc.Team.follow (fun _ _ _ => true) System.log (fun _ _ => false) script
    (parties 6 request 990, {})

/-- The broker has taken a cancellation, and the daemon has not taken the message. -/
def crossed (h : History) : Bool :=
  (h.takenOn .outer .daemon).contains (setHeader .cancel []) &&
    h.takenOn .outer .pamVerifier == [] && h.sentOn .outer .pamVerifier != []

theorem honest_never_refused_crossing : ∃ ps s,
    followParties crossingScript = some (ps, s) ∧ crossed s.history = true ∧
      (∀ link sender packet, .refused link sender packet ∉ s.history) ∧ s.rejections = [] := by
  have hEnds : (followParties crossingScript).any (fun c => crossed c.2.history) = true := by
    decide +kernel
  obtain ⟨⟨ps, s⟩, hFollow, hCrossed⟩ := (Option.any_eq_true _ _).mp hEnds
  have hSteps : Proc.Team.Steps Deaths (fun _ _ _ => True) (parties 6 request 990, {}) (ps, s) :=
    Proc.Team.steps_follow (fun _ _ _ _ => trivial) nofun crossingScript hFollow
  exact ⟨ps, s, hFollow, hCrossed, honest_never_refused hSteps⟩

end VAuth.Verifier
